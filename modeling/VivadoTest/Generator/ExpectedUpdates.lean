import VivadoTest.Generator.InitState
import Mathlib.Data.Nat.Log

/-!
# `VivadoTest.Generator.ExpectedUpdates`: expected state updates

`gen_expected_updates_file.py` and `gen_fpga_expupd_file.py`. The first one writes a line of
text for each expected update, which the testbench reads; the second one turns the lines into
bytes with their offsets, which the host sends to the board.

The address of an update is printed in as many binary digits as the data memory needs, whether it
is an address or the number of a register. The second program does not look at the width: it reads
numerals.
-/

set_option autoImplicit false

namespace VivadoTest.Generator

open VivadoTest.Lib

/-- `ExpectedUpdate`. -/
structure ExpectedUpdate where
  isDestDmem : Bool
  addr : Int
  value : Int
  dmemAddrWidth : Nat
  deriving DecidableEq, Repr

namespace ExpectedUpdate

/-- `__init__`. -/
def init (isDestDmem : Bool) (addr value dmemDepth : Int) : Option ExpectedUpdate := do
  assertInRange addr 0 (dmemDepth - 1)
  assertInRange value (-(2 ^ 31)) (2 ^ 32 - 1)
  return ⟨isDestDmem, addr, value, Nat.clog 2 dmemDepth.toNat⟩

/-- `from_line`. -/
def fromLine (line : List Char) (dmemDepth : Int) : Option ExpectedUpdate :=
  match matchRegex dmemUpdateRegex line with
  | some groups => do
    let (addr, value) ← matchInts groups
    init true addr value dmemDepth
  | none => do
    let (addr, value) ← matchInts (← matchRegex regUpdateRegex line)
    init false addr value dmemDepth

/-- `__str__`. -/
def str (u : ExpectedUpdate) : Option (List Char) := do
  return [if u.isDestDmem then '1' else '0'] ++ [' '] ++ (← fixedWidthBin u.addr u.dmemAddrWidth) ++
    [' '] ++ (← fixedWidthHex u.value 32)

end ExpectedUpdate

/-- The updates that the loop of `main` prints. -/
def expectedUpdates (dmemDepth : Int) (stdin : List Char) : List ExpectedUpdate :=
  (textLines stdin).filterMap fun line =>
    let line := strip line
    if line.isEmpty then none else ExpectedUpdate.fromLine line dmemDepth

/-- `exp_updates_file`. -/
def genExpectedUpdatesFile (dmemDepth : Int) (stdin : List Char) : Option (List Char) := do
  return unlines (← (expectedUpdates dmemDepth stdin).mapM ExpectedUpdate.str)

/-! ### `gen_fpga_expupd_file.py` -/

/-- `expupd_val`. -/
def expupdVal (line : List Char) : Option Int :=
  match words line with
  | [isDmemBit, binAddr, hexVal] => do
    return (← pyInt 2 isDmemBit) <<< (42 : Nat) + (← pyInt 2 binAddr) <<< (32 : Nat)
      + (← pyInt 16 hexVal)
  | _ => none

/-- The line of byte `i`. -/
def expupdByteLine (offset : Nat) (expupdVal : Int) (i : Nat) : List Char :=
  Nat.toDigits 10 (offset + i) ++ " 0x".toList ++ formatX 2 ((expupdVal >>> (8 * (5 - i))) % 256)

/-- The lines that the loop of `main` prints. -/
def fpgaExpupdLines (offset : Nat) : List (List Char) → Option (List (List Char))
  | [] => some []
  | line :: lines => do
    let expupdVal ← expupdVal line
    return (List.range 6).map (expupdByteLine offset expupdVal) ++
      (← fpgaExpupdLines (offset + 8) lines)

/-- What `gen_fpga_expupd_file.py` prints. -/
def genFpgaExpupdFile (stdin : List Char) : Option (List Char) := do
  return unlines (← fpgaExpupdLines 0 (textLines stdin))

end VivadoTest.Generator
