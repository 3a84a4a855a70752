import VivadoTest.Lib.PyText
import VivadoTest.Framework.UartParser

/-!
# `VivadoTest.Host.HostcommProxy`: the host's side of the serial line

The class `HostcommProxy` of `process_tests.py`. What it writes to the serial line is the text
of its commands; a method that only writes is that text. A method that reads is written over
the monad of the line, with the effect of `_readByte` as an argument.

A command is a line of text: the letter `w` with a value and an address, or `r` with an address,
all in hexadecimal. The answer to a read is two digits and a line end. A number that takes several
registers is written and read byte by byte, the most significant byte first.

`Option` is the exception: `none` where the program raises one. What it has sent until then is not
followed.
-/

set_option autoImplicit false

namespace VivadoTest.Host

open VivadoTest.Lib

/-- `StateUpdate`. -/
structure StateUpdate where
  isDmem : Nat
  addr : Nat
  val : Nat
  deriving DecidableEq, Repr

/-- `command.encode('ASCII')`. -/
def encode (command : List Char) : List Framework.Byte :=
  command.map fun c => BitVec.ofNat 8 c.toNat

namespace HostcommProxy

/-- `_writeByte`. -/
def writeByte (addr val : Int) : List Char :=
  ['w', ' '] ++ formatX 2 val ++ [' '] ++ formatX 4 addr ++ ['\n']

/-- The command that `_readByte` sends. -/
def readByteCommand (addr : Int) : List Char := ['r', ' '] ++ formatX 4 addr ++ ['\n']

/-- What `_readByte` makes of the four characters of the answer. -/
def readByteResult (answer : List Char) : Option Int := pyInt 16 answer

/-- `_writeBytesBigEndian`. -/
def writeBytesBigEndian (addr val : Int) (numBytes : Nat) : List Char :=
  (List.range numBytes).flatMap fun i : Nat =>
    writeByte (addr + (i : Int)) ((val >>> (8 * (numBytes - 1 - i))) % 256)

/-- `start_processor`. -/
def startProcessor : List Char := writeByte 0 1

/-- `stop_processor`. -/
def stopProcessor : List Char := writeByte 0 0

/-- `reset_processor`. -/
def resetProcessor : List Char := writeByte 1 1 ++ writeByte 1 0

/-! ### Files

An exception in the middle of a file is `none`. -/

/-- The command of a line of `_init_mem`. -/
def initMemLine (baseaddr : Int) (dest : List Char) : Option (List Char) :=
  match words dest with
  | [offset, val] => do
    let offset ← pyInt 0 offset
    let val ← pyInt 0 val
    return writeByte (baseaddr + offset) val
  | _ => none

/-- `_init_mem`. -/
def initMem (initMemFile : List Char) (baseaddr : Int) : Option (List Char) := do
  return (← (textLines initMemFile).mapM (initMemLine baseaddr)).flatten

/-- `init_imem`. -/
def initImem (imemInitFile : List Char) : Option (List Char) := initMem imemInitFile 0xC000

/-- `init_dmem`. -/
def initDmem (dmemInitFile : List Char) : Option (List Char) := initMem dmemInitFile 0x8000

/-- `init_regfile`. -/
def initRegfile (regfileInitFile : List Char) : Option (List Char) := initMem regfileInitFile 0x3000

/-- `init_expected_updates`. -/
def initExpectedUpdates (expectedUpdatesInitFile : List Char) : Option (List Char) :=
  initMem expectedUpdatesInitFile 0x2000

/-- `TestConfig`. A field is `none` before its line. -/
structure TestConfig where
  numExpUpdates : Option Int
  timeout : Option Int

/-- The loop of `_parse_test_config`. -/
def parseTestConfigLine (config : TestConfig) (line : List Char) : Option TestConfig :=
  match splitText " = ".toList 0 line with
  | [name, val] =>
    if name = "num_expected_updates".toList then do
      return { config with numExpUpdates := some (← pyInt 0 val) }
    else if name = "timeout".toList then do return { config with timeout := some (← pyInt 0 val) }
    else some config
  | _ => none

/-- `_parse_test_config`. -/
def parseTestConfig (testConfigFile : List Char) : Option TestConfig :=
  (textLines testConfigFile).foldlM parseTestConfigLine ⟨none, none⟩

/-- `init_test_config`. A missing field makes the shift in `_writeBytesBigEndian` fail. -/
def initTestConfig (testConfigFile : List Char) : Option (List Char) := do
  let testConfig ← parseTestConfig testConfigFile
  let numExpUpdates ← testConfig.numExpUpdates
  let timeout ← testConfig.timeout
  return writeBytesBigEndian 5 numExpUpdates 2 ++ writeBytesBigEndian 7 timeout 2

/-! ### Reading -/

section
variable {m : Type → Type} [Monad m] (readByte : Nat → m Nat)

/-- The loop of `first_nonzero_testcode`; `none` when the board still answers zero after `fuel`
more reads. -/
def firstNonzeroTestcodeLoop : Nat → Nat → m (Option Nat)
  | 0, testcode => return if testcode = 0 then none else some testcode
  | fuel + 1, testcode =>
    if testcode = 0 then do firstNonzeroTestcodeLoop fuel (← readByte 2) else return some testcode

/-- `first_nonzero_testcode`. -/
def firstNonzeroTestcode (fuel : Nat) : m (Option Nat) := do
  firstNonzeroTestcodeLoop readByte fuel (← readByte 2)

/-- `read_cycle_count`. -/
def readCycleCount : m Nat := do
  let cyclesHi ← readByte 3
  let cyclesLo ← readByte 4
  return cyclesLo + cyclesHi <<< 8

/-- `read_update_pair`. -/
def readUpdatePair : m (StateUpdate × StateUpdate) := do
  let expType ← readByte 0x9
  let expAddr ← readByte 0xA
  let expAddr := expAddr <<< 8 + (← readByte 0xB)
  let expVal ← readByte 0xC
  let expVal := expVal <<< 8 + (← readByte 0xD)
  let expVal := expVal <<< 8 + (← readByte 0xE)
  let expVal := expVal <<< 8 + (← readByte 0xF)
  let actualType ← readByte 0x10
  let actualAddr ← readByte 0x11
  let actualAddr := actualAddr <<< 8 + (← readByte 0x12)
  let actualVal ← readByte 0x13
  let actualVal := actualVal <<< 8 + (← readByte 0x14)
  let actualVal := actualVal <<< 8 + (← readByte 0x15)
  let actualVal := actualVal <<< 8 + (← readByte 0x16)
  return (⟨expType, expAddr, expVal⟩, ⟨actualType, actualAddr, actualVal⟩)

end

end HostcommProxy

end VivadoTest.Host
