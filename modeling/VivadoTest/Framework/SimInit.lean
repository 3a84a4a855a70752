import VivadoTest.Lib.TextIO
import VivadoTest.Framework.Memories
import VivadoTest.Framework.Tb

/-!
# `VivadoTest.Framework.SimInit`: the files that the simulation reads

The part of `RegisterFile.vhd` that loads `REGS_INIT_FILE`, and the procedure
`init_expected_updates_from_file` of `tb.vhd`.

Both are loops over the lines of a file, and both stop the simulation when a line cannot be read.
They are stated as functions from the text of the file to an array.
-/

set_option autoImplicit false

namespace VivadoTest.Framework

open VivadoTest.Lib VivadoTest.Lib.TextIO

/-- The body of the loop over `memfile`. -/
def Regfile.initLine (privateRegfile : Regfile) (reginitLine : List Char) : Option Regfile :=
  if reginitLine = [] then some privateRegfile
  else do
    let (regnum, line) ← readInteger reginitLine
    let (_, line) ← readCharacter line
    let (value, _) ← hread 32 line
    guard (0 ≤ regnum ∧ regnum < 32)
    return Function.update privateRegfile (BitVec.ofInt 5 regnum) value

/-- `private_regfile` once `REGS_INIT_FILE` has been read. -/
def Regfile.fileBasedInit (memfile : List Char) : Option Regfile :=
  (textLines memfile).foldlM Regfile.initLine fun _ => 0

namespace Tb

/-- An update as a line of the file states it. -/
def readExpectedUpdate (expUpdLine : List Char) : Option ExpectedStateUpdate := do
  let (isDestDmem, line) ← readStdLogic expUpdLine
  let (_, line) ← readCharacter line
  let (updateAddr, line) ← readVector 10 line
  let (_, line) ← readCharacter line
  let (updateValue, _) ← hread 32 line
  return ⟨if isDestDmem = false then .regfileUpdate else .dmemUpdate, updateAddr, updateValue⟩

/-- The loop of `init_expected_updates_from_file`. -/
def initExpectedUpdatesLoop (g : Generics) (expectedUpdates : TbArray) (i : Nat) :
    List (List Char) → Option (TbArray × Nat)
  | [] => some (expectedUpdates, i)
  | expUpdLine :: lines =>
    if i ≥ g.NUM_EXPECTED_UPDATES then none
    else do
      let update ← readExpectedUpdate expUpdLine
      initExpectedUpdatesLoop g (Function.update expectedUpdates i update) (i + 1) lines

/-- `init_expected_updates_from_file`. -/
def initExpectedUpdatesFromFile (g : Generics) (expectedUpdates : TbArray)
    (expUpdFile : List Char) : Option TbArray := do
  let (expectedUpdates, i) ← initExpectedUpdatesLoop g expectedUpdates 0 (textLines expUpdFile)
  guard (i = g.NUM_EXPECTED_UPDATES)
  return Function.update expectedUpdates i
    ⟨.dmemUpdate, BitVec.allOnes 10, BitVec.allOnes 32⟩

end Tb

end VivadoTest.Framework
