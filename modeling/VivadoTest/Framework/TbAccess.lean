import VivadoTest.Framework.Tb
import VivadoTest.Lib.Noting

/-!
# `VivadoTest.Framework.TbAccess`: the array accesses of the checking process

The subprograms of `VivadoTest.Framework.Tb` once more, with a note of each index that they use on
`current_updates`, `temp_cur_updates` and `expected_updates`. Nothing else is different.

The notes are the only difference, so a subprogram here is the one of `VivadoTest.Framework.Tb`
with `readAt` and `writeAt` replaced. `checkExpectedUpdates_noted` in `VivadoTest.Proofs.TbAccess`
says that the process with notes is the process. The notes of a cycle that ends in an index error
include the index of the error.
-/

set_option autoImplicit false

namespace VivadoTest.Framework.Tb

open VivadoTest.Lib

variable {N : Nat}

/-- An index used on an array of the process. -/
inductive Access
  | current (index : Nat)
  | temp (index : Nat)
  | expected (index : Nat)
  deriving DecidableEq, Repr

namespace Noted

/-- A read of an array of the process that notes its index first, so also when the read fails. -/
def readAt (access : Nat → Access) (length : Nat) (a : TbArray) (i : Nat) :
    Noting Access IndexError ExpectedStateUpdate := do
  note (access i)
  unnoted (Tb.readAt length a i)

/-- A write that notes its index first. -/
def writeAt (access : Nat → Access) (length : Nat) (a : TbArray) (i : Nat)
    (u : ExpectedStateUpdate) : Noting Access IndexError TbArray := do
  note (access i)
  unnoted (Tb.writeAt length a i u)

/-! ### `check_updates_incorrect` -/

/-- `Tb.searchStep`: a hit uses the index of the turn twice, and once the front's. -/
def searchStep (N : Nat) (nextExpected : ExpectedStateUpdate) (i : Nat) (v : SearchVars) (j : Nat) :
    Noting Access IndexError SearchVars := do
  let update ← readAt .temp (N + 1) v.tempCurUpdates j
  if nextExpected = update then
    let front ← readAt .temp (N + 1) v.tempCurUpdates i
    let temp ← writeAt .temp (N + 1) v.tempCurUpdates j front
    return { v with foundExpected := true, tempCurUpdates := temp }
  else if nextExpected.dest = update.dest then
    return { v with foundSameDest := true, sameDestUpdate := update }
  else
    return v

/-- `Tb.checkStep`. A turn past the expected updates looks at no entry of `expected_updates`. -/
def checkStep (N : Nat) (g : Generics) (clockCounter numUpdates : Nat) (expectedUpdates : TbArray)
    (updateI : Nat) (v : CheckVars) (i : Nat) : Noting Access IndexError CheckVars := do
  if updateI + i ≥ g.NUM_EXPECTED_UPDATES then
    let update ← readAt .temp (N + 1) v.tempCurUpdates i
    return { v with
      log := logFailure clockCounter (.unexpectedAdditional update) v.log
      anyUpdatesIncorrect := true }
  else
    let nextExpected ← readAt .expected (g.NUM_EXPECTED_UPDATES + 1) expectedUpdates (updateI + i)
    let w ← (List.range' i (numUpdates - i)).foldlM (searchStep N nextExpected i)
      ⟨v.tempCurUpdates, false, false, v.sameDestUpdate⟩
    if w.foundExpected then
      return { v with
        tempCurUpdates := w.tempCurUpdates
        sameDestUpdate := w.sameDestUpdate
        log :=
          if v.anyUpdatesIncorrect then v.log
          else logSuccess clockCounter (.gotExpected nextExpected) v.log }
    else
      let update ← readAt .temp (N + 1) w.tempCurUpdates i
      let actual := if w.foundSameDest then w.sameDestUpdate else update
      return {
        tempCurUpdates := w.tempCurUpdates
        sameDestUpdate := w.sameDestUpdate
        log := logFailure clockCounter (.expectedNext nextExpected actual) v.log
        anyUpdatesIncorrect := true }

/-- `Tb.checkUpdatesIncorrect`, with its notes. -/
def checkUpdatesIncorrect (N : Nat) (g : Generics) (clockCounter : Nat) (currentUpdates : TbArray)
    (numUpdates : Nat) (expectedUpdates : TbArray) (updateI : Nat) (log : List LogLine) :
    Noting Access IndexError (Bool × List LogLine) := do
  let v ← (List.range' 0 numUpdates).foldlM
    (checkStep N g clockCounter numUpdates expectedUpdates updateI)
    ⟨currentUpdates, .zero, false, log⟩
  return (v.anyUpdatesIncorrect, v.log)

/-! ### The other subprograms -/

/-- `Tb.readUpdate`: the next index of `current_updates`. -/
def readUpdate (N : Nat) (v : TbArray × Nat) (update : ExpectedStateUpdate) :
    Noting Access IndexError (TbArray × Nat) := do
  let current ← writeAt .current (N + 1) v.1 v.2 update
  return (current, v.2 + 1)

/-- `Tb.readDmemUpdate`, with its notes. -/
def readDmemUpdate (currentUpdates : TbArray) (p : ProcOut N) :
    Noting Access IndexError (TbArray × Nat) :=
  if p.dmemWriteEnable then
    readUpdate N (currentUpdates, 0) ⟨.dmemUpdate, p.dmemAddress, p.dmemData⟩
  else return (currentUpdates, 0)

/-- `Tb.readPortUpdate`, with its notes. -/
def readPortUpdate (p : ProcOut N) (v : TbArray × Nat) (i : Fin N) :
    Noting Access IndexError (TbArray × Nat) :=
  if (p.writePorts i).we then
    readUpdate N v ⟨.regfileUpdate, regUpdateAddr (p.writePorts i).dst, (p.writePorts i).value⟩
  else return v

/-- `Tb.readCurrentUpdates`, with its notes. -/
def readCurrentUpdates (currentUpdates : TbArray) (p : ProcOut N) :
    Noting Access IndexError (TbArray × Nat) := do
  let v ← readDmemUpdate currentUpdates p
  (List.finRange N).foldlM (readPortUpdate p) v

/-- `Tb.logEach`: each index that is logged is used. -/
def logEach (N : Nat) (clockCounter : Nat) (message : ExpectedStateUpdate → Message)
    (updates : TbArray) (indices : List Nat) (log : List LogLine) :
    Noting Access IndexError (List LogLine) :=
  indices.foldlM (fun log i => do
    let update ← readAt .current (N + 1) updates i
    return logFailure clockCounter (message update) log) log

/-- `Tb.assertNoAdditionalUpdates`, with its notes. -/
def assertNoAdditionalUpdates (N : Nat) (clockCounter numUpdates : Nat) (curUpdates : TbArray)
    (log : List LogLine) : Noting Access IndexError (Bool × List LogLine) := do
  if numUpdates ≥ 1 then
    let log ← logEach N clockCounter .unexpectedAdditional curUpdates (List.range' 0 numUpdates) log
    return (true, log)
  else
    return (false, log)

/-! ### The process -/

/-- `Tb.checkBranches`. The branch of a disabled processor runs to `num_updates` itself. -/
def checkBranches (N : Nat) (g : Generics) (expectedUpdates : TbArray) (s : TbState)
    (processorEnable : Bool) : Noting Access IndexError TbState :=
  if s.updateI ≥ g.NUM_EXPECTED_UPDATES then do
    let (failed, log) ←
      assertNoAdditionalUpdates N s.clockCounter s.numUpdates s.currentUpdates s.logFile
    if failed then
      return { s with testFailed := failed, logFile := log }
    else
      let (complete, log) := checkTestComplete g s.clockCounter (s.idleCounter + 1) log
      return { s with
        testFailed := failed
        idleCounter := s.idleCounter + 1
        testComplete := complete
        logFile := log }
  else if s.numUpdates > 0 then
    if processorEnable then do
      let (failed, log) ← checkUpdatesIncorrect N g s.clockCounter s.currentUpdates s.numUpdates
        expectedUpdates s.updateI s.logFile
      return { s with testFailed := failed, logFile := log, updateI := s.updateI + s.numUpdates }
    else do
      let log ← logEach N s.clockCounter .gotWhileDisabled s.currentUpdates
        (List.range' 0 (s.numUpdates + 1)) s.logFile
      return { s with testFailed := true, logFile := log, updateI := s.updateI + s.numUpdates }
  else if s.clockCounter ≥ g.TEST_TIMEOUT_CYCLES then
    return { s with
      testFailed := true
      logFile := logFailure s.clockCounter .testTimeout s.logFile }
  else
    return s

/-- `Tb.checkExpectedUpdates`, with its notes. -/
def checkExpectedUpdates (g : Generics) (expectedUpdates : TbArray) (s : TbState)
    (processorEnable : Bool) (p : ProcOut N) : Noting Access IndexError TbState := do
  let v ← readCurrentUpdates s.currentUpdates p
  let s ← checkBranches N g expectedUpdates { s with currentUpdates := v.1, numUpdates := v.2 }
    processorEnable
  return { s with
    clockCounter := s.clockCounter + 1
    testComplete := s.testComplete || s.testFailed }

end Noted

/-- The indices that the process uses at one rising edge. The program with notes is the process of
`tb.vhd` (`checkExpectedUpdates_noted`). -/
def accesses (g : Generics) (expectedUpdates : TbArray) (s : TbState) (processorEnable : Bool)
    (p : ProcOut N) : List Access :=
  notesOf (Noted.checkExpectedUpdates g expectedUpdates s processorEnable p)

end VivadoTest.Framework.Tb
