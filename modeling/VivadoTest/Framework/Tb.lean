import VivadoTest.Framework.Util

/-!
# `VivadoTest.Framework.Tb`: the testbench's checking process

The process `check_expected_updates` of `tb.vhd`, with the functions and procedures it
declares. `TbState` holds its variables, the signal `test_complete` and the log file. One
rising edge is `checkExpectedUpdates`. The stimulus process enables the processor after
`RESET_CYCLES` edges and then waits for `test_complete` to become true, which ends the
simulation (`ended`).

A VHDL array is a function on `Nat` that is read and written through `readAt` and `writeAt`,
which carry its length: an index out of range ends the simulation with an error.

The messages of the log are an enumeration (`Message`), and `Message.text` is their text as the
source builds it. `LogLine.text` puts the time and the level in front. So a result about the log
may speak of the kind of a message, and one about the file of its text.

The comparison of a cycle's updates with the expected ones (`checkUpdatesIncorrect`) is kept as the
source has it: two loops over array variables, of which the inner one runs to its end.
-/

set_option autoImplicit false

namespace VivadoTest.Framework.Tb

variable {N : Nat}

/-- A simulation error for an array index out of range. -/
structure IndexError where
  index : Nat
  deriving DecidableEq, Repr

/-- An array of updates. -/
abbrev TbArray := Nat → ExpectedStateUpdate

/-- A read of an array with `length` elements. An index past them is an error of the simulator. -/
def readAt (length : Nat) (a : TbArray) (i : Nat) : Except IndexError ExpectedStateUpdate :=
  if i < length then .ok (a i) else .error ⟨i⟩

/-- A write to such an array. -/
def writeAt (length : Nat) (a : TbArray) (i : Nat) (u : ExpectedStateUpdate) :
    Except IndexError TbArray :=
  if i < length then .ok (Function.update a i u) else .error ⟨i⟩

/-- The generics of `tb_MIPSProcessor` that the process reads. -/
structure Generics where
  NUM_EXPECTED_UPDATES : Nat
  TEST_TIMEOUT_CYCLES : Nat := 1000
  IDLE_WAIT_CYCLES : Nat := 100

/-! ### The log -/

/-- `to_hchar`, on the values that a nibble takes. -/
def toHchar (nibble : Nat) : Char :=
  "0123456789ABCDEF".toList.getD nibble 'X'

/-- `to_hstring`: `0x` and one digit for each started nibble, at least one. -/
def toHstring {w : Nat} (vector : BitVec w) : String :=
  "0x" ++ String.ofList (((List.range (max 1 ((w + 3) / 4))).reverse).map fun j =>
    toHchar (vector.toNat / 16 ^ j % 16))

/-- `to_string` of an update. -/
def updateToString (update : ExpectedStateUpdate) : String :=
  match update.dest with
  | .dmemUpdate =>
    "update to data memory address " ++ toHstring update.addr ++ " with value " ++
      toHstring update.value
  | .regfileUpdate =>
    "update to register " ++ toString update.addr.toNat ++ " with value " ++ toHstring update.value

/-- The messages that the process logs. -/
inductive Message
  | unexpectedAdditional (update : ExpectedStateUpdate)
  | gotExpected (update : ExpectedStateUpdate)
  | expectedNext (expected actual : ExpectedStateUpdate)
  | gotWhileDisabled (update : ExpectedStateUpdate)
  | waited (idleCounter : Nat)
  | testSuccess
  | testTimeout
  deriving DecidableEq, Repr

/-- The text of a message. -/
def Message.text : Message → String
  | .unexpectedAdditional u => "Unexpected additional " ++ updateToString u
  | .gotExpected u => "Got expected " ++ updateToString u
  | .expectedNext e a =>
    "Expected next " ++ updateToString e ++ " but got " ++ updateToString a
  | .gotWhileDisabled u => "Got " ++ updateToString u ++ " while processor was disabled."
  | .waited k => "Waited " ++ toString k ++ " cycles, got no unexpected updates."
  | .testSuccess => "Test success."
  | .testTimeout => "Test timeout."

/-- A line of the log: written by `log_failure` or by `log_success`. -/
structure LogLine where
  failure : Bool
  cycle : Nat
  message : Message
  deriving DecidableEq, Repr

/-- The line of the log file. -/
def LogLine.text (l : LogLine) : String :=
  (if l.failure then "[FAILURE] In cycle " else "[OK] In cycle ") ++ toString l.cycle ++ ": " ++
    l.message.text

/-- `log_success`. -/
def logSuccess (clockCounter : Nat) (message : Message) (log : List LogLine) : List LogLine :=
  log ++ [⟨false, clockCounter, message⟩]

/-- `log_failure`. -/
def logFailure (clockCounter : Nat) (message : Message) (log : List LogLine) : List LogLine :=
  log ++ [⟨true, clockCounter, message⟩]

/-! ### `check_updates_incorrect` -/

/-- The variables of the search for one expected update. -/
structure SearchVars where
  tempCurUpdates : TbArray
  foundExpected : Bool
  foundSameDest : Bool
  sameDestUpdate : ExpectedStateUpdate

/-- The body of the loop over `j`. A hit is overwritten with the update at `i`. -/
def searchStep (N : Nat) (nextExpected : ExpectedStateUpdate) (i : Nat) (v : SearchVars) (j : Nat) :
    Except IndexError SearchVars := do
  let update ← readAt (N + 1) v.tempCurUpdates j
  if nextExpected = update then
    let front ← readAt (N + 1) v.tempCurUpdates i
    let temp ← writeAt (N + 1) v.tempCurUpdates j front
    return { v with foundExpected := true, tempCurUpdates := temp }
  else if nextExpected.dest = update.dest then
    return { v with foundSameDest := true, sameDestUpdate := update }
  else
    return v

/-- The variables of `check_updates_incorrect` and the log. `same_dest_update` keeps its value
over the iterations; it is only read when it was assigned in the same one. -/
structure CheckVars where
  tempCurUpdates : TbArray
  sameDestUpdate : ExpectedStateUpdate
  anyUpdatesIncorrect : Bool
  log : List LogLine

/-- The body of the loop over `i`. -/
def checkStep (N : Nat) (g : Generics) (clockCounter numUpdates : Nat) (expectedUpdates : TbArray)
    (updateI : Nat) (v : CheckVars) (i : Nat) : Except IndexError CheckVars := do
  if updateI + i ≥ g.NUM_EXPECTED_UPDATES then
    let update ← readAt (N + 1) v.tempCurUpdates i
    return { v with
      log := logFailure clockCounter (.unexpectedAdditional update) v.log
      anyUpdatesIncorrect := true }
  else
    let nextExpected ← readAt (g.NUM_EXPECTED_UPDATES + 1) expectedUpdates (updateI + i)
    let w ← (List.range' i (numUpdates - i)).foldlM (searchStep N nextExpected i)
      ⟨v.tempCurUpdates, false, false, v.sameDestUpdate⟩
    if w.foundExpected then
      return { v with
        tempCurUpdates := w.tempCurUpdates
        sameDestUpdate := w.sameDestUpdate
        log :=
          if v.anyUpdatesIncorrect then v.log
          else logSuccess clockCounter (.gotExpected nextExpected) v.log }
    else
      let update ← readAt (N + 1) w.tempCurUpdates i
      let actual := if w.foundSameDest then w.sameDestUpdate else update
      return {
        tempCurUpdates := w.tempCurUpdates
        sameDestUpdate := w.sameDestUpdate
        log := logFailure clockCounter (.expectedNext nextExpected actual) v.log
        anyUpdatesIncorrect := true }

/-- `check_updates_incorrect`, with the log. -/
def checkUpdatesIncorrect (N : Nat) (g : Generics) (clockCounter : Nat) (currentUpdates : TbArray)
    (numUpdates : Nat) (expectedUpdates : TbArray) (updateI : Nat) (log : List LogLine) :
    Except IndexError (Bool × List LogLine) := do
  let v ← (List.range' 0 numUpdates).foldlM
    (checkStep N g clockCounter numUpdates expectedUpdates updateI)
    ⟨currentUpdates, .zero, false, log⟩
  return (v.anyUpdatesIncorrect, v.log)

/-! ### The other subprograms -/

/-- One update read: it is stored at `num_updates`, which then counts it. -/
def readUpdate (N : Nat) (v : TbArray × Nat) (update : ExpectedStateUpdate) :
    Except IndexError (TbArray × Nat) := do
  let current ← writeAt (N + 1) v.1 v.2 update
  return (current, v.2 + 1)

/-- The data memory write of `read_current_updates`. -/
def readDmemUpdate (currentUpdates : TbArray) (p : ProcOut N) :
    Except IndexError (TbArray × Nat) :=
  if p.dmemWriteEnable then
    readUpdate N (currentUpdates, 0) ⟨.dmemUpdate, p.dmemAddress, p.dmemData⟩
  else .ok (currentUpdates, 0)

/-- The body of its loop over the register write ports. -/
def readPortUpdate (p : ProcOut N) (v : TbArray × Nat) (i : Fin N) :
    Except IndexError (TbArray × Nat) :=
  if (p.writePorts i).we then
    readUpdate N v ⟨.regfileUpdate, regUpdateAddr (p.writePorts i).dst, (p.writePorts i).value⟩
  else .ok v

/-- `read_current_updates`. -/
def readCurrentUpdates (currentUpdates : TbArray) (p : ProcOut N) :
    Except IndexError (TbArray × Nat) := do
  let v ← readDmemUpdate currentUpdates p
  (List.finRange N).foldlM (readPortUpdate p) v

/-- Logs a failure for the update at each index in `indices`. -/
def logEach (N : Nat) (clockCounter : Nat) (message : ExpectedStateUpdate → Message)
    (updates : TbArray) (indices : List Nat) (log : List LogLine) :
    Except IndexError (List LogLine) :=
  indices.foldlM (fun log i => do
    let update ← readAt (N + 1) updates i
    return logFailure clockCounter (message update) log) log

/-- `assert_no_additional_updates`, with the log. -/
def assertNoAdditionalUpdates (N : Nat) (clockCounter numUpdates : Nat) (curUpdates : TbArray)
    (log : List LogLine) : Except IndexError (Bool × List LogLine) := do
  if numUpdates ≥ 1 then
    let log ← logEach N clockCounter .unexpectedAdditional curUpdates (List.range' 0 numUpdates) log
    return (true, log)
  else
    return (false, log)

/-- `check_test_complete`, with the log. -/
def checkTestComplete (g : Generics) (clockCounter idleCounter : Nat) (log : List LogLine) :
    Bool × List LogLine :=
  if idleCounter ≥ g.IDLE_WAIT_CYCLES then
    (true, logSuccess clockCounter .testSuccess (logSuccess clockCounter (.waited idleCounter) log))
  else (false, log)

/-! ### The process -/

/-- The variables of the process, the signal `test_complete` and the log file, and whether the
stimulus process has ended the simulation. -/
structure TbState where
  clockCounter : Nat := 0
  idleCounter : Nat := 0
  updateI : Nat := 0
  currentUpdates : TbArray := fun _ => .zero
  numUpdates : Nat := 0
  testFailed : Bool := false
  testComplete : Bool := false
  logFile : List LogLine := []
  ended : Bool := false

/-- The branches of the process: what it does with the updates read. -/
def checkBranches (N : Nat) (g : Generics) (expectedUpdates : TbArray) (s : TbState)
    (processorEnable : Bool) : Except IndexError TbState :=
  if s.updateI ≥ g.NUM_EXPECTED_UPDATES then do
    let (failed, log) ←
      assertNoAdditionalUpdates N s.clockCounter s.numUpdates s.currentUpdates s.logFile
    if failed then
      return { s with testFailed := failed, logFile := log }
    else
      let (complete, log) := checkTestComplete g s.clockCounter (s.idleCounter + 1) log
      return { s with
        testFailed := failed
        idleCounter := s.idleCounter + 1
        testComplete := complete
        logFile := log }
  else if s.numUpdates > 0 then
    if processorEnable then do
      let (failed, log) ← checkUpdatesIncorrect N g s.clockCounter s.currentUpdates s.numUpdates
        expectedUpdates s.updateI s.logFile
      return { s with testFailed := failed, logFile := log, updateI := s.updateI + s.numUpdates }
    else do
      -- The loop runs to `num_updates`, one past the updates of this cycle.
      let log ← logEach N s.clockCounter .gotWhileDisabled s.currentUpdates
        (List.range' 0 (s.numUpdates + 1)) s.logFile
      return { s with testFailed := true, logFile := log, updateI := s.updateI + s.numUpdates }
  else if s.clockCounter ≥ g.TEST_TIMEOUT_CYCLES then
    return { s with
      testFailed := true
      logFile := logFailure s.clockCounter .testTimeout s.logFile }
  else
    return s

/-- One rising edge. -/
def checkExpectedUpdates (g : Generics) (expectedUpdates : TbArray) (s : TbState)
    (processorEnable : Bool) (p : ProcOut N) : Except IndexError TbState := do
  let v ← readCurrentUpdates s.currentUpdates p
  let s ← checkBranches N g expectedUpdates { s with currentUpdates := v.1, numUpdates := v.2 }
    processorEnable
  return { s with
    clockCounter := s.clockCounter + 1
    testComplete := s.testComplete || s.testFailed }

/-- A rising edge of the simulation. The stimulus process waits for an event on
`test_complete` from when it has enabled the processor on. -/
def clockEdge (g : Generics) (expectedUpdates : TbArray) (s : TbState)
    (cycle : Bool × ProcOut N) : Except IndexError TbState :=
  if s.ended then .ok s
  else do
    let s' ← checkExpectedUpdates g expectedUpdates s cycle.1 cycle.2
    return { s' with ended := cycle.1 && !s.testComplete && s'.testComplete }

/-- A simulation: the value of `processor_enable` and the outputs of the processor at each
rising edge. -/
def simulate (g : Generics) (expectedUpdates : TbArray) (cycles : List (Bool × ProcOut N)) :
    Except IndexError TbState :=
  cycles.foldlM (clockEdge g expectedUpdates) {}

/-- The log file when an index error ends the simulation. Only the loop over the updates of a
disabled processor can leave its array, and it has logged the updates read by then. -/
def logAtError (s : TbState) (p : ProcOut N) : List LogLine :=
  let log : Except IndexError (List LogLine) := do
    let v ← readCurrentUpdates s.currentUpdates p
    logEach N s.clockCounter .gotWhileDisabled v.1 (List.range' 0 v.2) s.logFile
  match log with
  | .ok log => log
  | .error _ => s.logFile

/-- The log file after a run that stops when `test_complete` becomes true. -/
def runLog (g : Generics) (expectedUpdates : TbArray) (s : TbState) :
    List (Bool × ProcOut N) → List LogLine
  | [] => s.logFile
  | cycle :: cycles =>
    if s.testComplete then s.logFile
    else
      match checkExpectedUpdates g expectedUpdates s cycle.1 cycle.2 with
      | .ok s' => runLog g expectedUpdates s' cycles
      | .error _ => logAtError s cycle.2

/-- The rising edges before the stimulus process enables the processor. -/
def RESET_CYCLES : Nat := 10

end VivadoTest.Framework.Tb
