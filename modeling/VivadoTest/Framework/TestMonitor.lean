import VivadoTest.Framework.TestChecks
import VivadoTest.Lib.ByteLanes
import VivadoTest.Lib.Clocked

/-!
# `VivadoTest.Framework.TestMonitor`: the on-board test monitor

`TestMonitor.vhd` as a clocked machine. `TestMonitorState` holds the registers of the
entity, the contents of the `RF_NUM_WRITE_PORTS + 1` expected-update block RAMs and their
output latches. The combinational signals are definitions on the state, and
`TestMonitorState.step` is one rising edge.

The block RAM macro is a synchronous-read RAM with byte write enables: the latch takes the
word addressed before the edge, as it was before the write of that edge (`READ_FIRST`).
`natural` signals are `Nat`. A `>` or `>=` between two `std_logic_vector`s of one length
compares them as unsigned numbers.

## One edge

* `ramStep`, `numExpUpdatesStep`, `maxWaitTimeStep`: what the host writes.
* `outputStep`: the registers of the verdict, which keep the first one.
* `step`: the control registers as well. Any write of the host to the configuration or to an
  expected update restarts the test (`testReset`), and the activity of the processor is registered
  before it is checked, so the verdict on a cycle comes one cycle later.

The copies of the RAM, one for each update that is checked in a cycle, take the same writes, so one
content stands for all of them (`ramStep_copies`); each has a latch of its own.
-/

set_option autoImplicit false

namespace VivadoTest.Framework

open VivadoTest.Lib

variable {N : Nat}

/-- `expupd_addr_t`. -/
abbrev ExpupdAddr := BitVec 9

/-- A raw entry of the expected-update RAM, `EXP_UPD_WIDTH` bits. -/
abbrev RawExpectedUpdate := BitVec 48

/-- The contents of one expected-update RAM. -/
abbrev ExpupdRam := ExpupdAddr → RawExpectedUpdate

/-- `test_monitor_in_t`, without the clock. -/
structure TestMonitorIn (N : Nat) where
  reset : Bool
  numExpUpdatesWeMask : BitVec 2
  numExpUpdates : BitVec 9
  expupdWe : Bool
  expupdByteWriteAddr : BitVec 12
  expupdWriteValue : Byte
  procEnable : Bool
  updates : UpdateArray N
  updateWes : PortMask N
  maxWaitTime : BitVec 16
  maxWaitTimeWeMask : BitVec 2
  readExpUpdEn : Bool

namespace TestMonitorIn

variable (input : TestMonitorIn N)

/-- `expupd_write_addr`, and `expupd_hostcomm_read_addr`, which is wired to it. -/
def expupdWriteAddr : ExpupdAddr := input.expupdByteWriteAddr.extractLsb' 3 9

/-- The byte of an expected update that a write selects. -/
def expupdByteSel : Nat := (input.expupdByteWriteAddr.extractLsb' 0 3).toNat

/-- `expupd_wen_mask`: the write enable at lane `EXP_UPD_WIDTH/8 - 1`, shifted right by the
byte select. -/
def expupdWenMask : BitVec 8 :=
  ((BitVec.ofBool input.expupdWe).setWidth 8 <<< 5) >>> input.expupdByteSel

/-- `expupd_write_value`: the host byte in every lane. -/
def expupdWriteValue48 : RawExpectedUpdate := BitVec.replicate 6 input.expupdWriteValue

/-- `test_reset`: any write to a configuration register or to an expected update. -/
def testReset : Bool :=
  input.numExpUpdatesWeMask.getLsbD 0 || input.numExpUpdatesWeMask.getLsbD 1 ||
    input.expupdWe || input.maxWaitTimeWeMask.getLsbD 0 || input.maxWaitTimeWeMask.getLsbD 1

end TestMonitorIn

/-- The registered fields of `test_monitor_out_t`. -/
structure TestMonitorOut where
  testStatus : Byte
  testCycleCount : BitVec 16
  unmatchedExpected : ExpectedStateUpdate
  badActual : ExpectedStateUpdate
  deriving DecidableEq, Repr

/-- The state elements of the entity `TestMonitor`. The RAMs share every signal of their
write port, so they hold one content; the state carries that as `copies`. -/
structure TestMonitorState (N : Nat) where
  expectedUpdatesRam : Fin (N + 1) → ExpupdRam
  copies : ∀ i j, expectedUpdatesRam i = expectedUpdatesRam j
  rawExpectedUpdates : Fin (N + 1) → RawExpectedUpdate
  curExpUpdate : ExpupdAddr
  testCycleCounter : Nat
  idleWaitTimer : Nat
  shouldBeDone : Bool
  testWasDone : Bool
  actualUpdatesReg : UpdateArray N
  updateWesReg : PortMask N
  procEnableReg : Bool
  maxWaitTime : BitVec 16
  numExpUpdates : ExpupdAddr
  output : TestMonitorOut

/-- `expected_updates`: a raw entry taken apart. -/
def decodeUpdate (raw : RawExpectedUpdate) : ExpectedStateUpdate where
  dest := if raw.getLsbD 42 then .dmemUpdate else .regfileUpdate
  addr := raw.extractLsb' 32 10
  value := raw.extractLsb' 0 32

namespace TestMonitorState

variable (s : TestMonitorState N)

/-- The content that the expected-update RAMs share. -/
def expupdRam : ExpupdRam := s.expectedUpdatesRam 0

/-- All copies of the expected updates' RAM have one content. -/
theorem expectedUpdatesRam_eq (i : Fin (N + 1)) : s.expectedUpdatesRam i = s.expupdRam :=
  s.copies i 0

/-- `check_in`. -/
def checkIn : TestChecksIn N where
  actual := s.actualUpdatesReg
  updateWes := s.updateWesReg
  procEn := s.procEnableReg
  expected := fun i => decodeUpdate (s.rawExpectedUpdates i)
  shouldBeDone := s.shouldBeDone

/-- The outputs of the checks. -/
def checkOut : TestChecksOut N := testChecks s.checkIn

/-- `next_exp_update`: the loop counts up, so the highest active check is assigned last. -/
def nextExpUpdate : ExpupdAddr :=
  (List.finRange (N + 1)).foldl
    (fun acc i =>
      if s.checkOut.isCheckActive i then s.curExpUpdate + BitVec.ofNat 9 (i.val + 1) else acc)
    s.curExpUpdate

/-- The timeout in cycles. -/
def testTimeout : Nat := s.maxWaitTime.toNat

/-- The status of this cycle, before it is latched. -/
def testStatus : TestStatus :=
  -- A full idle wait comes before everything else, the end of the list after everything else.
  if s.idleWaitTimer ≥ 100 then .success
  else if s.testCycleCounter > s.testTimeout ∧ s.shouldBeDone = false then .timeout
  else if s.checkOut.foundError then s.checkOut.status
  else if s.nextExpUpdate > s.numExpUpdates then .extraUpdate
  else .notDone

/-- The test has its verdict. -/
def testDone : Bool := s.testStatus ≠ .notDone || s.testWasDone

/-- The test is going on. -/
def testRunning : Bool := s.procEnableReg && !s.testDone

/-- `expupd_read_addr(i)`. The host address replaces the first one while the host reads. -/
def expupdReadAddr (input : TestMonitorIn N) (i : Fin (N + 1)) : ExpupdAddr :=
  if i.val = 0 ∧ input.readExpUpdEn then input.expupdWriteAddr
  else s.nextExpUpdate + BitVec.ofNat 9 i.val

/-- `output.exp_upd_byte`: the lane of the first RAM's latch that the host addresses. -/
def expUpdByte (input : TestMonitorIn N) : Byte :=
  match input.expupdByteSel with
  | 0 => ((s.rawExpectedUpdates 0).extractLsb' 40 3).setWidth 8
  | 1 => (s.rawExpectedUpdates 0).extractLsb' 32 8
  | 2 => (s.rawExpectedUpdates 0).extractLsb' 24 8
  | 3 => (s.rawExpectedUpdates 0).extractLsb' 16 8
  | 4 => (s.rawExpectedUpdates 0).extractLsb' 8 8
  | 5 => (s.rawExpectedUpdates 0).extractLsb' 0 8
  | _ => 0

/-- The RAM contents after the edge: the host's byte lanes are written to every copy. -/
def ramStep (input : TestMonitorIn N) (i : Fin (N + 1)) : ExpupdRam :=
  Function.update (s.expectedUpdatesRam i) input.expupdWriteAddr
    (writeLanes 6 input.expupdWenMask.getLsbD input.expupdWriteValue48
      (s.expectedUpdatesRam i input.expupdWriteAddr))

/-- Each copy takes the same write, so one RAM models all of them. -/
theorem ramStep_copies (input : TestMonitorIn N) (i j : Fin (N + 1)) :
    s.ramStep input i = s.ramStep input j := by
  unfold ramStep
  rw [s.copies i j]

/-- `num_exp_updates` after an edge without `reset`. -/
def numExpUpdatesStep (input : TestMonitorIn N) : ExpupdAddr :=
  (if input.numExpUpdatesWeMask.getLsbD 1 then input.numExpUpdates.extractLsb' 8 1
    else s.numExpUpdates.extractLsb' 8 1) ++
  (if input.numExpUpdatesWeMask.getLsbD 0 then input.numExpUpdates.extractLsb' 0 8
    else s.numExpUpdates.extractLsb' 0 8)

/-- `max_wait_time` after an edge without `reset`. -/
def maxWaitTimeStep (input : TestMonitorIn N) : BitVec 16 :=
  (if input.maxWaitTimeWeMask.getLsbD 1 then input.maxWaitTime.extractLsb' 8 8
    else s.maxWaitTime.extractLsb' 8 8) ++
  (if input.maxWaitTimeWeMask.getLsbD 0 then input.maxWaitTime.extractLsb' 0 8
    else s.maxWaitTime.extractLsb' 0 8)

/-- The registered outputs after an edge without `reset` and without `test_reset`: the
status and the report of this cycle, unless an earlier cycle has already had a verdict. -/
def outputStep : TestMonitorOut :=
  if s.testWasDone then s.output
  else
    { testStatus := s.testStatus.code
      testCycleCount := BitVec.ofNat 16 s.testCycleCounter
      unmatchedExpected := s.checkOut.unmatchedExpected
      badActual := s.checkOut.badActual }

/-- One rising edge. -/
def step (input : TestMonitorIn N) : TestMonitorState N :=
  if input.reset then
    -- The RAMs have no reset, and the sampled inputs keep their values.
    { s with
      expectedUpdatesRam := s.ramStep input
      copies := s.ramStep_copies input
      rawExpectedUpdates := fun i => s.expectedUpdatesRam i (s.expupdReadAddr input i)
      curExpUpdate := 0
      shouldBeDone := false
      testWasDone := false
      testCycleCounter := 0
      idleWaitTimer := 0
      maxWaitTime := 0
      numExpUpdates := 0
      output := ⟨0, 0, .zero, .zero⟩ }
  else
    { expectedUpdatesRam := s.ramStep input
      copies := s.ramStep_copies input
      rawExpectedUpdates := fun i => s.expectedUpdatesRam i (s.expupdReadAddr input i)
      actualUpdatesReg := input.updates
      updateWesReg := input.updateWes
      procEnableReg := input.procEnable
      numExpUpdates := s.numExpUpdatesStep input
      maxWaitTime := s.maxWaitTimeStep input
      -- A configuration write starts the test over.
      curExpUpdate := if input.testReset then 0 else s.nextExpUpdate
      shouldBeDone :=
        if input.testReset then false
        else s.shouldBeDone || decide (s.nextExpUpdate ≥ s.numExpUpdates)
      testWasDone := if input.testReset then false else s.testWasDone || s.testDone
      testCycleCounter :=
        if input.testReset then 0
        else if s.testRunning then s.testCycleCounter + 1 else s.testCycleCounter
      idleWaitTimer :=
        if input.testReset then 0
        else if s.shouldBeDone && s.testRunning then s.idleWaitTimer + 1 else s.idleWaitTimer
      output :=
        if input.testReset then { s.output with testStatus := 0, testCycleCount := 0 }
        else s.outputStep }

end TestMonitorState

end VivadoTest.Framework
