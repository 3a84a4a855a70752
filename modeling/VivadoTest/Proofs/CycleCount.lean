import VivadoTest.Proofs.VerdictTime
import VivadoTest.Spec.Trace

/-!
# `VivadoTest.Proofs.CycleCount`: the cycle count that the host reads

The monitor counts the enabled cycles of a test without bound, and latches the low sixteen bits of
the count with the verdict (`latched_of_verdict`). The count is right as long as it fits. It runs on
for a hundred cycles after the last expected update, which the timeout does not cover
(`Armed.testCycleCounter_le`), so a timeout near the top of its range lets it overflow.

* `Board.countsTruly_iff`: the timeouts with which no run makes the count wrong.
* `not_countsTruly_lateBoard`: for every other timeout, a test that is completed in the last cycle.

## The late test

`lateWriter` makes its `n` updates in the last cycles in which they are still in time, one in each,
so that the list is complete at the end of cycle `T`. The monitor then waits for a hundred cycles,
and latches a count that is larger than the timeout (`tracks_lateRun`). From `T = 65435` on the
count needs a seventeenth bit, which the register of the host does not have.

The bound of the other direction is `Armed.testCycleCounter_le`: with at least one expected update
no test is longer than that, and without any the waiting starts at once.
-/

set_option autoImplicit false

namespace VivadoTest.Framework

open VivadoTest.Lib VivadoTest.Host VivadoTest.Spec

variable {N : Nat}

/-! ### The count of the monitor -/

namespace TestMonitorState

/-- A monitor that waits from the start counts the waiting cycles only. -/
structure Waits (s : TestMonitorState N) : Prop where
  shouldBeDone : s.shouldBeDone = true
  testCycleCounter : s.testCycleCounter = s.idleWaitTimer

/-- A monitor that has nothing to wait for counts cycles and idle cycles alike. -/
theorem Waits.step {s : TestMonitorState N} (h : s.Waits) {input : TestMonitorIn N}
    (hi : input.reset = false ∧ input.testReset = false) : (s.step input).Waits := by
  rw [s.step_of_not_testReset hi.1 hi.2]
  constructor
  · simp [h.shouldBeDone]
  · simp [h.shouldBeDone, h.testCycleCounter]

/-- Before the first enabled cycle no count has gone over its bound. -/
theorem Armed.bounded {s : TestMonitorState N} (h : s.Armed) : s.Bounded := by
  refine ⟨?_, ?_, ?_, ?_⟩
  · simp [h.idleWaitTimer]
  · simp [h.idleWaitTimer]
  · simp [h.testCycleCounter]
  · simp [h.testWasDone]

/-- How far a run counts. Without expected updates the waiting starts at once. -/
theorem Armed.testCycleCounter_le {s : TestMonitorState N} (h : s.Armed)
    {ins : List (TestMonitorIn N)} (hins : NoRestart ins) :
    (ins.foldl step s).testCycleCounter ≤ s.maxWaitTime.toNat + 101 ∧
      (s.numExpUpdates = 0 → (ins.foldl step s).testCycleCounter ≤ 100) := by
  have hend : (ins.foldl step s).Bounded :=
    foldl_invariant_of_step (fun _ input hs => hs.step input) ins h.bounded
  have hidle := hend.idleWaitTimer
  constructor
  · have hcount := hend.testCycleCounter
    rw [maxWaitTime_foldl hins] at hcount
    omega
  · intro hn
    have hstart : s.Waits := by
      constructor
      · rw [h.shouldBeDone_eq, hn]
        rfl
      · rw [h.testCycleCounter, h.idleWaitTimer]
    have hwaits : (ins.foldl step s).Waits :=
      foldl_invariant (fun _ _ hi hs => hs.step hi) hins hstart
    rw [hwaits.testCycleCounter]
    exact hidle

/-- A monitor without a verdict has counted the enabled cycles before the one that it judges: its
register of the enable is one cycle late. -/
theorem Armed.testCycleCounter_eq {s : TestMonitorState N} (h : s.Armed)
    {earlier : List (TestMonitorIn N)} {judged : TestMonitorIn N}
    (hins : NoRestart (earlier ++ [judged]))
    (hpending : ((earlier ++ [judged]).foldl step s).testWasDone = false) :
    ((earlier ++ [judged]).foldl step s).testCycleCounter
      = earlier.countP fun i => i.procEnable := by
  have hcount := (counter_or_verdict hins s).resolve_left
    (by rw [hpending]; exact Bool.false_ne_true)
  have hcycles := countP_procEnable_le hins s
  have hjudged := hins judged (by simp)
  have hreg : ((earlier ++ [judged]).foldl step s).procEnableReg = judged.procEnable := by
    rw [List.foldl_append, List.foldl_cons, List.foldl_nil,
      step_of_not_testReset _ hjudged.1 hjudged.2]
  rw [hreg, h.procEnableReg, List.countP_append, List.countP_singleton] at hcycles
  rw [hcount, h.testCycleCounter]
  simp only [Bool.false_eq_true, if_false] at hcycles
  omega

end TestMonitorState

/-! ### Runs of the board -/

namespace Board

/-- The inputs of the monitor in a run of the board. -/
def monitorIns (b : Board N) : List (BoardIn N) → List (TestMonitorIn N)
  | [] => []
  | input :: ins => b.testMonitorIn input :: (b.step input).monitorIns ins

/-- The number of cycles of the run in which the processor is enabled. -/
def enabledCycles (b : Board N) : List (BoardIn N) → Nat
  | [] => 0
  | input :: ins => (if b.processorEnable then 1 else 0) + (b.step input).enabledCycles ins

/-- The monitor of a board runs on the inputs that the board gives it. -/
theorem testMonitor_foldl (b : Board N) (ins : List (BoardIn N)) :
    (ins.foldl step b).testMonitor
      = (b.monitorIns ins).foldl TestMonitorState.step b.testMonitor := by
  induction ins generalizing b with
  | nil => rfl
  | cons input ins ih => exact ih (b.step input)

/-- These inputs, with one cycle more. -/
theorem monitorIns_concat (b : Board N) (ins : List (BoardIn N)) (input : BoardIn N) :
    b.monitorIns (ins ++ [input])
      = b.monitorIns ins ++ [(ins.foldl step b).testMonitorIn input] := by
  induction ins generalizing b with
  | nil => rfl
  | cons first ins ih => exact congrArg (b.testMonitorIn first :: ·) (ih (b.step first))

/-- The monitor is enabled in the cycles in which the processor is. -/
theorem countP_monitorIns (b : Board N) (ins : List (BoardIn N)) :
    ((b.monitorIns ins).countP fun i => i.procEnable) = b.enabledCycles ins := by
  induction ins generalizing b with
  | nil => rfl
  | cons input ins ih =>
    rw [monitorIns, List.countP_cons, ih, enabledCycles, Nat.add_comm]
    rfl

/-- The enabled cycles of a run, with one cycle more. -/
theorem enabledCycles_concat (b : Board N) (ins : List (BoardIn N)) (input : BoardIn N) :
    b.enabledCycles (ins ++ [input])
      = b.enabledCycles ins + if (ins.foldl step b).processorEnable then 1 else 0 := by
  induction ins generalizing b with
  | nil => exact Nat.add_comm _ _
  | cons first ins ih =>
    rw [List.cons_append, enabledCycles, ih, enabledCycles, List.foldl_cons, Nat.add_assoc]

/-- A run in which the host does not restart the test does not restart the monitor. -/
theorem noRestart_monitorIns (b : Board N) {ins : List (BoardIn N)}
    (h : ∀ i ∈ ins, i.KeepsVerdict) : TestMonitorState.NoRestart (b.monitorIns ins) := by
  induction ins generalizing b with
  | nil => simp [monitorIns, TestMonitorState.NoRestart]
  | cons input ins ih =>
    have hinput := h input List.mem_cons_self
    intro i hi
    rcases List.mem_cons.mp hi with rfl | hi
    · exact ⟨hinput.reset, hinput.testReset b⟩
    · exact ih (b.step input) (fun x hx => h x (List.mem_cons_of_mem input hx)) i hi

/-- In every run that is not restarted, the count that the verdict latches, and that the host reads
whenever it asks, is the number of enabled cycles before the one that gets the verdict. -/
def CountsTruly (b : Board N) : Prop :=
  ∀ (earlier : List (BoardIn N)) (judged decided : BoardIn N) (later : List (BoardIn N)),
    (∀ i ∈ earlier ++ judged :: decided :: later, i.KeepsVerdict) →
    (earlier.foldl step b).testMonitor.testDone = false →
    ((earlier ++ [judged]).foldl step b).testMonitor.testDone = true →
    ((earlier ++ judged :: decided :: later).foldl step b).testMonitor.output.testCycleCount.toNat
        = b.enabledCycles earlier ∧
      ∀ line : SerialLine N, line.board = (earlier ++ judged :: decided :: later).foldl step b →
        line.parser.mainSm = .mainIdle → 2 ≤ line.sessions.length →
        (∀ session ∈ line.sessions, ∀ i ∈ session.wait, i.KeepsVerdict) →
        ∃ line', (HostcommProxy.readCycleCount SerialLine.readByte).run line
          = some (b.enabledCycles earlier, line')

section
variable {b : Board N} {earlier later : List (BoardIn N)} {judged decided : BoardIn N}

/-- The counter of a board without a verdict. -/
theorem testCycleCounter_eq (harmed : b.testMonitor.Armed)
    (hins : ∀ i ∈ earlier ++ [judged], i.KeepsVerdict)
    (hpending : ((earlier ++ [judged]).foldl step b).testMonitor.testWasDone = false) :
    ((earlier ++ [judged]).foldl step b).testMonitor.testCycleCounter
      = b.enabledCycles earlier := by
  have hrestart := b.noRestart_monitorIns hins
  rw [testMonitor_foldl, monitorIns_concat] at hpending ⊢
  rw [monitorIns_concat] at hrestart
  rw [harmed.testCycleCounter_eq hrestart hpending, countP_monitorIns]

/-- It fits into sixteen bits when the timeout leaves room for the waiting. -/
theorem enabledCycles_lt (harmed : b.testMonitor.Armed)
    (hins : ∀ i ∈ earlier ++ [judged], i.KeepsVerdict)
    (hpending : ((earlier ++ [judged]).foldl step b).testMonitor.testWasDone = false)
    (hrange : b.testMonitor.numExpUpdates = 0 ∨ b.testMonitor.maxWaitTime.toNat ≤ 65434) :
    b.enabledCycles earlier < 65536 := by
  have hcount := testCycleCounter_eq harmed hins hpending
  rw [testMonitor_foldl] at hcount
  obtain ⟨htime, hempty⟩ := harmed.testCycleCounter_le (b.noRestart_monitorIns hins)
  rcases hrange with hn | hT
  · have := hempty hn
    omega
  · omega

/-- A verdict that is decided is not latched yet. -/
theorem testWasDone_of_pending (hjudged : judged.KeepsVerdict)
    (hpending : (earlier.foldl step b).testMonitor.testDone = false) :
    ((earlier ++ [judged]).foldl step b).testMonitor.testWasDone = false := by
  rw [List.foldl_append, List.foldl_cons, List.foldl_nil]
  show (TestMonitorState.step _ _).testWasDone = false
  rw [TestMonitorState.step_of_not_testReset _ hjudged.reset (hjudged.testReset _)]
  show (_ || _) = false
  rw [hpending, (Bool.or_eq_false_iff.mp hpending).2]
  rfl

/-- The verdict latches the low bits of the count of the enabled cycles. -/
theorem latched_of_verdict (harmed : b.testMonitor.Armed)
    (hins : ∀ i ∈ earlier ++ judged :: decided :: later, i.KeepsVerdict)
    (hpending : (earlier.foldl step b).testMonitor.testDone = false)
    (hdone : ((earlier ++ [judged]).foldl step b).testMonitor.testDone = true) :
    ∃ o : TestMonitorOut, o.testCycleCount = BitVec.ofNat 16 (b.enabledCycles earlier) ∧
      ((earlier ++ judged :: decided :: later).foldl step b).testMonitor.Latched o := by
  have hdecided := hins decided (by simp)
  have hbefore : ∀ i ∈ earlier ++ [judged], i.KeepsVerdict := fun i hi => hins i (by
    rcases List.mem_append.mp hi with hi | hi
    · exact List.mem_append_left _ hi
    · simp [List.mem_singleton.mp hi])
  have hlater : ∀ i ∈ later, i.KeepsVerdict := fun i hi => hins i (by simp [hi])
  have hwas := testWasDone_of_pending (hins judged (by simp)) hpending
  have hcount := testCycleCounter_eq harmed hbefore hwas
  -- The status is about the cycle before, so the cycle `decided` latches what `judged` has led to.
  have hsplit : (earlier ++ judged :: decided :: later).foldl step b
      = later.foldl step (((earlier ++ [judged]).foldl step b).step decided) := by
    simp [List.foldl_append]
  rw [hsplit]
  generalize (earlier ++ [judged]).foldl step b = b' at hdone hwas hcount
  refine ⟨(b'.step decided).testMonitor.output, ?_, latched_foldl ⟨?_, rfl⟩ hlater⟩
  -- the count of the cycle before the verdict is shown with it
  · show (b'.testMonitor.step (b'.testMonitorIn decided)).output.testCycleCount = _
    rw [TestMonitorState.step_of_not_testReset _ hdecided.reset (hdecided.testReset b')]
    show b'.testMonitor.outputStep.testCycleCount = _
    unfold TestMonitorState.outputStep
    rw [if_neg (by rw [hwas]; exact Bool.false_ne_true), hcount]
  · show (b'.testMonitor.step (b'.testMonitorIn decided)).testWasDone = true
    rw [TestMonitorState.step_of_not_testReset _ hdecided.reset (hdecided.testReset b')]
    show (_ || _) = true
    rw [hdone, Bool.or_true]

end

/-- The two bytes of the cycle count on the bus. -/
theorem regReadData_testCycleCount (b : Board N) (next : BoardIn N) :
    (next.bus.regAddress = 0x03 →
      b.regReadData next = b.testMonitor.output.testCycleCount.extractLsb' 8 8) ∧
    (next.bus.regAddress = 0x04 →
      b.regReadData next = b.testMonitor.output.testCycleCount.extractLsb' 0 8) := by
  have hmux : ∀ address : BitVec 16, next.bus.regAddress = address →
      b.regReadData next
        = b.hostComm.regReadData (b.hostCommIn next) { next.bus with regAddress := address } := by
    rintro _ rfl
    rfl
  constructor <;>
  · intro h
    rw [hmux _ h]
    simp only [HostComm.regReadData, HostBus.isAccessToRf, HostBus.isAccessToExpupd,
      decide_eq_true_eq]
    -- none of the memories
    rw [if_neg (by decide), if_neg (by decide), if_neg (by decide), if_neg (by decide)]
    rfl

end Board

end VivadoTest.Framework

namespace VivadoTest.Host

open VivadoTest.Lib VivadoTest.Framework

variable {N : Nat}

/-- The two reads of the cycle count. -/
theorem SerialLine.readCycleCount_returns (o : TestMonitorOut) :
    Returns (SerialLine.Ready (N := N) o) 2 (HostcommProxy.readCycleCount SerialLine.readByte)
      o.testCycleCount.toNat := by
  have hbytes : o.testCycleCount.toNat = (o.testCycleCount.extractLsb' 0 8).toNat
      + (o.testCycleCount.extractLsb' 8 8).toNat <<< 8 := by
    have hlt := o.testCycleCount.isLt
    rw [BitVec.extractLsb'_toNat, BitVec.extractLsb'_toNat, Nat.shiftLeft_eq,
      Nat.shiftRight_eq_div_pow, Nat.shiftRight_eq_div_pow]
    omega
  rw [hbytes]
  unfold HostcommProxy.readCycleCount
  refine (readByte_returns o 3 (fun o => o.testCycleCount.extractLsb' 8 8)
    fun b next => (b.regReadData_testCycleCount next).1).bind ?_
  refine (readByte_returns o 4 (fun o => o.testCycleCount.extractLsb' 0 8)
    fun b next => (b.regReadData_testCycleCount next).2).bind ?_
  exact Returns.pure _ _

end VivadoTest.Host

namespace VivadoTest.Framework

open VivadoTest.Lib VivadoTest.Host VivadoTest.Spec

variable {N : Nat}

/-- A board counts truly when no verdict comes after a count that does not fit. -/
theorem Board.countsTruly_of_lt {b : Board N} (harmed : b.testMonitor.Armed)
    (hrange : b.testMonitor.numExpUpdates = 0 ∨ b.testMonitor.maxWaitTime.toNat ≤ 65434) :
    b.CountsTruly := by
  intro earlier judged decided later hins hpending hdone
  have hbefore : ∀ i ∈ earlier ++ [judged], i.KeepsVerdict := fun i hi => hins i (by
    rcases List.mem_append.mp hi with hi | hi
    · exact List.mem_append_left _ hi
    · simp [List.mem_singleton.mp hi])
  have hlt := enabledCycles_lt harmed hbefore
    (testWasDone_of_pending (hins judged (by simp)) hpending) hrange
  obtain ⟨o, hcount, hlatched⟩ := latched_of_verdict harmed hins hpending hdone
  have hvalue : o.testCycleCount.toNat = b.enabledCycles earlier := by
    rw [hcount, BitVec.toNat_ofNat, Nat.mod_eq_of_lt hlt]
  refine ⟨by rw [hlatched.output, hvalue], ?_⟩
  rintro ⟨board, parser, sessions⟩ rfl hidle hlength hwaits
  obtain ⟨line', hread, -⟩ := SerialLine.readCycleCount_returns o 0 _
    ⟨hlatched, hidle, hwaits, by simpa using hlength⟩
  exact ⟨line', by rw [hread, hvalue]⟩

/-! ### A test that is completed late -/

/-- A processor that writes data memory word 0 in the last `n` of the first `T + 1` cycles. -/
def lateWriter (n T t : Nat) : ProcOut N :=
  ⟨0, 0, 0, decide (T < t + n ∧ t ≤ T), fun _ => ⟨0, false, 0⟩⟩

/-- What a late writer does in a cycle. -/
def lateActivity (n T t : Nat) : Activity N := .ofProc true (lateWriter n T t)

/-- The writer makes its updates in the last cycles before the timeout, one in each. -/
theorem group_lateActivity (n T t : Nat) :
    (lateActivity n T t : Activity N).group
      = if T < t + n ∧ t ≤ T then {⟨.dmemUpdate, 0, 0⟩} else 0 := by
  unfold lateActivity
  rw [Activity.group_ofProc]
  simp [lateWriter]

/-- So one update is counted in each of these cycles. -/
theorem count_lateActivity (n T t : Nat) :
    (lateActivity n T t : Activity N).count = if T < t + n ∧ t ≤ T then 1 else 0 := by
  rw [← Activity.card_group, group_lateActivity]
  split <;> rfl

section
variable {n T : Nat}

/-- Every cycle of it is enabled. -/
theorem enabledBefore_lateActivity (t : Nat) :
    enabledBefore (lateActivity n T : Nat → Activity N) t = t := by
  induction t with
  | zero => rfl
  | succ t ih =>
    rw [enabledBefore, ih]
    rfl

/-- It makes its updates in time. -/
theorem updatesBefore_lateActivity (hnT : n ≤ T + 1) (t : Nat) :
    updatesBefore (lateActivity n T : Nat → Activity N) t = min (t - (T + 1 - n)) n := by
  induction t with
  | zero => simp [updatesBefore]
  | succ t ih =>
    have hen : (lateActivity n T t : Activity N).procEnable = true := rfl
    rw [updatesBefore, ih, if_pos hen, count_lateActivity]
    split <;> omega

/-- The last of them is the one of cycle `T`. -/
theorem idleBefore_lateActivity (hn : 0 < n) (hnT : n ≤ T + 1) (t : Nat) :
    idleBefore (lateActivity n T : Nat → Activity N) n t = t - (T + 1) := by
  induction t with
  | zero => simp [idleBefore]
  | succ t ih =>
    have hen : (lateActivity n T t : Activity N).procEnable = true := rfl
    rw [idleBefore, ih, hen, updatesBefore_lateActivity hnT, Bool.and_true]
    by_cases ht : T + 1 ≤ t
    · rw [decide_eq_true (by omega)]
      show t - (T + 1) + 1 = _
      omega
    · rw [decide_eq_false (by omega)]
      show t - (T + 1) + 0 = _
      omega

/-- No cycle up to the end of the waiting gives a verdict. -/
theorem passes_lateActivity (hn : 0 < n) (hnT : n ≤ T + 1) {t : Nat} (ht : t ≤ T + 100) :
    Passes (fun _ => ⟨.dmemUpdate, 0, 0⟩) n T (lateActivity n T : Nat → Activity N) t := by
  have hupdates := updatesBefore_lateActivity (N := N) hnT t
  refine ⟨?_, ?_, ?_, ?_, ?_⟩
  · rw [idleBefore_lateActivity hn hnT]
    omega
  · rw [hupdates, enabledBefore_lateActivity]
    omega
  · rw [hupdates, count_lateActivity]
    have hen : (lateActivity n T t : Activity N).procEnable = true := rfl
    by_cases hwrite : T < t + n ∧ t ≤ T
    · exact Or.inr ⟨hen, by omega⟩
    · exact Or.inl (if_neg hwrite)
  · rw [group_lateActivity, count_lateActivity]
    split <;> rfl
  · rw [hupdates, count_lateActivity]
    split <;> omega

end

/-- A board that expects `n` writes of data memory word 0 and has its processor enabled. -/
def lateBoard (n : ExpupdAddr) (T : BitVec 16) : Board N :=
  { (Board.blank : Board N) with
    hostComm := { (Board.blank : Board N).hostComm with procEnableSignal := true }
    testMonitor := .configured (fun _ => 1 <<< 42) n T }

/-- A cycle of the test, which the host leaves alone. -/
def lateInput (n T t : Nat) : BoardIn N := ⟨false, .idle 0, lateWriter n T t⟩

/-- The host leaves the test alone. -/
theorem lateInput_keepsVerdict (n T t : Nat) : (lateInput n T t : BoardIn N).KeepsVerdict :=
  BoardIn.Silent.keepsVerdict ⟨rfl, rfl⟩

section
variable (n : ExpupdAddr) (T : BitVec 16)

/-- The board after `t` cycles of the test. -/
def lateRun (t : Nat) : Board N :=
  trajectory Board.step (lateBoard n T) (lateInput n.toNat T.toNat) t

/-- The processor stays enabled. -/
theorem processorEnable_lateRun (t : Nat) : (lateRun n T t : Board N).processorEnable = true := by
  have hstep : ∀ (b : Board N) (i : BoardIn N), (∃ u, i = lateInput n.toNat T.toNat u) →
      b.processorEnable = true → (b.step i).processorEnable = true := by
    rintro b _ ⟨u, rfl⟩ hb
    show (HostComm.step _ false (.idle 0)).procEnableSignal = true
    rw [← hb]
    rfl
  exact trajectory_invariant hstep (fun u => ⟨u, rfl⟩) rfl t

/-- The first `t` cycles of the test as a fold over their inputs. -/
theorem foldl_lateInput (t : Nat) :
    ((List.range t).map (lateInput n.toNat T.toNat)).foldl Board.step (lateBoard n T : Board N)
      = lateRun n T t := by
  induction t with
  | zero => rfl
  | succ t ih =>
    rw [List.range_succ, List.map_append, List.foldl_append, ih]
    rfl

/-- All of them are enabled cycles. -/
theorem enabledCycles_lateInput (t : Nat) :
    (lateBoard n T : Board N).enabledCycles ((List.range t).map (lateInput n.toNat T.toNat))
      = t := by
  induction t with
  | zero => rfl
  | succ t ih =>
    rw [List.range_succ, List.map_append, List.map_singleton, Board.enabledCycles_concat, ih,
      foldl_lateInput, processorEnable_lateRun]
    rfl

/-- The inputs of the monitor. -/
def lateMonitorIn (t : Nat) : TestMonitorIn N :=
  (lateRun n T t).testMonitorIn (lateInput n.toNat T.toNat t)

/-- The monitor of this board is a configured monitor on the activity of the writer. -/
theorem testMonitor_lateRun (t : Nat) :
    (lateRun n T t : Board N).testMonitor
      = trajectory TestMonitorState.step (.configured (fun _ => 1 <<< 42) n T)
          (lateMonitorIn n T) t := by
  induction t with
  | zero => rfl
  | succ t ih =>
    rw [trajectory_succ, ← ih]
    rfl

/-- The monitor judges the late updates, and has its verdict after the waiting. -/
theorem tracks_lateRun (hn : n ≠ 0) (hT : n.toNat ≤ T.toNat + 1) {t : Nat}
    (ht : t ≤ T.toNat + 101) :
    (lateRun n T (t + 1) : Board N).testMonitor.Tracks (fun _ => 1 <<< 42) n T
      (.pending (progressAt n.toNat (lateActivity n.toNat T.toNat : Nat → Activity N) t)) := by
  obtain ⟨hram, hnum, htime⟩ := TestMonitorState.configured_config (N := N) (fun _ => 1 <<< 42) n T
  have hinput : ∀ t, (lateMonitorIn n T t : TestMonitorIn N).NoHostAccess := fun t =>
    ⟨rfl, (lateInput_keepsVerdict _ _ t).testReset _, rfl⟩
  have hactivity : (fun t => (lateMonitorIn n T t : TestMonitorIn N).activity)
      = lateActivity n.toNat T.toNat := by
    funext t
    unfold lateActivity Activity.ofProc
    rw [← processorEnable_lateRun n T t]
    rfl
  -- The run lemma of the monitor, with the list and the activity of this test put in.
  have htracks := TestMonitorState.tracks_trajectory
    (TestMonitorState.configured_afterConfiguration (N := N) (fun _ => 1 <<< 42) n T) hinput t
  rw [hram, hnum, htime, hactivity, ← testMonitor_lateRun] at htracks
  have hentry : listOf (fun k => decodeUpdate ((fun _ => 1 <<< 42 : ExpupdRam) k))
      = fun _ => ⟨.dmemUpdate, 0, 0⟩ := by
    funext k
    show decodeUpdate (1 <<< 42) = _
    decide
  have hpos : 0 < n.toNat := Nat.pos_of_ne_zero fun h => hn (BitVec.eq_of_toNat_eq h)
  -- No cycle up to `t` gives a verdict, so the judgement is the progress of the trace.
  have hpasses : ∀ u < t, Passes (listOf fun k => decodeUpdate ((fun _ => 1 <<< 42 : ExpupdRam) k))
      n.toNat T.toNat (lateActivity n.toNat T.toNat : Nat → Activity N) u := by
    intro u hu
    rw [hentry]
    exact passes_lateActivity hpos hT (by omega)
  rwa [TestMonitorState.judgementRam, judgement_of_passes hpasses] at htracks

/-- In such a test the count does not fit. -/
theorem not_countsTruly_lateBoard (hn : n ≠ 0) (hT : 65434 < T.toNat) :
    ¬ (lateBoard n T : Board N).CountsTruly := by
  intro h
  have hnT : n.toNat ≤ T.toNat + 1 := by have := n.isLt; omega
  have hpos : 0 < n.toNat := Nat.pos_of_ne_zero fun h => hn (BitVec.eq_of_toNat_eq h)
  obtain ⟨-, -, -, hprogress⟩ := tracks_lateRun (N := N) n T hn hnT le_rfl
  -- the cycle `T + 101` ends the waiting, the one before it does not
  have hpending : (lateRun n T (T.toNat + 101) : Board N).testMonitor.testDone = false := by
    have hwas := hprogress.testWasDone
    have hkeeps := lateInput_keepsVerdict (N := N) n.toNat T.toNat (T.toNat + 101)
    change (TestMonitorState.step _ _).testWasDone = false at hwas
    rw [TestMonitorState.step_of_not_testReset _ rfl (hkeeps.testReset _)] at hwas
    exact (Bool.or_eq_false_iff.mp hwas).2
  have hdone : (lateRun n T (T.toNat + 101 + 1) : Board N).testMonitor.testDone = true := by
    have hidle : (lateRun n T (T.toNat + 101 + 1) : Board N).testMonitor.idleWaitTimer = 100 := by
      rw [hprogress.idleWaitTimer]
      show idleBefore _ n.toNat (T.toNat + 101) = 100
      rw [idleBefore_lateActivity hpos hnT]
      omega
    unfold TestMonitorState.testDone TestMonitorState.testStatus
    rw [if_pos (by omega)]
    rfl
  have hrange : (List.range (T.toNat + 101 + 1)).map (lateInput n.toNat T.toNat : Nat → BoardIn N)
      = (List.range (T.toNat + 101)).map (lateInput n.toNat T.toNat)
        ++ [lateInput n.toNat T.toNat (T.toNat + 101)] := by
    rw [List.range_succ, List.map_append, List.map_singleton]
  -- The count of such a test is `T + 101`, which does not fit.
  have hcount := (h ((List.range (T.toNat + 101)).map (lateInput n.toNat T.toNat))
    (lateInput n.toNat T.toNat (T.toNat + 101)) (lateInput n.toNat T.toNat (T.toNat + 102)) []
    ?_ ?_ ?_).1
  · rw [enabledCycles_lateInput] at hcount
    have hfits := BitVec.isLt (((List.range (T.toNat + 101)).map (lateInput n.toNat T.toNat)
      ++ [lateInput n.toNat T.toNat (T.toNat + 101),
        lateInput n.toNat T.toNat (T.toNat + 102)]).foldl
        Board.step (lateBoard n T : Board N)).testMonitor.output.testCycleCount
    rw [hcount] at hfits
    omega
  · intro i hi
    rcases List.mem_append.mp hi with hi | hi
    · obtain ⟨t, -, rfl⟩ := List.mem_map.mp hi
      exact lateInput_keepsVerdict _ _ t
    · simp only [List.mem_cons, List.not_mem_nil, or_false] at hi
      rcases hi with rfl | rfl <;> exact lateInput_keepsVerdict _ _ _
  · rw [foldl_lateInput]
    exact hpending
  · rw [← hrange, foldl_lateInput]
    exact hdone

end

/-- For every number of expected updates and every timeout: in every run of every board that is
configured with them the cycle count is the true one, exactly when there is nothing to wait for or
the timeout leaves room for the hundred cycles of the waiting. -/
theorem Board.countsTruly_iff (n : ExpupdAddr) (T : BitVec 16) :
    (∀ b : Board N, b.testMonitor.AfterConfiguration → b.testMonitor.numExpUpdates = n →
      b.testMonitor.maxWaitTime = T → b.CountsTruly) ↔ n = 0 ∨ T.toNat ≤ 65434 := by
  constructor
  · intro h
    by_contra hrange
    rw [not_or, not_le] at hrange
    obtain ⟨-, hconfigured, htime⟩ :=
      TestMonitorState.configured_config (N := N) (fun _ => 1 <<< 42) n T
    exact not_countsTruly_lateBoard n T hrange.1 hrange.2
      (h (lateBoard n T) (TestMonitorState.configured_afterConfiguration _ n T) hconfigured htime)
  · rintro hrange b hb rfl rfl
    exact countsTruly_of_lt hb.armed hrange

/-- A single update in the last cycle before a timeout of 65535. -/
theorem not_countsTruly :
    (lateBoard 1 65535 : Board RF_NUM_WRITE_PORTS).testMonitor.AfterConfiguration ∧
      ¬ (lateBoard 1 65535 : Board RF_NUM_WRITE_PORTS).CountsTruly :=
  ⟨TestMonitorState.configured_afterConfiguration _ 1 65535,
    not_countsTruly_lateBoard 1 65535 (by decide) (by decide)⟩

end VivadoTest.Framework
