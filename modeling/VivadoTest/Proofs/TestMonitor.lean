import VivadoTest.Framework.TestMonitor
import VivadoTest.Proofs.TestChecks
import VivadoTest.Spec.Trace

/-!
# `VivadoTest.Proofs.TestMonitor`: the test monitor refines the abstract one

`Tracks` relates a `Judgement` of the abstract monitor to a state of `TestMonitor` whose
input registers hold the activity that the abstract monitor sees next. The hardware is one
cycle behind: the activity of cycle `t` is registered at its end, so the state after
`t + 1` cycles tracks the judgement on the first `t` activities.

* `Tracks.testStatus`: the combinational status is the verdict of `judge`.
* `Tracks.step`: one clock cycle without host access keeps the relation.
* `tracks_trajectory`: the relation along a run that follows a configuration
  (`AfterConfiguration`).

## What is abstracted

The abstract monitor has no ports, no check chain and no RAM latency. `checkChain_spec` takes the
first two out of the way: the chain decides whether the updates of a cycle are the next entries as
multisets, its active checks come first, and the address then advances by their number. The latency
is the reason for `lookahead` and `AtProgress`: a monitor without a verdict has in its latches the
entries that start at its position, because it addressed its RAMs from the position that it is
about to reach (`expupdReadAddr_of_not_read`).

## How the relation is kept

`step_of_not_testReset` says what one edge does to the configuration and to the RAMs, for any
inputs but those that restart the test. `Tracks.step` then has one case for each judgement: a
pending one, where the status of the cycle is compared with `judge` branch by branch
(`AtProgress.testStatus_eq`), and a decided one, which stays. The start is `Armed.tracks_step`:
what a configuration leaves (`AfterConfiguration`, whatever the board did before) needs one more
cycle to fill the latches.
-/

set_option autoImplicit false

namespace VivadoTest.Framework

open VivadoTest.Lib
open VivadoTest.Lib.GreedyMatch
open VivadoTest.Spec

variable {N : Nat}

/-- The processor activity among the inputs of a cycle. -/
def TestMonitorIn.activity (input : TestMonitorIn N) : Activity N :=
  ⟨input.procEnable, input.updates, input.updateWes⟩

/-- No reset, no configuration write, no read or write of the expected updates. -/
structure TestMonitorIn.NoHostAccess (input : TestMonitorIn N) : Prop where
  reset : input.reset = false
  testReset : input.testReset = false
  readExpUpdEn : input.readExpUpdEn = false

/-- The processor is disabled and makes no update. -/
structure TestMonitorIn.Quiet (input : TestMonitorIn N) : Prop where
  procEnable : input.procEnable = false
  updateWes : ∀ i, input.updateWes i = false

/-- A quiet cycle makes no updates. -/
theorem TestMonitorIn.Quiet.count {input : TestMonitorIn N} (h : input.Quiet) :
    input.activity.count = 0 := by
  simp [Activity.count, activity, ports, h.updateWes]

/-- The test is not reset when none of the five write enables is set. -/
theorem TestMonitorIn.testReset_eq_false_iff (input : TestMonitorIn N) :
    input.testReset = false ↔
      input.numExpUpdatesWeMask.getLsbD 0 = false ∧ input.numExpUpdatesWeMask.getLsbD 1 = false ∧
      input.expupdWe = false ∧
      input.maxWaitTimeWeMask.getLsbD 0 = false ∧ input.maxWaitTimeWeMask.getLsbD 1 = false := by
  unfold testReset
  simp only [Bool.or_eq_false_iff]
  tauto

namespace TestMonitorState

/-- The activity in the input registers. -/
def activityReg (s : TestMonitorState N) : Activity N :=
  ⟨s.procEnableReg, s.actualUpdatesReg, s.updateWesReg⟩

/-- The entries the latches hold, as a sequence that starts at the current entry. -/
theorem entry_checkIn (s : TestMonitorState N) {ram : ExpupdRam}
    (h : ∀ i, s.rawExpectedUpdates i = ram (s.curExpUpdate + BitVec.ofNat 9 i.val)) {k : Nat}
    (hk : k < N + 1) :
    s.checkIn.entry k = decodeUpdate (ram (s.curExpUpdate + BitVec.ofNat 9 k)) := by
  have hval := s.checkIn.entry_val ⟨k, hk⟩
  rw [hval]
  show decodeUpdate (s.rawExpectedUpdates ⟨k, hk⟩) = _
  rw [h]

/-- The lookahead of the latches, as a multiset. -/
theorem map_entry_checkIn (s : TestMonitorState N) {ram : ExpupdRam}
    (h : ∀ i, s.rawExpectedUpdates i = ram (s.curExpUpdate + BitVec.ofNat 9 i.val)) {k : Nat}
    (hk : k ≤ N + 1) :
    (Multiset.range k).map s.checkIn.entry
      = entries (fun a => decodeUpdate (ram a)) s.curExpUpdate k :=
  Multiset.map_congr rfl fun _ hi =>
    s.entry_checkIn h (lt_of_lt_of_le (Multiset.mem_range.mp hi) hk)

/-- The check chain looks at the registered updates. -/
theorem anyUpdate_checkIn (s : TestMonitorState N) :
    s.checkIn.anyUpdate = true ↔ s.activityReg.count ≠ 0 := by
  rw [TestChecksIn.anyUpdate_iff, ← Finset.card_pos, Nat.pos_iff_ne_zero]
  rfl

/-- It finds nothing unexpected exactly when the registered updates are the next entries of the
list, counted with their multiplicity. The latches are assumed to hold these entries. -/
theorem anyUnexpectedUpdate_checkIn (s : TestMonitorState N) {ram : ExpupdRam}
    (h : ∀ i, s.rawExpectedUpdates i = ram (s.curExpUpdate + BitVec.ofNat 9 i.val)) :
    s.checkIn.anyUnexpectedUpdate = false
      ↔ s.activityReg.group
          = entries (fun a => decodeUpdate (ram a)) s.curExpUpdate s.activityReg.count := by
  rw [TestChecksIn.anyUnexpectedUpdate_eq_false_iff, ← s.map_entry_checkIn h s.activityReg.count_le]
  rfl

/-- When nothing is unmatched, the address advances by the number of updates. -/
theorem nextExpUpdate_eq (s : TestMonitorState N)
    (h : s.checkIn.anyUnexpectedUpdate = false) :
    s.nextExpUpdate = s.curExpUpdate + BitVec.ofNat 9 s.activityReg.count := by
  have hfold := foldl_finRange_prefix (fun i => s.checkOut.isCheckActive i)
    (fun m => s.curExpUpdate + BitVec.ofNat 9 m) s.activityReg.count s.activityReg.count_le
    (s.checkIn.isCheckActive_iff_lt h)
  simp only [BitVec.add_zero] at hfold
  exact hfold

/-- The check chain decides equality as multisets, its active checks come first, and when nothing
is unmatched they are as many as the enabled updates, by which the address advances. -/
theorem checkChain_spec (input : TestChecksIn N) :
    ((∀ i, input.unmatchedExpected i = false)
      ↔ input.enabledActuals.Perm (input.expectedEntries.take input.enabledActuals.length)) ∧
    (∀ i j : Fin (N + 1), i ≤ j → (testChecks input).isCheckActive j = true →
      (testChecks input).isCheckActive i = true) ∧
    ((∀ i, input.unmatchedExpected i = false) →
      (ports (testChecks input).isCheckActive).card = input.enabledActuals.length ∧
      ∀ s : TestMonitorState N, s.checkIn = input →
        s.nextExpUpdate.toNat = (s.curExpUpdate.toNat + input.enabledActuals.length) % 512) := by
  refine ⟨input.unmatchedExpected_eq_false_iff, fun i j hij => input.isCheckActive_anti hij,
    fun h => ⟨input.card_isCheckActive h, ?_⟩⟩
  rintro s rfl
  have hnone : s.checkIn.anyUnexpectedUpdate = false := s.checkIn.anyUnexpectedUpdate_of_forall h
  rw [s.nextExpUpdate_eq hnone, BitVec.toNat_add, BitVec.toNat_ofNat,
    TestChecksIn.length_enabledActuals, Nat.add_mod_mod]
  rfl

/-- A cycle without updates activates no check. -/
theorem nextExpUpdate_of_count_eq_zero (s : TestMonitorState N)
    (h : s.activityReg.count = 0) : s.nextExpUpdate = s.curExpUpdate := by
  have hnone : s.checkIn.anyUnexpectedUpdate = false := by
    rw [TestChecksIn.anyUnexpectedUpdate_eq_false_iff]
    show s.activityReg.group = (Multiset.range s.activityReg.count).map _
    rw [h, s.activityReg.group_eq_zero_iff.mpr h]
    rfl
  rw [s.nextExpUpdate_eq hnone, h]
  exact BitVec.add_zero _

/-! ### The host's writes -/

/-- Without a write the RAMs stay as they are. -/
theorem ramStep_of_not_we (s : TestMonitorState N) {input : TestMonitorIn N}
    (h : input.expupdWe = false) (i : Fin (N + 1)) :
    s.ramStep input i = s.expectedUpdatesRam i := by
  unfold ramStep
  rw [writeLanes_of_forall_not, Function.update_eq_self]
  intro b _
  simp [TestMonitorIn.expupdWenMask, h]

/-- So does the number of expected updates. -/
theorem numExpUpdatesStep_of_not_we (s : TestMonitorState N) {input : TestMonitorIn N}
    (h0 : input.numExpUpdatesWeMask.getLsbD 0 = false)
    (h1 : input.numExpUpdatesWeMask.getLsbD 1 = false) :
    s.numExpUpdatesStep input = s.numExpUpdates := by
  unfold numExpUpdatesStep
  simp only [h0, h1, Bool.false_eq_true, if_false]
  exact (BitVec.extractLsb'_append_extractLsb'_eq_extractLsb' rfl).trans
    BitVec.extractLsb'_eq_self

/-- And the timeout. -/
theorem maxWaitTimeStep_of_not_we (s : TestMonitorState N) {input : TestMonitorIn N}
    (h0 : input.maxWaitTimeWeMask.getLsbD 0 = false)
    (h1 : input.maxWaitTimeWeMask.getLsbD 1 = false) :
    s.maxWaitTimeStep input = s.maxWaitTime := by
  unfold maxWaitTimeStep
  simp only [h0, h1, Bool.false_eq_true, if_false]
  exact (BitVec.extractLsb'_append_extractLsb'_eq_extractLsb' rfl).trans
    BitVec.extractLsb'_eq_self

/-- The RAM after an edge. The copies for the other write ports hold the same. -/
theorem expupdRam_step (s : TestMonitorState N) (input : TestMonitorIn N) :
    (s.step input).expupdRam = s.ramStep input 0 := by
  unfold step expupdRam
  split <;> rfl

/-- The number of expected updates after an edge without a reset. -/
theorem numExpUpdates_step (s : TestMonitorState N) (input : TestMonitorIn N)
    (h : input.reset = false) : (s.step input).numExpUpdates = s.numExpUpdatesStep input := by
  unfold step
  rw [if_neg (by rw [h]; exact Bool.false_ne_true)]

/-- The timeout after it. -/
theorem maxWaitTime_step (s : TestMonitorState N) (input : TestMonitorIn N)
    (h : input.reset = false) : (s.step input).maxWaitTime = s.maxWaitTimeStep input := by
  unfold step
  rw [if_neg (by rw [h]; exact Bool.false_ne_true)]

/-! ### The relation -/

/-- The control registers of a monitor without a verdict stand at the progress `p`, and
its latches hold the entries from there on. -/
structure AtProgress (ram : ExpupdRam) (p : Progress) (s : TestMonitorState N) : Prop where
  testWasDone : s.testWasDone = false
  curExpUpdate : s.curExpUpdate = p.pos
  shouldBeDone : s.shouldBeDone = p.listDone
  testCycleCounter : s.testCycleCounter = p.cycles
  idleWaitTimer : s.idleWaitTimer = p.idle
  raw : ∀ i, s.rawExpectedUpdates i = ram (p.pos + BitVec.ofNat 9 i.val)
  testStatus : s.output.testStatus = 0

/-- The entries from `pos` on, decoded. -/
def lookahead (ram : ExpupdRam) (pos : ExpupdAddr) (k : Nat) : ExpectedStateUpdate :=
  decodeUpdate (ram (pos + BitVec.ofNat 9 k))

/-- The failure report of the verdict `incorrectUpdate`: the first entry from `pos` on that
fails in the greedy matching against the activity `a`, and the update on the lowest port
left before it. -/
def Reports (ram : ExpupdRam) (pos : ExpupdAddr) (a : Activity N)
    (expected actual : ExpectedStateUpdate) : Prop :=
  ∃ (j : Nat) (h : FailsAt (ports a.updateWes) a.updates (lookahead ram pos) j),
    (∀ i < j, ¬ FailsAt (ports a.updateWes) a.updates (lookahead ram pos) i) ∧
    expected = lookahead ram pos j ∧
    actual = a.updates ((remaining (ports a.updateWes) a.updates (lookahead ram pos) j).min' h.1)

/-- The outputs of a monitor that has given the verdict `st` in a cycle with the progress
`p` before it and the activity `a`. -/
structure AtVerdict (ram : ExpupdRam) (st : TestStatus) (p : Progress) (a : Activity N)
    (s : TestMonitorState N) : Prop where
  testWasDone : s.testWasDone = true
  testStatus : s.output.testStatus = st.code
  testCycleCount : s.output.testCycleCount = BitVec.ofNat 16 p.cycles
  report : st = .incorrectUpdate →
    Reports ram p.pos a s.output.unmatchedExpected s.output.badActual

/-- The state tracks the judgement `j`, with the RAM contents `ram` and the configuration
`n` and `T`. -/
structure Tracks (ram : ExpupdRam) (n : ExpupdAddr) (T : BitVec 16) (j : Judgement N)
    (s : TestMonitorState N) : Prop where
  expupdRam : s.expupdRam = ram
  numExpUpdates : s.numExpUpdates = n
  maxWaitTime : s.maxWaitTime = T
  judged : match j with
    | .pending p => AtProgress ram p s
    | .decided st p a => AtVerdict ram st p a s

/-- The abstract monitor with the decoded RAM as its list. -/
abbrev judgeRam (ram : ExpupdRam) (n : ExpupdAddr) (T : BitVec 16) (p : Progress)
    (a : Activity N) : Judgement N :=
  judge (fun k => decodeUpdate (ram k)) n T.toNat p a

/-! ### One cycle -/

section
variable {ram : ExpupdRam} {n : ExpupdAddr} {T : BitVec 16} {p : Progress}
  {s : TestMonitorState N}

/-- A monitor that is in step with the list has the next entries in its latches. -/
theorem AtProgress.raw_cur (h : AtProgress ram p s) (i : Fin (N + 1)) :
    s.rawExpectedUpdates i = ram (s.curExpUpdate + BitVec.ofNat 9 i.val) := by
  rw [h.raw, h.curExpUpdate]

/-- The report of a failing cycle is the first failure of the greedy matching. -/
theorem AtProgress.reports (h : AtProgress ram p s)
    (hbad : s.checkIn.anyUnexpectedUpdate = true) :
    Reports ram p.pos s.activityReg s.checkOut.unmatchedExpected s.checkOut.badActual := by
  have hex := s.checkIn.anyUnexpectedUpdate_iff.mp hbad
  obtain ⟨hlt, hfail⟩ := Nat.find_spec hex
  have hmin : ∀ i < Nat.find hex,
      ¬ FailsAt (ports s.checkIn.updateWes) s.checkIn.actual s.checkIn.entry i :=
    fun i hi hf => Nat.find_min hex hi ⟨lt_trans hi hlt, hf⟩
  generalize Nat.find hex = j at hlt hfail hmin
  have hentry : ∀ k ≤ j, s.checkIn.entry k = lookahead ram p.pos k := by
    intro k hk
    rw [lookahead, ← h.curExpUpdate]
    exact s.entry_checkIn h.raw_cur (lt_of_le_of_lt hk hlt)
  have hpair := s.checkIn.firstUnmatched_eq ⟨j, hlt⟩ hfail hmin
  have hfail' := (failsAt_congr hentry).mp hfail
  refine ⟨j, hfail', fun i hi => ?_, ?_, ?_⟩
  · rw [← failsAt_congr (fun k hk => hentry k (by omega))]
    exact hmin i hi
  · rw [← hentry j le_rfl]
    show s.checkIn.firstUnmatched.1 = _
    rw [hpair, ← TestChecksIn.entry_val]
  · show s.checkIn.firstUnmatched.2 = _
    rw [hpair]
    have hrem := remaining_congr (A := ports s.checkIn.updateWes) (v := s.checkIn.actual)
      fun k (hk : k < j) => hentry k (Nat.le_of_lt hk)
    simp only [hrem]
    rfl

/-- The status of a cycle, spelled out over the registered activity. -/
theorem AtProgress.testStatus_eq (h : AtProgress ram p s) (hn : s.numExpUpdates = n)
    (hT : s.maxWaitTime = T) :
    s.testStatus =
      match judgeRam ram n T p s.activityReg with
      | .pending _ => .notDone
      | .decided st _ _ => st := by
  have hany := s.anyUpdate_checkIn
  have hmatch := s.anyUnexpectedUpdate_checkIn h.raw_cur
  rw [h.curExpUpdate] at hmatch
  have hen : s.checkIn.procEn = s.activityReg.procEnable := rfl
  have hdone : s.checkIn.shouldBeDone = p.listDone := h.shouldBeDone
  unfold TestMonitorState.testStatus testTimeout judgeRam judge
  -- The two timers are asked before the checks, in the same order on both sides.
  rw [h.idleWaitTimer, h.testCycleCounter, h.shouldBeDone, hT, hn]
  show (if _ then _ else if _ then _ else if s.checkIn.foundError = true then s.checkIn.status
    else _) = _
  by_cases hidle : p.idle ≥ 100
  · simp [hidle]
  by_cases htime : p.cycles > T.toNat ∧ p.listDone = false
  · simp [hidle, htime]
  rw [if_neg hidle, if_neg htime, if_neg hidle, if_neg htime]
  unfold TestChecksIn.foundError TestChecksIn.status
  rw [hen, hdone]
  by_cases hcount : s.activityReg.count = 0
  · -- Without an update no check is active, and the group is empty.
    have hnoupd : s.checkIn.anyUpdate = false := by
      rw [← Bool.not_eq_true, hany]
      exact not_not.mpr hcount
    have hgroup : s.activityReg.group
        = entries (fun k => decodeUpdate (ram k)) p.pos s.activityReg.count := by
      rw [hcount, s.activityReg.group_eq_zero_iff.mpr hcount, entries_zero]
    have hnext := s.nextExpUpdate_of_count_eq_zero hcount
    rw [h.curExpUpdate] at hnext
    simp [hnoupd, hmatch.mpr hgroup, hgroup, hcount, hnext]
    split <;> rfl
  · -- With an update the checks are asked in the order of the branches of `judge`.
    have hupd : s.checkIn.anyUpdate = true := hany.mpr hcount
    by_cases hproc : s.activityReg.procEnable = false
    · simp [hupd, hproc, hcount]
    · have hproc' : s.activityReg.procEnable = true := by simpa using hproc
      by_cases hlist : p.listDone = true
      · simp [hupd, hproc', hlist, hcount]
      · have hlist' : p.listDone = false := by simpa using hlist
        by_cases hgroup : s.activityReg.group
            = entries (fun k => decodeUpdate (ram k)) p.pos s.activityReg.count
        · have hnext := s.nextExpUpdate_eq (hmatch.mpr hgroup)
          rw [h.curExpUpdate] at hnext
          simp [hproc', hlist', hmatch.mpr hgroup, hgroup, hnext]
          split <;> rfl
        · have hbad : s.checkIn.anyUnexpectedUpdate = true := by
            rw [← Bool.not_eq_false, hmatch]
            exact hgroup
          simp [hproc', hlist', hbad, hgroup]

/-- A cycle without reset and without configuration write leaves the RAMs and the
configuration alone and advances the control registers. -/
theorem step_of_not_testReset (s : TestMonitorState N) {input : TestMonitorIn N}
    (hreset : input.reset = false) (htest : input.testReset = false) :
    s.step input =
      { expectedUpdatesRam := s.expectedUpdatesRam
        copies := s.copies
        rawExpectedUpdates := fun i => s.expectedUpdatesRam i (s.expupdReadAddr input i)
        actualUpdatesReg := input.updates
        updateWesReg := input.updateWes
        procEnableReg := input.procEnable
        numExpUpdates := s.numExpUpdates
        maxWaitTime := s.maxWaitTime
        curExpUpdate := s.nextExpUpdate
        shouldBeDone := s.shouldBeDone || decide (s.nextExpUpdate ≥ s.numExpUpdates)
        testWasDone := s.testWasDone || s.testDone
        testCycleCounter := if s.testRunning then s.testCycleCounter + 1 else s.testCycleCounter
        idleWaitTimer :=
          if s.shouldBeDone && s.testRunning then s.idleWaitTimer + 1 else s.idleWaitTimer
        output := s.outputStep } := by
  obtain ⟨hn0, hn1, hwe, hw0, hw1⟩ := input.testReset_eq_false_iff.mp htest
  have hram : s.ramStep input = s.expectedUpdatesRam := by
    funext i
    exact s.ramStep_of_not_we hwe i
  unfold step
  rw [if_neg (by rw [hreset]; exact Bool.false_ne_true)]
  simp only [hram, s.numExpUpdatesStep_of_not_we hn0 hn1, s.maxWaitTimeStep_of_not_we hw0 hw1,
    htest, Bool.false_eq_true, if_false]

/-- While the host does not read, every RAM is addressed from the next entry on. -/
theorem expupdReadAddr_of_not_read (s : TestMonitorState N) {input : TestMonitorIn N}
    (h : input.readExpUpdEn = false) (i : Fin (N + 1)) :
    s.expupdReadAddr input i = s.nextExpUpdate + BitVec.ofNat 9 i.val := by
  unfold expupdReadAddr
  simp [h]

/-- Every cycle without reset registers the activity of its inputs. -/
theorem activityReg_step (s : TestMonitorState N) {input : TestMonitorIn N}
    (hreset : input.reset = false) : (s.step input).activityReg = input.activity := by
  unfold step
  rw [if_neg (by rw [hreset]; exact Bool.false_ne_true)]
  rfl

/-- One cycle without host access keeps the relation: the abstract monitor takes the
registered activity. -/
theorem Tracks.step {j : Judgement N} (h : Tracks ram n T j s) {input : TestMonitorIn N}
    (hi : input.NoHostAccess) :
    Tracks ram n T (j.next (fun k => decodeUpdate (ram k)) n T.toNat s.activityReg)
      (s.step input) := by
  obtain ⟨hram, hn, hT, hj⟩ := h
  rw [s.step_of_not_testReset hi.reset hi.testReset]
  refine ⟨hram, hn, hT, ?_⟩
  cases j with
  | pending p =>
    have hj : AtProgress ram p s := hj
    -- The status is the answer of the judgement on the registered activity, so the cases of the
    -- monitor are those of `judgeRam`.
    have hst := hj.testStatus_eq hn hT
    show match judgeRam ram n T p s.activityReg with
      | .pending p' => AtProgress ram p' _
      | .decided st p' a => AtVerdict ram st p' a _
    cases hres : judgeRam ram n T p s.activityReg with
    | pending p' =>
      rw [hres] at hst
      -- The updates matched, which is what moves `next_exp_update` past all of them.
      obtain ⟨-, -, -, hgroup, -, rfl⟩ := (judge_eq_pending_iff _ _ _).mp hres
      have hnext : s.nextExpUpdate = p.pos + BitVec.ofNat 9 s.activityReg.count := by
        rw [← hj.curExpUpdate]
        refine s.nextExpUpdate_eq ((s.anyUnexpectedUpdate_checkIn hj.raw_cur).mpr ?_)
        rw [hj.curExpUpdate]
        exact hgroup
      have hrun : s.testRunning = s.activityReg.procEnable := by
        simp [testRunning, testDone, hst, hj.testWasDone, activityReg]
      refine ⟨?_, hnext, ?_, ?_, ?_, ?_, ?_⟩
      · simp [testDone, hst, hj.testWasDone]
      · simp [hnext, hn, hj.shouldBeDone, Progress.advance]
      · simp only [hrun, hj.testCycleCounter, Progress.advance]
        cases s.activityReg.procEnable <;> rfl
      · simp only [hrun, hj.idleWaitTimer, hj.shouldBeDone, Progress.advance]
        cases p.listDone <;> cases s.activityReg.procEnable <;> rfl
      · intro i
        simp only [s.expectedUpdatesRam_eq, hram, s.expupdReadAddr_of_not_read hi.readExpUpdEn,
          hnext]
        rfl
      · simp [outputStep, hj.testWasDone, hst, TestStatus.code]
    | decided st p' a =>
      rw [hres] at hst
      -- `test_was_done` is still clear, so this cycle writes the report.
      obtain ⟨rfl, rfl, hne⟩ := judge_decided _ _ _ hres
      have hst : s.testStatus = st := hst
      refine ⟨?_, ?_, ?_, ?_⟩
      · simp [testDone, hst, hne]
      · simp [outputStep, hj.testWasDone, hst]
      · simp [outputStep, hj.testWasDone, hj.testCycleCounter]
      · rintro rfl
        have hbad : s.checkIn.anyUnexpectedUpdate = true := by
          rw [← Bool.not_eq_false, s.anyUnexpectedUpdate_checkIn hj.raw_cur, hj.curExpUpdate]
          exact (of_judge_eq_incorrectUpdate _ _ _ hres).2.2.2
        simpa only [outputStep, hj.testWasDone, Bool.false_eq_true, if_false]
          using hj.reports hbad
  | decided st p a =>
    -- From here on `test_was_done` keeps the output registers.
    have hj : AtVerdict ram st p a s := hj
    show AtVerdict ram st p a _
    refine ⟨?_, ?_, ?_, ?_⟩
    · simp [hj.testWasDone]
    · simp [outputStep, hj.testWasDone, hj.testStatus]
    · simp [outputStep, hj.testWasDone, hj.testCycleCount]
    · simpa only [outputStep, hj.testWasDone, if_true] using hj.report


end

/-! ### Runs after a configuration -/

/-- The state after the host has configured the monitor: from any prior state, cycles in
which the processor is disabled and makes no update, the last configuration write among
them, and then at least two more such cycles without a reset or a configuration write. The
host may read in all of them. -/
def AfterConfiguration (s : TestMonitorState N) : Prop :=
  ∃ (prior : TestMonitorState N) (pre gap : List (TestMonitorIn N)) (last : TestMonitorIn N),
    (∀ input ∈ pre ++ last :: gap, input.Quiet) ∧
    last.reset = false ∧ last.testReset = true ∧
    (∀ input ∈ gap, input.reset = false ∧ input.testReset = false) ∧ 2 ≤ gap.length ∧
    s = (pre ++ last :: gap).foldl step prior

/-- The control state is cleared and the input registers hold no activity. -/
structure Cleared (s : TestMonitorState N) : Prop where
  testWasDone : s.testWasDone = false
  curExpUpdate : s.curExpUpdate = 0
  testCycleCounter : s.testCycleCounter = 0
  idleWaitTimer : s.idleWaitTimer = 0
  testStatus : s.output.testStatus = 0
  count : s.activityReg.count = 0
  procEnableReg : s.procEnableReg = false
  shouldBeDone : s.shouldBeDone = true → s.numExpUpdates = 0

/-- A cleared monitor whose `should_be_done` has followed the configured number of
updates. -/
structure Armed (s : TestMonitorState N) : Prop extends Cleared s where
  shouldBeDone_eq : s.shouldBeDone = decide (s.numExpUpdates = 0)

/-- A cleared monitor starts at the first entry. -/
theorem Cleared.nextExpUpdate {s : TestMonitorState N} (h : Cleared s) : s.nextExpUpdate = 0 := by
  rw [s.nextExpUpdate_of_count_eq_zero h.count, h.curExpUpdate]

/-- A cleared monitor gives no verdict. -/
theorem Cleared.testStatus_eq {s : TestMonitorState N} (h : Cleared s) :
    s.testStatus = .notDone := by
  have hany : s.checkIn.anyUpdate = false := by
    rw [← Bool.not_eq_true, anyUpdate_checkIn]
    exact not_not.mpr h.count
  have hnone : s.checkIn.anyUnexpectedUpdate = false := by
    rw [TestChecksIn.anyUnexpectedUpdate_eq_false_iff]
    show s.activityReg.group = (Multiset.range s.activityReg.count).map _
    rw [h.count, s.activityReg.group_eq_zero_iff.mpr h.count]
    rfl
  have herr : s.checkOut.foundError = false := by
    show s.checkIn.foundError = false
    simp [TestChecksIn.foundError, hany, hnone]
  unfold TestMonitorState.testStatus
  simp [h.idleWaitTimer, h.testCycleCounter, herr, h.nextExpUpdate]

/-- The last configuration write clears the monitor. -/
theorem cleared_of_testReset (s : TestMonitorState N) {input : TestMonitorIn N}
    (hquiet : input.Quiet) (hreset : input.reset = false) (htest : input.testReset = true) :
    Cleared (s.step input) := by
  have hact := s.activityReg_step hreset
  unfold step at hact ⊢
  rw [if_neg (by rw [hreset]; exact Bool.false_ne_true)] at hact ⊢
  refine ⟨by simp [htest], by simp [htest], by simp [htest], by simp [htest], by simp [htest],
    ?_, hquiet.procEnable, by simp [htest]⟩
  rw [hact]
  exact hquiet.count

/-- A quiet cycle after it arms the monitor. -/
theorem Cleared.step {s : TestMonitorState N} (h : Cleared s) {input : TestMonitorIn N}
    (hquiet : input.Quiet) (hreset : input.reset = false) (htest : input.testReset = false) :
    Armed (s.step input) := by
  have hact := s.activityReg_step hreset
  have hst := h.testStatus_eq
  have hdone : s.testDone = false := by simp [testDone, hst, h.testWasDone]
  have hrun : s.testRunning = false := by simp [testRunning, h.procEnableReg]
  have hsbd : (s.shouldBeDone || decide (s.nextExpUpdate ≥ s.numExpUpdates))
      = decide (s.numExpUpdates = 0) := by
    rw [h.nextExpUpdate]
    by_cases hn : s.numExpUpdates = 0
    · simp [hn]
    · have hs : s.shouldBeDone = false := by
        rw [← Bool.not_eq_true]
        exact fun hs => hn (h.shouldBeDone hs)
      simp [hs]
  rw [s.step_of_not_testReset hreset htest] at hact ⊢
  refine ⟨⟨?_, h.nextExpUpdate, ?_, ?_, ?_, ?_, hquiet.procEnable, ?_⟩, hsbd⟩
  · simp [h.testWasDone, hdone]
  · simp [hrun, h.testCycleCounter]
  · simp [hrun, h.idleWaitTimer]
  · simp [outputStep, h.testWasDone, hst, TestStatus.code]
  · rw [hact]
    exact hquiet.count
  · rw [hsbd]
    exact of_decide_eq_true

/-- A configuration leaves an armed monitor. -/
theorem AfterConfiguration.armed {s : TestMonitorState N} (h : AfterConfiguration s) :
    Armed s := by
  obtain ⟨prior, pre, gap, last, hquiet, hreset, htest, hgap, hlen, rfl⟩ := h
  rw [List.foldl_append, List.foldl_cons]
  have hlast := cleared_of_testReset (pre.foldl step prior)
    (hquiet last (by simp)) hreset htest
  cases gap with
  | nil => simp at hlen
  | cons g rest =>
    have hg : ∀ input ∈ g :: rest, input.Quiet ∧ input.reset = false ∧ input.testReset = false :=
      fun input hm => ⟨hquiet input (by simp [List.mem_cons.mp hm]), hgap input hm⟩
    obtain ⟨hgq, hgr, hgt⟩ := hg g List.mem_cons_self
    rw [List.foldl_cons]
    exact foldl_invariant (fun s input hi hs => hs.toCleared.step hi.1 hi.2.1 hi.2.2)
      (fun input hm => hg input (List.mem_cons_of_mem g hm)) (hlast.step hgq hgr hgt)

/-- The first cycle after a configuration fills the latches: the monitor tracks the start of
the list. -/
theorem Armed.tracks_step {s : TestMonitorState N} (h : Armed s) {input : TestMonitorIn N}
    (hi : input.NoHostAccess) :
    Tracks s.expupdRam s.numExpUpdates s.maxWaitTime (.pending (Progress.start s.numExpUpdates))
      (s.step input) := by
  have hdone : s.testDone = false := by simp [testDone, h.testStatus_eq, h.testWasDone]
  have hrun : s.testRunning = false := by simp [testRunning, h.procEnableReg]
  rw [s.step_of_not_testReset hi.reset hi.testReset]
  refine ⟨rfl, rfl, rfl, ?_, h.nextExpUpdate, ?_, ?_, ?_, ?_, ?_⟩
  · simp [h.testWasDone, hdone]
  · rw [h.nextExpUpdate, h.shouldBeDone_eq]
    simp [Progress.start]
  · simp [hrun, h.testCycleCounter, Progress.start]
  · simp [hrun, h.idleWaitTimer, Progress.start]
  · intro i
    simp only [s.expectedUpdatesRam_eq, s.expupdReadAddr_of_not_read hi.readExpUpdEn,
      h.nextExpUpdate]
    rfl
  · simp [outputStep, h.testWasDone, h.testStatus_eq, TestStatus.code]

/-- The judgement of the abstract monitor with the decoded RAM as its list. -/
abbrev judgementRam (ram : ExpupdRam) (n : ExpupdAddr) (T : BitVec 16) (acts : Nat → Activity N)
    (t : Nat) : Judgement N :=
  judgement (fun k => decodeUpdate (ram k)) n T.toNat acts t

/-- The run lemma: after a configuration, the state after `t + 1` cycles without host access
tracks the judgement on the first `t` activities. -/
theorem tracks_trajectory {s : TestMonitorState N} (h : AfterConfiguration s)
    {ins : Nat → TestMonitorIn N} (hins : ∀ t, (ins t).NoHostAccess) (t : Nat) :
    Tracks s.expupdRam s.numExpUpdates s.maxWaitTime
      (judgementRam s.expupdRam s.numExpUpdates s.maxWaitTime (fun t => (ins t).activity) t)
      (trajectory step s ins (t + 1)) := by
  induction t with
  | zero => exact h.armed.tracks_step (hins 0)
  | succ t ih =>
    have hstep := ih.step (hins (t + 1))
    rw [trajectory_succ step s ins t, activityReg_step _ (hins t).reset] at hstep
    exact hstep

end TestMonitorState

end VivadoTest.Framework
