import VivadoTest.Proofs.TbChecks

/-!
# `VivadoTest.Proofs.Tb`: the runs of the testbench

A cycle `Matches` when its updates are the next expected ones. The variables of the
testbench's process hold the counts of the trace (`Running`) until its idle wait is over
(`Passed`) or a cycle does not match (`Failed`).

* `clockEdge_running`: one rising edge, from a running simulation.
* `simulate_outcome`: the outcome of a run.
* `logsSuccess_iff`, `logsFailure_iff`: what the log tells about the trace.

## The shape of the proof

The process is a chain of `elsif`s. Each of its branches has a lemma of its own
(`checkBranches_additional`, `checkBranches_idle`, `checkBranches_compare`,
`checkBranches_disabled`, `checkBranches_wait`), and `checkBranches_spec` puts them together for an
enabled cycle. What the process keeps in variables, the trace has as functions of the time:
`update_i` is `updatesBefore`, `idle_counter` is `idleBefore`, and the clock counter is the number
of the edge.

A run is a number of edges in reset (`simulate_reset`) and then one edge for each enabled cycle, so
`simulate_outcome` is an induction on the enabled cycles with `clockEdge_running` as its step. An
ended simulation does nothing more (`clockEdge_of_ended`), which keeps the two other outcomes.

The log is looked at through the texts of its lines. The messages differ in their first letters, so
`Message.head?_text` is enough to tell them apart.
-/

set_option autoImplicit false

namespace VivadoTest.Framework.Tb

open VivadoTest.Lib
open VivadoTest.Spec

variable {N : Nat}

/-! ### Messages by their text -/

/-- The first letter of a message. -/
def Message.initial : Message → Char
  | .unexpectedAdditional _ => 'U'
  | .gotExpected _ => 'G'
  | .expectedNext _ _ => 'E'
  | .gotWhileDisabled _ => 'G'
  | .waited _ => 'W'
  | .testSuccess => 'T'
  | .testTimeout => 'T'

/-- The first letter of a message, by which the messages are told apart below. -/
theorem Message.head?_text (m : Message) : m.text.toList.head? = some m.initial := by
  cases m <;> unfold text initial <;>
    simp only [String.append_assoc, String.toList_append] <;> rfl

/-- Only one message has the text `Test success.` -/
theorem Message.text_eq_testSuccess_iff (m : Message) :
    m.text = "Test success." ↔ m = .testSuccess := by
  refine ⟨fun h => ?_, fun h => by rw [h]; rfl⟩
  have hhead := m.head?_text
  rw [h] at hhead
  have hinitial : m.initial = 'T' := (Option.some.inj hhead).symm
  cases m with
  | testSuccess => rfl
  | testTimeout => exact absurd h (by decide)
  | _ => simp [initial] at hinitial

/-- And only one has the text `Test timeout.` -/
theorem Message.text_eq_testTimeout_iff (m : Message) :
    m.text = "Test timeout." ↔ m = .testTimeout := by
  refine ⟨fun h => ?_, fun h => by rw [h]; rfl⟩
  have hhead := m.head?_text
  rw [h] at hhead
  have hinitial : m.initial = 'T' := (Option.some.inj hhead).symm
  cases m with
  | testTimeout => rfl
  | testSuccess => exact absurd h (by decide)
  | _ => simp [initial] at hinitial

/-! ### The loops over the updates of a cycle -/

/-- The loop that logs a message for each index succeeds when the indices are in the array. What
the two ways of logging keep holds of the log behind it, which has failed if there was an index.
-/
theorem logEach_spec (clockCounter : Nat) {message : ExpectedStateUpdate → Message}
    (hm : ∀ u, message u ≠ .testSuccess ∧ message u ≠ .testTimeout) (updates : TbArray)
    {R : List LogLine → Bool → Prop} (hR : LogRule R) {indices : List Nat}
    (hi : ∀ i ∈ indices, i < N + 1) {log : List LogLine} {failed : Bool} (h : R log failed) :
    ∃ log', logEach N clockCounter message updates indices log = .ok log' ∧
      R log' (failed || !indices.isEmpty) := by
  induction indices generalizing log failed with
  | nil => exact ⟨log, rfl, by simpa using h⟩
  | cons i rest ih =>
    obtain ⟨log', hlog', hrest⟩ := ih (fun j hj => hi j (List.mem_cons_of_mem i hj))
      (hR.failure clockCounter (hm (updates i)) h)
    refine ⟨log', ?_, ?_⟩
    · unfold logEach at hlog' ⊢
      rw [List.foldlM_cons, readAt_of_lt (hi i List.mem_cons_self)]
      exact hlog'
    · simpa using hrest

/-- The procedure logs every update of the cycle as unexpected, and says whether there was one. -/
theorem assertNoAdditionalUpdates_spec (clockCounter : Nat) {num : Nat} (hnum : num ≤ N + 1)
    (updates : TbArray) {R : List LogLine → Bool → Prop} (hR : LogRule R) {log : List LogLine}
    (h : R log false) :
    ∃ log', assertNoAdditionalUpdates N clockCounter num updates log
        = .ok (decide (num ≠ 0), log') ∧
      R log' (decide (num ≠ 0)) ∧ (num = 0 → log' = log) := by
  unfold assertNoAdditionalUpdates
  by_cases h0 : num = 0
  · subst h0
    exact ⟨log, rfl, h, fun _ => rfl⟩
  · obtain ⟨log', hlog', hrest⟩ := logEach_spec clockCounter
      (show ∀ u, Message.unexpectedAdditional u ≠ .testSuccess ∧
          Message.unexpectedAdditional u ≠ .testTimeout from fun _ => ⟨nofun, nofun⟩) updates hR
      (fun i (hi : i ∈ List.range' 0 num) =>
        lt_of_lt_of_le (by simpa using (List.mem_range'_1.mp hi).2) hnum) h
    have hne : (List.range' 0 num).isEmpty = false := by
      rw [List.isEmpty_eq_false_iff]
      exact fun hnil => h0 (by simpa using hnil)
    rw [hne] at hrest
    refine ⟨log', ?_, by simpa [h0] using hrest, fun h => absurd h h0⟩
    rw [if_pos (show num ≥ 1 by omega), hlog']
    simp [h0, bind, Except.bind, pure, Except.pure]

/-! ### The branches of the process -/

section
variable {g : Generics} (expectedUpdates : TbArray) {s : TbState} (en : Bool)

/-- The list is used up, and updates arrive. -/
theorem checkBranches_additional (hdone : g.NUM_EXPECTED_UPDATES ≤ s.updateI)
    (hnum : s.numUpdates ≤ N + 1) (hpos : s.numUpdates ≠ 0) {R : List LogLine → Bool → Prop}
    (hR : LogRule R) (h : R s.logFile false) :
    ∃ log, checkBranches N g expectedUpdates s en
        = .ok { s with testFailed := true, logFile := log } ∧ R log true := by
  obtain ⟨log, hlog, hrest, -⟩ :=
    assertNoAdditionalUpdates_spec s.clockCounter hnum s.currentUpdates hR h
  rw [decide_eq_true hpos] at hlog hrest
  refine ⟨log, ?_, hrest⟩
  unfold checkBranches
  rw [if_pos hdone, hlog]
  rfl

/-- The list is used up, and no update arrives: the idle wait. -/
theorem checkBranches_idle (hdone : g.NUM_EXPECTED_UPDATES ≤ s.updateI)
    (hzero : s.numUpdates = 0) :
    checkBranches N g expectedUpdates s en = .ok { s with
      testFailed := false
      idleCounter := s.idleCounter + 1
      testComplete := (checkTestComplete g s.clockCounter (s.idleCounter + 1) s.logFile).1
      logFile := (checkTestComplete g s.clockCounter (s.idleCounter + 1) s.logFile).2 } := by
  unfold checkBranches
  rw [if_pos hdone, hzero]
  rfl

/-- Updates of an enabled processor are compared with the list. -/
theorem checkBranches_compare (hmore : s.updateI < g.NUM_EXPECTED_UPDATES)
    (hpos : 0 < s.numUpdates) {failed : Bool} {log : List LogLine}
    (h : checkUpdatesIncorrect N g s.clockCounter s.currentUpdates s.numUpdates expectedUpdates
      s.updateI s.logFile = .ok (failed, log)) :
    checkBranches N g expectedUpdates s true = .ok { s with
      testFailed := failed, logFile := log, updateI := s.updateI + s.numUpdates } := by
  unfold checkBranches
  rw [if_neg (not_le.mpr hmore), if_pos hpos, if_pos rfl, h]
  rfl

/-- Updates of a disabled processor fail the test. -/
theorem checkBranches_disabled (hmore : s.updateI < g.NUM_EXPECTED_UPDATES)
    (hpos : 0 < s.numUpdates) :
    checkBranches N g expectedUpdates s false
      = (logEach N s.clockCounter .gotWhileDisabled s.currentUpdates
          (List.range' 0 (s.numUpdates + 1)) s.logFile).map fun log =>
        { s with testFailed := true, logFile := log, updateI := s.updateI + s.numUpdates } := by
  unfold checkBranches
  rw [if_neg (not_le.mpr hmore), if_pos hpos, if_neg Bool.false_ne_true]
  cases logEach N s.clockCounter .gotWhileDisabled s.currentUpdates
    (List.range' 0 (s.numUpdates + 1)) s.logFile <;> rfl

/-- While the list waits for updates, only the timeout can end the test. -/
theorem checkBranches_wait (hmore : s.updateI < g.NUM_EXPECTED_UPDATES)
    (hzero : s.numUpdates = 0) :
    checkBranches N g expectedUpdates s en
      = .ok (if s.clockCounter ≥ g.TEST_TIMEOUT_CYCLES then
          { s with
            testFailed := true
            logFile := logFailure s.clockCounter .testTimeout s.logFile }
        else s) := by
  unfold checkBranches
  rw [if_neg (not_le.mpr hmore), if_neg (by omega)]
  split <;> rfl

end

/-! ### The process along a trace -/

/-- The updates of the cycle `t` are the next expected updates. -/
def Matches (list : Nat → ExpectedStateUpdate) (n : Nat) (acts : Nat → Activity N) (t : Nat) :
    Prop :=
  updatesBefore acts t + (acts t).count ≤ n ∧
    (acts t).group = slice list (updatesBefore acts t) (acts t).count

/-- The simulation goes on after `t` enabled cycles: every cycle has matched, the idle wait is
not over, and the variables of the process hold the counts of the trace. -/
structure Running (list : Nat → ExpectedStateUpdate) (n : Nat) (acts : Nat → Activity N) (t : Nat)
    (s : TbState) : Prop where
  matched : ∀ u < t, Matches list n acts u
  idle_lt : ∀ u ≤ t, idleBefore acts n u < 100
  updateI : s.updateI = updatesBefore acts t
  idleCounter : s.idleCounter = idleBefore acts n t
  testFailed : s.testFailed = false
  testComplete : s.testComplete = false
  ended : s.ended = false
  log : ∀ l ∈ s.logFile, l.failure = false ∧ l.message ≠ .testSuccess

/-- The simulation has ended with `Test success.` after an idle wait. -/
structure Passed (list : Nat → ExpectedStateUpdate) (n : Nat) (acts : Nat → Activity N)
    (s : TbState) : Prop where
  ended : s.ended = true
  trace : ∃ u, (∀ v < u, Matches list n acts v ∧ idleBefore acts n v < 100) ∧
    idleBefore acts n u = 100
  success : ∃ l ∈ s.logFile, l.message = .testSuccess
  log : ∀ l ∈ s.logFile, l.failure = false

/-- The simulation has ended with a failure in a cycle that does not match. -/
structure Failed (list : Nat → ExpectedStateUpdate) (n : Nat) (acts : Nat → Activity N)
    (s : TbState) : Prop where
  ended : s.ended = true
  trace : ∃ u, (∀ v < u, Matches list n acts v ∧ idleBefore acts n v < 100) ∧
    idleBefore acts n u < 100 ∧ ¬ Matches list n acts u
  failure : ∃ l ∈ s.logFile, l.failure = true
  log : ∀ l ∈ s.logFile, l.message ≠ .testSuccess

section
variable {list : Nat → ExpectedStateUpdate} {n t : Nat} {acts : Nat → Activity N} {s : TbState}

/-- The testbench logs a timeout in the cycle `t`, if it is still running then. -/
def TimeoutDue (g : Generics) (acts : Nat → Activity N) (t : Nat) (s : TbState) : Prop :=
  updatesBefore acts t < g.NUM_EXPECTED_UPDATES ∧ (acts t).count = 0 ∧
    s.clockCounter ≥ g.TEST_TIMEOUT_CYCLES

/-- An enabled cycle adds its updates to the count. -/
theorem updatesBefore_succ_of_enabled (hen : (acts t).procEnable = true) :
    updatesBefore acts (t + 1) = updatesBefore acts t + (acts t).count := by
  simp [updatesBefore, hen]

/-- Matching cycles make at most `n` updates. -/
theorem updatesBefore_le_of_matches (hen : ∀ u, (acts u).procEnable = true)
    (h : ∀ u < t, Matches list n acts u) : updatesBefore acts t ≤ n := by
  cases t with
  | zero => exact Nat.zero_le n
  | succ t =>
    rw [updatesBefore_succ_of_enabled (hen t)]
    exact (h t (Nat.lt_succ_self t)).1

/-- A cycle without updates matches. -/
theorem matches_of_count_eq_zero (hle : updatesBefore acts t ≤ n) (h : (acts t).count = 0) :
    Matches list n acts t := by
  refine ⟨by omega, ?_⟩
  rw [h, (acts t).group_eq_zero_iff.mpr h, slice_zero]

/-- A simulation that goes on has matched so far, without the idle wait being over. -/
theorem Running.trace (h : Running list n acts t s) :
    ∀ v < t, Matches list n acts v ∧ idleBefore acts n v < 100 :=
  fun v hv => ⟨h.matched v hv, h.idle_lt v (le_of_lt hv)⟩

/-- A cycle that does not match ends a running simulation with a failure. -/
theorem Running.failed (h : Running list n acts t s) (hbad : ¬ Matches list n acts t)
    {s' : TbState} (hended : s'.ended = true) (happ : Appends s.logFile s'.logFile true) :
    Failed list n acts s' := by
  obtain ⟨new, hlog, hfail, hnew⟩ := happ
  obtain ⟨l, hl, hlf⟩ := hfail.mp rfl
  refine ⟨hended, ⟨t, h.trace, h.idle_lt t le_rfl, hbad⟩, ⟨l, ?_, hlf⟩, ?_⟩
  · rw [hlog]
    exact List.mem_append_right _ hl
  · intro l hl
    rw [hlog] at hl
    rcases List.mem_append.mp hl with hl | hl
    · exact (h.log l hl).2
    · exact (hnew l hl).1

/-- A cycle that matches keeps the simulation running until the idle wait is over. -/
theorem Running.succ (h : Running list n acts t s) (hok : Matches list n acts t)
    (hidle : idleBefore acts n (t + 1) < 100) {s' : TbState}
    (hupdateI : s'.updateI = updatesBefore acts (t + 1))
    (hidleCounter : s'.idleCounter = idleBefore acts n (t + 1)) (hfailed : s'.testFailed = false)
    (hcomplete : s'.testComplete = false) (hended : s'.ended = false)
    (happ : Appends s.logFile s'.logFile false) : Running list n acts (t + 1) s' := by
  obtain ⟨new, hlog, hfail, hnew⟩ := happ
  refine ⟨?_, ?_, hupdateI, hidleCounter, hfailed, hcomplete, hended, ?_⟩
  · intro u hu
    rcases Nat.lt_succ_iff_lt_or_eq.mp hu with hlt | rfl
    · exact h.matched u hlt
    · exact hok
  · intro u hu
    rcases Nat.le_succ_iff.mp hu with hle | rfl
    · exact h.idle_lt u hle
    · exact hidle
  · intro l hl
    rw [hlog] at hl
    rcases List.mem_append.mp hl with hl | hl
    · exact h.log l hl
    · refine ⟨?_, (hnew l hl).1⟩
      rw [← Bool.not_eq_true]
      intro hlf
      have := hfail.mpr ⟨l, hl, hlf⟩
      cases this

end

/-! ### One rising edge -/

section
variable {g : Generics} {expectedUpdates : TbArray} {acts : Nat → Activity N} {t : Nat}
  {s : TbState}

/-- The branches of the process on the updates of an enabled cycle: the simulation goes on
with the counts of the trace, or the log tells how it ends. -/
theorem checkBranches_spec (hidle : g.IDLE_WAIT_CYCLES = 100)
    (hen : ∀ u, (acts u).procEnable = true) (hnodup : (acts t).group.Nodup)
    (h : Running expectedUpdates g.NUM_EXPECTED_UPDATES acts t s)
    (hnum : s.numUpdates = (acts t).count)
    (hcur : slice s.currentUpdates 0 s.numUpdates = (acts t).group) :
    ∃ s', checkBranches N g expectedUpdates s true = .ok s' ∧ s'.ended = false ∧
      s'.clockCounter = s.clockCounter ∧
      ((¬ TimeoutDue g acts t s ∧ Matches expectedUpdates g.NUM_EXPECTED_UPDATES acts t ∧
          idleBefore acts g.NUM_EXPECTED_UPDATES (t + 1) < 100 ∧
          s'.updateI = updatesBefore acts (t + 1) ∧
          s'.idleCounter = idleBefore acts g.NUM_EXPECTED_UPDATES (t + 1) ∧
          s'.testFailed = false ∧ s'.testComplete = false ∧ Appends s.logFile s'.logFile false) ∨
        (Matches expectedUpdates g.NUM_EXPECTED_UPDATES acts t ∧
          idleBefore acts g.NUM_EXPECTED_UPDATES (t + 1) = 100 ∧ s'.testComplete = true ∧
          s'.logFile = logSuccess s.clockCounter .testSuccess
            (logSuccess s.clockCounter (.waited (s.idleCounter + 1)) s.logFile)) ∨
        (¬ Matches expectedUpdates g.NUM_EXPECTED_UPDATES acts t ∧ s'.testFailed = true ∧
          Appends s.logFile s'.logFile true) ∨
        (TimeoutDue g acts t s ∧ s'.testFailed = true ∧
          ∃ l ∈ s'.logFile, l.message = .testTimeout)) := by
  have hle := updatesBefore_le_of_matches hen h.matched
  have hnext := updatesBefore_succ_of_enabled (hen t)
  have hnumN : s.numUpdates ≤ N + 1 := by
    rw [hnum]
    exact (acts t).count_le
  by_cases hdone : g.NUM_EXPECTED_UPDATES ≤ updatesBefore acts t
  · -- The list is used up: the cycle is idle, or its updates are too many.
    have hdone' : updatesBefore acts t = g.NUM_EXPECTED_UPDATES := by omega
    have hused : g.NUM_EXPECTED_UPDATES ≤ s.updateI := by rwa [h.updateI]
    have hidleSucc : idleBefore acts g.NUM_EXPECTED_UPDATES (t + 1)
        = idleBefore acts g.NUM_EXPECTED_UPDATES t + 1 := by
      simp [idleBefore, hdone', hen t]
    by_cases hzero : s.numUpdates = 0
    · have hmatch : Matches expectedUpdates g.NUM_EXPECTED_UPDATES acts t :=
        matches_of_count_eq_zero hle (by omega)
      have hlt := h.idle_lt t le_rfl
      rw [checkBranches_idle expectedUpdates true hused hzero]
      unfold checkTestComplete
      rw [hidle, h.idleCounter]
      by_cases hfull : idleBefore acts g.NUM_EXPECTED_UPDATES t + 1 ≥ 100
      · rw [if_pos hfull]
        exact ⟨_, rfl, h.ended, rfl, Or.inr (Or.inl ⟨hmatch, by omega, rfl, rfl⟩)⟩
      · rw [if_neg hfull]
        refine ⟨_, rfl, h.ended, rfl, Or.inl ⟨fun hdue => absurd hdue.1 (not_lt.mpr hdone), hmatch,
          by omega, ?_, hidleSucc.symm, rfl, rfl, Appends.refl _⟩⟩
        rw [h.updateI]
        omega
    · obtain ⟨log, hlog, happ⟩ := checkBranches_additional expectedUpdates true hused hnumN
        hzero (Appends.rule s.logFile) (Appends.refl s.logFile)
      refine ⟨_, hlog, h.ended, rfl, Or.inr (Or.inr (Or.inl ⟨?_, rfl, happ⟩))⟩
      intro hm
      have hfit := hm.1
      omega
  · have hlt : updatesBefore acts t < g.NUM_EXPECTED_UPDATES := not_le.mp hdone
    have hmore : s.updateI < g.NUM_EXPECTED_UPDATES := by rwa [h.updateI]
    have hidleSucc : idleBefore acts g.NUM_EXPECTED_UPDATES (t + 1)
        = idleBefore acts g.NUM_EXPECTED_UPDATES t := by
      simp [idleBefore, ne_of_lt hlt]
    have hidleLt := h.idle_lt t le_rfl
    by_cases hpos : 0 < s.numUpdates
    · -- The updates are compared with the next expected ones.
      obtain ⟨b, log, hb, happ, hiff⟩ := checkUpdatesIncorrect_spec g s.clockCounter
        (updatesBefore acts t) expectedUpdates hnumN hpos (by rw [hcur]; exact hnodup) s.logFile
      have hmatch : b = false ↔ Matches expectedUpdates g.NUM_EXPECTED_UPDATES acts t := by
        rw [hiff, hcur, hnum]
        rfl
      rw [← h.updateI] at hb
      rw [checkBranches_compare expectedUpdates hmore hpos hb]
      cases b with
      | false =>
        have hbusy : ¬ TimeoutDue g acts t s := fun hdue => by
          have := hdue.2.1
          omega
        refine ⟨_, rfl, h.ended, rfl, Or.inl ⟨hbusy, hmatch.mp rfl, by omega, ?_, ?_, rfl,
          h.testComplete, happ⟩⟩
        · rw [hnext, hnum, h.updateI]
        · rw [h.idleCounter, hidleSucc]
      | true =>
        refine ⟨_, rfl, h.ended, rfl, Or.inr (Or.inr (Or.inl ⟨fun hm => ?_, rfl, happ⟩))⟩
        cases hmatch.mpr hm
    · -- Without updates only the timeout can end the test.
      rw [checkBranches_wait expectedUpdates true hmore (by omega)]
      by_cases htime : s.clockCounter ≥ g.TEST_TIMEOUT_CYCLES
      · rw [if_pos htime]
        refine ⟨_, rfl, h.ended, rfl, Or.inr (Or.inr (Or.inr ⟨⟨hlt, by omega, htime⟩, rfl,
          ⟨true, s.clockCounter, .testTimeout⟩, ?_, rfl⟩))⟩
        exact List.mem_append_right _ List.mem_cons_self
      · rw [if_neg htime]
        refine ⟨_, rfl, h.ended, rfl, Or.inl ⟨fun hdue => htime hdue.2.2,
          matches_of_count_eq_zero hle (by omega), by omega, ?_, ?_, h.testFailed, h.testComplete,
          Appends.refl _⟩⟩
        · rw [h.updateI, hnext]
          omega
        · rw [h.idleCounter, hidleSucc]

/-- One rising edge with an enabled processor: the simulation goes on, or it ends after an idle
wait, with a cycle that does not match, or with a timeout. -/
theorem clockEdge_enabled (hidle : g.IDLE_WAIT_CYCLES = 100) {procs : Nat → ProcOut N}
    (hnodup : (Activity.ofProc true (procs t)).group.Nodup)
    (h : Running expectedUpdates g.NUM_EXPECTED_UPDATES (fun t => Activity.ofProc true (procs t))
      t s) :
    ∃ s', clockEdge g expectedUpdates s (true, procs t) = .ok s' ∧
      s'.clockCounter = s.clockCounter + 1 ∧
      ((¬ TimeoutDue g (fun t => Activity.ofProc true (procs t)) t s ∧
          Running expectedUpdates g.NUM_EXPECTED_UPDATES
            (fun t => Activity.ofProc true (procs t)) (t + 1) s' ∧
          Appends s.logFile s'.logFile false) ∨
        (Matches expectedUpdates g.NUM_EXPECTED_UPDATES
            (fun t => Activity.ofProc true (procs t)) t ∧
          idleBefore (fun t => Activity.ofProc true (procs t)) g.NUM_EXPECTED_UPDATES (t + 1)
            = 100 ∧ s'.ended = true ∧
          s'.logFile = logSuccess s.clockCounter .testSuccess
            (logSuccess s.clockCounter (.waited (s.idleCounter + 1)) s.logFile)) ∨
        (¬ Matches expectedUpdates g.NUM_EXPECTED_UPDATES
            (fun t => Activity.ofProc true (procs t)) t ∧ s'.ended = true ∧
          Appends s.logFile s'.logFile true) ∨
        (TimeoutDue g (fun t => Activity.ofProc true (procs t)) t s ∧ s'.ended = true ∧
          ∃ l ∈ s'.logFile, l.message = .testTimeout)) := by
  obtain ⟨v, hv, hnum, hcur⟩ := readCurrentUpdates_spec s.currentUpdates true (procs t)
  have h' : Running expectedUpdates g.NUM_EXPECTED_UPDATES
      (fun t => Activity.ofProc true (procs t)) t
      { s with currentUpdates := v.1, numUpdates := v.2 } :=
    ⟨h.matched, h.idle_lt, h.updateI, h.idleCounter, h.testFailed, h.testComplete, h.ended, h.log⟩
  obtain ⟨s₁, hs₁, hended, hclock, hcases⟩ :=
    checkBranches_spec hidle (fun _ => rfl) hnodup h' hnum hcur
  refine ⟨{ s₁ with
    clockCounter := s₁.clockCounter + 1
    testComplete := s₁.testComplete || s₁.testFailed
    ended := true && !s.testComplete && (s₁.testComplete || s₁.testFailed) }, ?_,
    congrArg (· + 1) hclock, ?_⟩
  · unfold clockEdge checkExpectedUpdates
    rw [if_neg (by rw [h.ended]; exact Bool.false_ne_true), hv]
    simp only [bind, Except.bind, pure, Except.pure, hs₁]
  · rcases hcases with ⟨hdue, hm, hlt, hupd, hcount, hfailed, hcomplete, happ⟩ |
      ⟨hm, hfull, hcomplete, hlog⟩ | ⟨hm, hfailed, happ⟩ | ⟨hdue, hfailed, hl⟩
    · exact Or.inl ⟨hdue, h'.succ hm hlt hupd hcount hfailed (by simp [hcomplete, hfailed])
        (by simp [hcomplete, hfailed]) happ, happ⟩
    · exact Or.inr (Or.inl ⟨hm, hfull, by simp [hcomplete, h.testComplete], hlog⟩)
    · exact Or.inr (Or.inr (Or.inl ⟨hm, by simp [hfailed, h.testComplete], happ⟩))
    · exact Or.inr (Or.inr (Or.inr ⟨hdue, by simp [hfailed, h.testComplete], hl⟩))

/-- The simulation goes on, has passed, has failed, or logs a timeout. -/
theorem clockEdge_running (hidle : g.IDLE_WAIT_CYCLES = 100) {procs : Nat → ProcOut N}
    (hnodup : (Activity.ofProc true (procs t)).group.Nodup)
    (h : Running expectedUpdates g.NUM_EXPECTED_UPDATES (fun t => Activity.ofProc true (procs t))
      t s) :
    ∃ s', clockEdge g expectedUpdates s (true, procs t) = .ok s' ∧
      (Running expectedUpdates g.NUM_EXPECTED_UPDATES (fun t => Activity.ofProc true (procs t))
          (t + 1) s' ∨
        Passed expectedUpdates g.NUM_EXPECTED_UPDATES (fun t => Activity.ofProc true (procs t)) s' ∨
        Failed expectedUpdates g.NUM_EXPECTED_UPDATES (fun t => Activity.ofProc true (procs t)) s' ∨
        ∃ l ∈ s'.logFile, l.message = .testTimeout) := by
  obtain ⟨s', hs', -, hcases⟩ := clockEdge_enabled hidle hnodup h
  refine ⟨s', hs', ?_⟩
  rcases hcases with ⟨-, hrun, -⟩ | ⟨hm, hfull, hended, hlog⟩ | ⟨hm, hended, happ⟩ | ⟨-, -, hl⟩
  · exact Or.inl hrun
  · refine Or.inr (Or.inl ⟨hended, ⟨t + 1, ?_, hfull⟩, ?_, ?_⟩)
    · intro u hu
      rcases Nat.lt_succ_iff_lt_or_eq.mp hu with hlt | rfl
      · exact h.trace u hlt
      · exact ⟨hm, h.idle_lt u le_rfl⟩
    · refine ⟨⟨false, s.clockCounter, .testSuccess⟩, ?_, rfl⟩
      rw [hlog]
      exact List.mem_append_right _ List.mem_cons_self
    · intro l hl
      rw [hlog] at hl
      unfold logSuccess at hl
      rcases List.mem_append.mp hl with hl | hl
      · rcases List.mem_append.mp hl with hl | hl
        · exact (h.log l hl).1
        · rw [List.mem_singleton.mp hl]
      · rw [List.mem_singleton.mp hl]
  · exact Or.inr (Or.inr (Or.inl (h.failed hm hended happ)))
  · exact Or.inr (Or.inr (Or.inr hl))

end

/-! ### The run of a simulation -/

section
variable {g : Generics} {expectedUpdates : TbArray} {procs : Nat → ProcOut N}
  {reset : List (ProcOut N)}

/-- The rising edges of a simulation: those in reset, with a disabled processor, then `t` with
an enabled one. -/
def stimulus (reset : List (ProcOut N)) (procs : Nat → ProcOut N) (t : Nat) :
    List (Bool × ProcOut N) :=
  reset.map (fun p => (false, p)) ++ (List.range t).map fun k => (true, procs k)

/-- One more enabled cycle of a simulation. -/
theorem simulate_stimulus_succ (t : Nat) {s : TbState}
    (h : simulate g expectedUpdates (stimulus reset procs t) = .ok s) :
    simulate g expectedUpdates (stimulus reset procs (t + 1))
      = clockEdge g expectedUpdates s (true, procs t) := by
  unfold simulate stimulus at h ⊢
  rw [List.range_succ, List.map_append, ← List.append_assoc, List.foldlM_append, h]
  show List.foldlM (clockEdge g expectedUpdates) s [(true, procs t)] = _
  rw [List.foldlM_cons]
  cases clockEdge g expectedUpdates s (true, procs t) <;> rfl

/-- A processor without updates leaves a disabled testbench with expected updates waiting,
unless it logs a timeout. -/
theorem clockEdge_reset (hn : 0 < g.NUM_EXPECTED_UPDATES) {p : ProcOut N}
    (hquiet : (Activity.ofProc false p).count = 0) {s : TbState}
    (h : Running expectedUpdates g.NUM_EXPECTED_UPDATES
      (fun t => Activity.ofProc true (procs t)) 0 s) :
    ∃ s', clockEdge g expectedUpdates s (false, p) = .ok s' ∧
      s'.clockCounter = s.clockCounter + 1 ∧
      ((Running expectedUpdates g.NUM_EXPECTED_UPDATES
          (fun t => Activity.ofProc true (procs t)) 0 s' ∧ s'.logFile = s.logFile) ∨
        (s.clockCounter ≥ g.TEST_TIMEOUT_CYCLES ∧ ∃ l ∈ s'.logFile, l.message = .testTimeout)) := by
  obtain ⟨v, hv, hnum, -⟩ := readCurrentUpdates_spec s.currentUpdates false p
  rw [hquiet] at hnum
  have hupd : s.updateI = 0 := h.updateI
  have hbranch := @checkBranches_wait N g expectedUpdates
    { s with currentUpdates := v.1, numUpdates := v.2 } false
    (show s.updateI < g.NUM_EXPECTED_UPDATES by omega) hnum
  unfold clockEdge checkExpectedUpdates
  rw [if_neg (by rw [h.ended]; exact Bool.false_ne_true), hv]
  simp only [bind, Except.bind, pure, Except.pure, hbranch]
  by_cases htime : s.clockCounter ≥ g.TEST_TIMEOUT_CYCLES
  · rw [if_pos htime]
    exact ⟨_, rfl, rfl, Or.inr ⟨htime, ⟨true, s.clockCounter, .testTimeout⟩,
      List.mem_append_right _ List.mem_cons_self, rfl⟩⟩
  · rw [if_neg htime]
    refine ⟨_, rfl, rfl, Or.inl ⟨⟨h.matched, h.idle_lt, h.updateI, h.idleCounter, h.testFailed, ?_,
      ?_, h.log⟩, rfl⟩⟩
    · simp [h.testComplete, h.testFailed]
    · simp

/-- The testbench never logs `Test timeout.`, neither in reset nor later. -/
def NeverTimesOut (g : Generics) (expectedUpdates : TbArray) (reset : List (ProcOut N))
    (procs : Nat → ProcOut N) : Prop :=
  ∀ t cycles s, cycles <+: stimulus reset procs t → simulate g expectedUpdates cycles = .ok s →
    ∀ l ∈ s.logFile, l.message.text ≠ "Test timeout."

/-- A simulation that never times out has no timeout in the log of any part of it. -/
theorem NeverTimesOut.not_mem (h : NeverTimesOut g expectedUpdates reset procs) {t : Nat}
    {cycles : List (Bool × ProcOut N)} {s : TbState} (hc : cycles <+: stimulus reset procs t)
    (hs : simulate g expectedUpdates cycles = .ok s) :
    ¬ ∃ l ∈ s.logFile, l.message = .testTimeout := by
  rintro ⟨l, hl, hm⟩
  exact h t cycles s hc hs l hl ((Message.text_eq_testTimeout_iff l.message).mpr hm)

/-- The simulation before the first cycle. -/
theorem running_init (list : Nat → ExpectedStateUpdate) (n : Nat) (acts : Nat → Activity N) :
    Running list n acts 0 {} := by
  refine ⟨fun u hu => absurd hu (Nat.not_lt_zero u), fun u hu => ?_, rfl, rfl, rfl, rfl, rfl,
    fun l hl => absurd hl List.not_mem_nil⟩
  rw [Nat.le_zero.mp hu]
  exact Nat.zero_lt_succ 99

/-- One more rising edge in reset. -/
theorem simulate_concat {pre : List (ProcOut N)} {p : ProcOut N} {s s' : TbState}
    (hs : simulate g expectedUpdates (pre.map fun p => (false, p)) = .ok s)
    (hs' : clockEdge g expectedUpdates s (false, p) = .ok s') :
    simulate g expectedUpdates ((pre ++ [p]).map fun p => (false, p)) = .ok s' := by
  unfold simulate at hs ⊢
  rw [List.map_append, List.foldlM_append, hs]
  show List.foldlM (clockEdge g expectedUpdates) s [(false, p)] = _
  rw [List.foldlM_cons, hs']
  rfl

/-- In reset the simulation stays at its start. -/
theorem simulate_reset (hn : 0 < g.NUM_EXPECTED_UPDATES)
    (hquiet : ∀ p ∈ reset, (Activity.ofProc false p).count = 0)
    (htime : NeverTimesOut g expectedUpdates reset procs) {pre : List (ProcOut N)}
    (hpre : pre <+: reset) :
    ∃ s, simulate g expectedUpdates (pre.map fun p => (false, p)) = .ok s ∧
      Running expectedUpdates g.NUM_EXPECTED_UPDATES
        (fun t => Activity.ofProc true (procs t)) 0 s := by
  induction pre using List.reverseRecOn with
  | nil => exact ⟨{}, rfl, running_init _ _ _⟩
  | append_singleton pre p ih =>
    obtain ⟨s, hs, hrun⟩ := ih ((List.prefix_append pre [p]).trans hpre)
    have hp : p ∈ reset := hpre.subset (List.mem_append_right pre List.mem_cons_self)
    obtain ⟨s', hs', -, hcases⟩ := clockEdge_reset hn (hquiet p hp) hrun
    have hsim := simulate_concat hs hs'
    refine ⟨s', hsim, (hcases.resolve_right fun h => htime.not_mem (t := 0) ?_ hsim h.2).1⟩
    exact (hpre.map _).trans (List.prefix_append _ _)

/-- A simulation that has ended does nothing. -/
theorem clockEdge_of_ended {s : TbState} (h : s.ended = true) (cycle : Bool × ProcOut N) :
    clockEdge g expectedUpdates s cycle = .ok s := if_pos h

/-- A simulation that has ended does not change any more. -/
theorem foldlM_clockEdge_of_ended {s : TbState} (h : s.ended = true)
    (cycles : List (Bool × ProcOut N)) :
    cycles.foldlM (clockEdge g expectedUpdates) s = .ok s := by
  induction cycles with
  | nil => rfl
  | cons c rest ih =>
    rw [List.foldlM_cons, clockEdge_of_ended h c]
    exact ih

/-- The outcome of a run without a timeout: there is no index error, and the simulation goes
on, has passed or has failed. -/
theorem simulate_outcome (hn : 0 < g.NUM_EXPECTED_UPDATES) (hidle : g.IDLE_WAIT_CYCLES = 100)
    (hquiet : ∀ p ∈ reset, (Activity.ofProc false p).count = 0)
    (hnodup : ∀ t, (Activity.ofProc true (procs t)).group.Nodup)
    (htime : NeverTimesOut g expectedUpdates reset procs) (t : Nat) :
    ∃ s, simulate g expectedUpdates (stimulus reset procs t) = .ok s ∧
      (Running expectedUpdates g.NUM_EXPECTED_UPDATES
          (fun t => Activity.ofProc true (procs t)) t s ∨
        Passed expectedUpdates g.NUM_EXPECTED_UPDATES (fun t => Activity.ofProc true (procs t)) s ∨
        Failed expectedUpdates g.NUM_EXPECTED_UPDATES
          (fun t => Activity.ofProc true (procs t)) s) := by
  induction t with
  | zero =>
    obtain ⟨s, hs, hrun⟩ := simulate_reset hn hquiet htime (List.prefix_refl reset)
    exact ⟨s, by simpa [stimulus] using hs, Or.inl hrun⟩
  | succ t ih =>
    obtain ⟨s, hs, hrun | hpassed | hfailed⟩ := ih
    · obtain ⟨s', hs', hcases⟩ := clockEdge_running hidle (hnodup t) hrun
      have hsim := (simulate_stimulus_succ t hs).trans hs'
      refine ⟨s', hsim, ?_⟩
      rcases hcases with h | h | h | h
      · exact Or.inl h
      · exact Or.inr (Or.inl h)
      · exact Or.inr (Or.inr h)
      · exact absurd h (htime.not_mem (List.prefix_refl _) hsim)
    · exact ⟨s, (simulate_stimulus_succ t hs).trans (clockEdge_of_ended hpassed.ended _),
        Or.inr (Or.inl hpassed)⟩
    · exact ⟨s, (simulate_stimulus_succ t hs).trans (clockEdge_of_ended hfailed.ended _),
        Or.inr (Or.inr hfailed)⟩

/-- The testbench logs the line `Test success.` in some cycle. -/
def LogsSuccess (g : Generics) (expectedUpdates : TbArray) (reset : List (ProcOut N))
    (procs : Nat → ProcOut N) : Prop :=
  ∃ t s, simulate g expectedUpdates (stimulus reset procs t) = .ok s ∧
    ∃ l ∈ s.logFile, l.message.text = "Test success."

/-- The testbench logs a failure in some cycle. -/
def LogsFailure (g : Generics) (expectedUpdates : TbArray) (reset : List (ProcOut N))
    (procs : Nat → ProcOut N) : Prop :=
  ∃ t s, simulate g expectedUpdates (stimulus reset procs t) = .ok s ∧
    ∃ l ∈ s.logFile, l.failure = true

/-- The trace of a successful simulation: matching cycles up to the end of an idle wait. -/
theorem logsSuccess_iff (hn : 0 < g.NUM_EXPECTED_UPDATES) (hidle : g.IDLE_WAIT_CYCLES = 100)
    (hquiet : ∀ p ∈ reset, (Activity.ofProc false p).count = 0)
    (hnodup : ∀ t, (Activity.ofProc true (procs t)).group.Nodup)
    (htime : NeverTimesOut g expectedUpdates reset procs) :
    LogsSuccess g expectedUpdates reset procs ↔
      ∃ u, (∀ v < u, Matches expectedUpdates g.NUM_EXPECTED_UPDATES
          (fun t => Activity.ofProc true (procs t)) v ∧
        idleBefore (fun t => Activity.ofProc true (procs t)) g.NUM_EXPECTED_UPDATES v < 100) ∧
        idleBefore (fun t => Activity.ofProc true (procs t)) g.NUM_EXPECTED_UPDATES u = 100 := by
  constructor
  · rintro ⟨t, s, hs, l, hl, hm⟩
    rw [Message.text_eq_testSuccess_iff] at hm
    obtain ⟨s', hs', hcases⟩ := simulate_outcome hn hidle hquiet hnodup htime t
    obtain rfl := Except.ok.inj (hs.symm.trans hs')
    rcases hcases with hrun | hpassed | hfailed
    · exact absurd hm (hrun.log l hl).2
    · exact hpassed.trace
    · exact absurd hm (hfailed.log l hl)
  · rintro ⟨u, hbefore, hfull⟩
    obtain ⟨s, hs, hcases⟩ := simulate_outcome hn hidle hquiet hnodup htime u
    refine ⟨u, s, hs, ?_⟩
    rcases hcases with hrun | hpassed | hfailed
    · have hlt := hrun.idle_lt u le_rfl
      omega
    · obtain ⟨l, hl, hm⟩ := hpassed.success
      exact ⟨l, hl, (Message.text_eq_testSuccess_iff _).mpr hm⟩
    · -- The failing cycle would come before the end of the wait, where every cycle matches.
      obtain ⟨w, hw, hlt, hbad⟩ := hfailed.trace
      rcases Nat.lt_trichotomy w u with hwu | rfl | huw
      · exact absurd (hbefore w hwu).1 hbad
      · omega
      · have := (hw u huw).2
        omega

/-- The trace of a failing simulation: a cycle that does not match, before the end of an idle
wait. -/
theorem logsFailure_iff (hn : 0 < g.NUM_EXPECTED_UPDATES) (hidle : g.IDLE_WAIT_CYCLES = 100)
    (hquiet : ∀ p ∈ reset, (Activity.ofProc false p).count = 0)
    (hnodup : ∀ t, (Activity.ofProc true (procs t)).group.Nodup)
    (htime : NeverTimesOut g expectedUpdates reset procs) :
    LogsFailure g expectedUpdates reset procs ↔
      ∃ u, (∀ v < u, Matches expectedUpdates g.NUM_EXPECTED_UPDATES
          (fun t => Activity.ofProc true (procs t)) v ∧
        idleBefore (fun t => Activity.ofProc true (procs t)) g.NUM_EXPECTED_UPDATES v < 100) ∧
        idleBefore (fun t => Activity.ofProc true (procs t)) g.NUM_EXPECTED_UPDATES u < 100 ∧
        ¬ Matches expectedUpdates g.NUM_EXPECTED_UPDATES
          (fun t => Activity.ofProc true (procs t)) u := by
  constructor
  · rintro ⟨t, s, hs, l, hl, hf⟩
    obtain ⟨s', hs', hcases⟩ := simulate_outcome hn hidle hquiet hnodup htime t
    obtain rfl := Except.ok.inj (hs.symm.trans hs')
    rcases hcases with hrun | hpassed | hfailed
    · rw [(hrun.log l hl).1] at hf
      cases hf
    · rw [hpassed.log l hl] at hf
      cases hf
    · exact hfailed.trace
  · rintro ⟨u, hbefore, hlt, hbad⟩
    obtain ⟨s, hs, hcases⟩ := simulate_outcome hn hidle hquiet hnodup htime (u + 1)
    refine ⟨u + 1, s, hs, ?_⟩
    rcases hcases with hrun | hpassed | hfailed
    · exact absurd (hrun.matched u (Nat.lt_succ_self u)) hbad
    · -- The wait would be over before the failing cycle.
      obtain ⟨w, hw, hfull⟩ := hpassed.trace
      rcases Nat.lt_trichotomy w u with hwu | rfl | huw
      · have := (hbefore w hwu).2
        omega
      · omega
      · exact absurd (hw u huw).1 hbad
    · exact hfailed.failure

end

end VivadoTest.Framework.Tb
