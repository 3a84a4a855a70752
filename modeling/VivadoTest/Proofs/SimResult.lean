import VivadoTest.Host.SimulationTest
import VivadoTest.Proofs.Tb
import Mathlib.Tactic.IntervalCases

/-!
# `VivadoTest.Proofs.SimResult`: the graded result of a simulation

The harness sees only the last line of the log. In the lines of one rising edge the failures
come last (`Ordered`), and the first edge with a failure is the last one of a run that stops when
`test_complete` becomes true. So the log of a run ends in one of three ways (`Outcome`).

* `simulationTest_eq_one_iff`: the result is `1` exactly when the log has a success line and no
  failure line, and a log with a failure line ends with one.

## From the log to the grade

The script prints the last line of the log and the harness looks for `Test success.` in the first
line of what it prints. Three things have to be known for that.

* The order of the lines: an edge may log several, lines of success among them (`gotExpected`), but
  never one behind a failure (`checkBranches_log`).
* The text of a line: it contains no newline, so the last line of the file is the last entry of the
  log (`LogLine.newline_not_mem_text`), and only one message ends in `Test success.`
  (`Message.testSuccess_suffix_iff`).
* A simulation that stops with an index error has logged a failure in its last edge
  (`logEach_pastEnd`), so it is graded as a failure.
-/

set_option autoImplicit false

namespace VivadoTest.Framework.Tb

open VivadoTest.Lib VivadoTest.Host

variable {N : Nat}

/-! ### The order of the lines -/

/-- The lines that one edge appends to the log: OK lines before failure lines, and a failure line
exactly when the test has failed. -/
def Ordered (log₀ log : List LogLine) (failed : Bool) : Prop :=
  ∃ ok bad, log = log₀ ++ (ok ++ bad) ∧
    (∀ l ∈ ok, l.failure = false ∧ l.message ≠ .testSuccess) ∧ (∀ l ∈ bad, l.failure = true) ∧
    (failed = true ↔ bad ≠ [])

/-- A log that has not grown is in order. -/
theorem Ordered.refl (log : List LogLine) : Ordered log log false :=
  ⟨[], [], (List.append_nil log).symm, by simp, by simp, by simp⟩

/-- The checks keep the order. -/
theorem Ordered.rule (log₀ : List LogLine) : LogRule (Ordered log₀) := by
  constructor
  · intro log failed m clockCounter _ h
    obtain ⟨ok, bad, rfl, hok, hbad, -⟩ := h
    refine ⟨ok, bad ++ [⟨true, clockCounter, m⟩], ?_, hok, ?_, by simp⟩
    · unfold logFailure
      simp only [List.append_assoc]
    · intro l hl
      cases List.mem_append.mp hl with
      | inl hl => exact hbad l hl
      | inr hl => rw [List.mem_singleton.mp hl]
  · intro log m clockCounter hm h
    obtain ⟨ok, bad, rfl, hok, hbad, hfailed⟩ := h
    -- no failure so far in this edge
    obtain rfl : bad = [] := by
      by_contra hne
      exact absurd (hfailed.mpr hne) Bool.false_ne_true
    refine ⟨ok ++ [⟨false, clockCounter, m⟩], [], ?_, ?_, by simp, by simp⟩
    · unfold logSuccess
      simp only [List.append_assoc, List.append_nil]
    · intro l hl
      cases List.mem_append.mp hl with
      | inl hl => exact hok l hl
      | inr hl =>
        rw [List.mem_singleton.mp hl]
        exact ⟨rfl, hm.1⟩

/-- A log that tells of no end. -/
def Open (log : List LogLine) : Prop :=
  ∀ l ∈ log, l.failure = false ∧ l.message ≠ .testSuccess

/-- The three ways in which the log of a run ends. -/
inductive Outcome (log : List LogLine) : Prop
  | running (h : Open log)
  | failed (init : List LogLine) (l : LogLine) (h : log = init ++ [l]) (hl : l.failure = true)
  | passed (init : List LogLine) (l : LogLine) (h : log = init ++ [l]) (hl : l.failure = false)
      (hmessage : l.message = .testSuccess) (hinit : ∀ l ∈ init, l.failure = false)

/-- A log that grew in order and without a failure is still open. -/
theorem Ordered.open {log₀ log : List LogLine} (h : Ordered log₀ log false) (h₀ : Open log₀) :
    Open log := by
  obtain ⟨ok, bad, rfl, hok, -, hfailed⟩ := h
  obtain rfl : bad = [] := by
    by_contra hne
    exact absurd (hfailed.mpr hne) Bool.false_ne_true
  intro l hl
  rw [List.append_nil] at hl
  exact (List.mem_append.mp hl).elim (h₀ l) (hok l)

/-- A log that grew in order with a failure has its outcome: the failing line is the last one. -/
theorem Ordered.failed {log₀ log : List LogLine} (h : Ordered log₀ log true) : Outcome log := by
  obtain ⟨ok, bad, rfl, -, hbad, hfailed⟩ := h
  obtain ⟨init, l, rfl⟩ : ∃ init l, bad = init ++ [l] :=
    (List.eq_nil_or_concat' bad).resolve_left (hfailed.mp rfl)
  exact .failed (log₀ ++ (ok ++ init)) l (by simp only [List.append_assoc])
    (hbad l (List.mem_append_right init List.mem_cons_self))

/-! ### One rising edge -/

/-- The process before the test has ended. -/
structure Undecided (s : TbState) : Prop where
  testComplete : s.testComplete = false
  testFailed : s.testFailed = false
  log : Open s.logFile

/-- A disabled processor makes updates on some ports: the loop logs one entry too many. -/
theorem logEach_gotWhileDisabled (clockCounter : Nat) {num : Nat} (updates : TbArray)
    {R : List LogLine → Bool → Prop} (hR : LogRule R) {log : List LogLine} (h : R log false)
    (hnum : num < N + 1) :
    ∃ log', logEach N clockCounter .gotWhileDisabled updates (List.range' 0 (num + 1)) log
        = .ok log' ∧ R log' true := by
  have hmessage : ∀ u, Message.gotWhileDisabled u ≠ .testSuccess ∧
      Message.gotWhileDisabled u ≠ .testTimeout := fun _ => ⟨nofun, nofun⟩
  have hindices : ∀ i ∈ List.range' 0 (num + 1), i < N + 1 := by
    intro i hi
    have := (List.mem_range'_1.mp hi).2
    omega
  obtain ⟨log', hlog', hordered⟩ := logEach_spec clockCounter hmessage updates hR hindices h
  refine ⟨log', hlog', ?_⟩
  rwa [List.range'_succ] at hordered

/-- A disabled processor makes updates on all ports: the entry too many is past the array. -/
theorem logEach_pastEnd {clockCounter num : Nat} {message : ExpectedStateUpdate → Message}
    {updates : TbArray} {log log' : List LogLine} (hnum : num = N + 1)
    (h : logEach N clockCounter message updates (List.range' 0 num) log = .ok log') :
    logEach N clockCounter message updates (List.range' 0 (num + 1)) log = .error ⟨num⟩ := by
  have hread : readAt (N + 1) updates num = .error ⟨num⟩ := if_neg (by omega)
  unfold logEach at h ⊢
  rw [List.range'_1_concat, List.foldlM_append, h]
  simp only [bind, Except.bind, List.foldlM_cons, Nat.zero_add, hread]

/-- The branches of the process: an ordered log, the end of the idle wait, or the index error of
a disabled processor that makes updates on all ports. -/
theorem checkBranches_log {g : Generics} {expectedUpdates : TbArray} {s : TbState}
    (hs : Undecided s) (hnum : s.numUpdates ≤ N + 1) (en : Bool) :
    (∃ s', checkBranches N g expectedUpdates s en = .ok s' ∧
      ((s'.testComplete = false ∧ Ordered s.logFile s'.logFile s'.testFailed) ∨
        s'.testComplete = true ∧ ∃ k, s'.logFile = logSuccess s.clockCounter .testSuccess
          (logSuccess s.clockCounter (.waited k) s.logFile))) ∨
    (∃ e log, checkBranches N g expectedUpdates s en = .error e ∧
      logEach N s.clockCounter .gotWhileDisabled s.currentUpdates (List.range' 0 s.numUpdates)
        s.logFile = .ok log ∧ Ordered s.logFile log true) := by
  have hrule := Ordered.rule s.logFile
  have hrefl := Ordered.refl s.logFile
  -- One case for each branch of the process, in its order.
  by_cases hdone : g.NUM_EXPECTED_UPDATES ≤ s.updateI
  · refine Or.inl ?_
    by_cases hzero : s.numUpdates = 0
    · rw [checkBranches_idle expectedUpdates en hdone hzero]
      unfold checkTestComplete
      by_cases hidle : s.idleCounter + 1 ≥ g.IDLE_WAIT_CYCLES
      · rw [if_pos hidle]
        exact ⟨_, rfl, Or.inr ⟨rfl, _, rfl⟩⟩
      · rw [if_neg hidle]
        exact ⟨_, rfl, Or.inl ⟨rfl, hrefl⟩⟩
    · obtain ⟨log, hlog, hordered⟩ :=
        checkBranches_additional expectedUpdates en hdone hnum hzero hrule hrefl
      exact ⟨_, hlog, Or.inl ⟨hs.testComplete, hordered⟩⟩
  have hmore : s.updateI < g.NUM_EXPECTED_UPDATES := not_le.mp hdone
  by_cases hpos : 0 < s.numUpdates
  · cases en with
    | true =>
      refine Or.inl ?_
      obtain ⟨b, log, hb, hlog, -⟩ := checkUpdatesIncorrect_crossesOff g s.clockCounter s.updateI
        expectedUpdates hnum s.currentUpdates s.logFile
      rw [checkBranches_compare expectedUpdates hmore hpos hb]
      exact ⟨_, rfl, Or.inl ⟨hs.testComplete, hlog _ hrule hrefl⟩⟩
    | false =>
      rw [checkBranches_disabled expectedUpdates hmore hpos]
      rcases hnum.lt_or_eq with hlt | hfull
      · obtain ⟨log, hlog, hordered⟩ := logEach_gotWhileDisabled s.clockCounter s.currentUpdates
          hrule hrefl hlt
        rw [hlog]
        exact Or.inl ⟨_, rfl, Or.inl ⟨hs.testComplete, hordered⟩⟩
      · -- The last index of the loop is one past the array.
        obtain ⟨num, hnum'⟩ : ∃ num, s.numUpdates = num + 1 := ⟨N, hfull⟩
        obtain ⟨log, hlog, hordered⟩ := logEach_gotWhileDisabled s.clockCounter s.currentUpdates
          hrule hrefl (show num < N + 1 by omega)
        rw [← hnum'] at hlog
        rw [logEach_pastEnd hfull hlog]
        exact Or.inr ⟨_, log, rfl, hlog, hordered⟩
  · refine Or.inl ?_
    rw [checkBranches_wait expectedUpdates en hmore (by omega)]
    by_cases htime : s.clockCounter ≥ g.TEST_TIMEOUT_CYCLES
    · rw [if_pos htime]
      refine ⟨_, rfl, Or.inl ⟨hs.testComplete, [], [⟨true, s.clockCounter, .testTimeout⟩], rfl,
        by simp, by simp, by simp⟩⟩
    · rw [if_neg htime]
      refine ⟨_, rfl, Or.inl ⟨hs.testComplete, ?_⟩⟩
      rw [hs.testFailed]
      exact hrefl

/-! ### Runs -/

/-- A run that stops when `test_complete` becomes true has one of the three outcomes. -/
theorem outcome_runLog (g : Generics) (expectedUpdates : TbArray)
    (cycles : List (Bool × ProcOut N)) {s : TbState} (hs : Undecided s) :
    Outcome (runLog g expectedUpdates s cycles) := by
  induction cycles generalizing s with
  | nil => exact .running hs.log
  | cons cycle cycles ih =>
    unfold runLog
    rw [if_neg (by rw [hs.testComplete]; exact Bool.false_ne_true)]
    obtain ⟨v, hv, hnum, -⟩ := readCurrentUpdates_spec s.currentUpdates cycle.1 cycle.2
    have hle : v.2 ≤ N + 1 := by
      rw [hnum]
      exact (Spec.Activity.ofProc cycle.1 cycle.2).count_le
    -- Reading the updates of the cycle logs nothing.
    have hread : Undecided { s with currentUpdates := v.1, numUpdates := v.2 } :=
      ⟨hs.testComplete, hs.testFailed, hs.log⟩
    unfold checkExpectedUpdates
    rw [hv]
    rcases @checkBranches_log N g expectedUpdates _ hread hle cycle.1 with
      ⟨s', hs', hlog⟩ | ⟨e, log, herror, hlog, hordered⟩
    · simp only [bind, Except.bind, hs', pure, Except.pure]
      rcases hlog with ⟨hcomplete, hordered⟩ | ⟨hcomplete, k, hlog⟩
      · cases hfailed : s'.testFailed with
        | false =>
          rw [hfailed] at hordered
          exact ih ⟨by simp [hcomplete], rfl, hordered.open hs.log⟩
        | true =>
          -- the failing edge is the last one
          rw [hfailed] at hordered
          cases cycles with
          | nil => exact hordered.failed
          | cons next rest =>
            unfold runLog
            rw [if_pos (by simp)]
            exact hordered.failed
      · -- the success line ends the run
        have hpassed : Outcome s'.logFile := by
          rw [hlog]
          refine .passed _ _ rfl rfl rfl fun l hl => ?_
          cases List.mem_append.mp hl with
          | inl hl => exact (hs.log l hl).1
          | inr hl => rw [List.mem_singleton.mp hl]
        cases cycles with
        | nil => exact hpassed
        | cons next rest =>
          unfold runLog
          rw [if_pos (by simp [hcomplete])]
          exact hpassed
    -- An index error leaves what was logged before it, a failure in the end.
    · simp only [bind, Except.bind, herror]
      have hlast : logAtError s cycle.2 = log := by
        unfold logAtError
        simp only [hv, bind, Except.bind, hlog]
      rw [hlast]
      exact hordered.failed

/-! ### The text of a line -/

/-- A hexadecimal digit is neither a full stop nor a newline. -/
theorem toHchar_ne (nibble : Nat) : toHchar nibble ≠ '.' ∧ toHchar nibble ≠ '\n' := by
  unfold toHchar
  by_cases h : nibble < 16
  · interval_cases nibble <;> decide
  · have hdefault : "0123456789ABCDEF".toList.getD nibble 'X' = 'X' := by
      rw [List.getD_eq_getElem?_getD, List.getElem?_eq_none (by simpa using h)]
      rfl
    rw [hdefault]
    decide

/-- The text of a vector: `0x` and its digits from the top. -/
theorem toList_toHstring {w : Nat} (vector : BitVec w) :
    (toHstring vector).toList = "0x".toList ++ ((List.range (max 1 ((w + 3) / 4))).reverse.map
      fun j => toHchar (vector.toNat / 16 ^ j % 16)) := by
  unfold toHstring
  rw [String.toList_append]
  congr 1
  exact String.toList_ofList

/-- A hexadecimal string ends in a digit. -/
theorem toHstring_eq {w : Nat} (vector : BitVec w) :
    ∃ pre nibble, (toHstring vector).toList = pre ++ [toHchar nibble] := by
  obtain ⟨k, hk⟩ : ∃ k, max 1 ((w + 3) / 4) = k + 1 := ⟨max 1 ((w + 3) / 4) - 1, by omega⟩
  refine ⟨"0x".toList ++ ((List.range k).reverse.map fun j =>
    toHchar (vector.toNat / 16 ^ (j + 1) % 16)), vector.toNat % 16, ?_⟩
  rw [toList_toHstring, hk, List.range_succ_eq_map, List.reverse_cons, List.map_append,
    ← List.map_reverse, List.map_map, List.append_assoc]
  simp

/-- No newline in a vector's text. -/
theorem newline_not_mem_toHstring {w : Nat} (vector : BitVec w) :
    '\n' ∉ (toHstring vector).toList := by
  rw [toList_toHstring, List.mem_append, not_or]
  refine ⟨by decide, fun h => ?_⟩
  obtain ⟨j, -, hj⟩ := List.mem_map.mp h
  exact (toHchar_ne _).2 hj

/-- No newline in a number's text. -/
theorem newline_not_mem_toString (n : Nat) : '\n' ∉ (toString n).toList := by
  have hrepr : (toString n).toList = Nat.toDigits 10 n := Nat.toList_repr
  rw [hrepr]
  exact (spells_toDigits (by decide) (by decide) n).not_mem (by decide)

/-- No newline in an update's text. -/
theorem newline_not_mem_updateToString (u : ExpectedStateUpdate) :
    '\n' ∉ (updateToString u).toList := by
  unfold updateToString
  cases u.dest <;>
    simp only [String.toList_append, List.mem_append, not_or, newline_not_mem_toHstring,
      newline_not_mem_toString] <;> decide

/-- Each entry of the log is one line. -/
theorem LogLine.newline_not_mem_text (l : LogLine) : '\n' ∉ l.text.toList := by
  obtain ⟨failure, cycle, m⟩ := l
  have hm : '\n' ∉ m.text.toList := by
    cases m <;> unfold Message.text <;>
      simp only [String.toList_append, List.mem_append, not_or, newline_not_mem_updateToString,
        newline_not_mem_toString] <;> decide
  have htag : ∀ failure : Bool, '\n' ∉
      (if failure then "[FAILURE] In cycle " else "[OK] In cycle ").toList := by decide
  unfold LogLine.text
  rw [String.toList_append, String.toList_append, String.toList_append, List.mem_append,
    List.mem_append, List.mem_append, not_or, not_or, not_or]
  exact ⟨⟨⟨htag failure, newline_not_mem_toString cycle⟩, by decide⟩, hm⟩

/-- Of all messages only that of success ends in its text. -/
theorem Message.testSuccess_suffix_iff (pre : List Char) (m : Message) :
    "Test success.".toList <:+ pre ++ m.text.toList ↔ m = .testSuccess := by
  -- a message that ends in a digit does not end in a full stop
  have hdigit : ∀ (pre : List Char) {w : Nat} (vector : BitVec w),
      ¬ "Test success.".toList <:+ pre ++ (toHstring vector).toList := by
    intro pre w vector h
    obtain ⟨digits, nibble, hend⟩ := toHstring_eq vector
    have hstop : ['.'] <:+ pre ++ (toHstring vector).toList :=
      List.IsSuffix.trans ⟨"Test success".toList, rfl⟩ h
    have hlast : [toHchar nibble] <:+ pre ++ (toHstring vector).toList :=
      ⟨pre ++ digits, by rw [hend, List.append_assoc]⟩
    have heq := (List.suffix_of_suffix_length_le hstop hlast le_rfl).eq_of_length rfl
    exact (toHchar_ne nibble).1 (List.cons.inj heq).1.symm
  -- a message with another fixed end
  have hfixed : ∀ s tail : String, 13 ≤ tail.toList.length →
      ¬ "Test success.".toList <:+ tail.toList →
      ¬ "Test success.".toList <:+ pre ++ (s ++ tail).toList := by
    intro s tail hlen hno h
    rw [String.toList_append, ← List.append_assoc] at h
    exact hno (List.suffix_of_suffix_length_le h (List.suffix_append _ _) hlen)
  have hupdate : ∀ (s : String) (u : ExpectedStateUpdate),
      ¬ "Test success.".toList <:+ pre ++ (s ++ updateToString u).toList := by
    intro s u
    rw [String.toList_append, ← List.append_assoc]
    unfold updateToString
    cases u.dest with
    | dmemUpdate =>
      rw [String.toList_append, ← List.append_assoc]
      exact hdigit _ u.value
    | regfileUpdate =>
      rw [String.toList_append, ← List.append_assoc]
      exact hdigit _ u.value
  cases m with
  | testSuccess => exact ⟨fun _ => rfl, fun _ => List.suffix_append pre _⟩
  | testTimeout =>
    have hne : Message.testTimeout ≠ .testSuccess := nofun
    exact iff_of_false (hfixed "" "Test timeout." (by decide) (by decide)) hne
  | unexpectedAdditional u =>
    have hne : Message.unexpectedAdditional u ≠ .testSuccess := nofun
    exact iff_of_false (hupdate "Unexpected additional " u) hne
  | gotExpected u =>
    have hne : Message.gotExpected u ≠ .testSuccess := nofun
    exact iff_of_false (hupdate "Got expected " u) hne
  | expectedNext e a =>
    have hne : Message.expectedNext e a ≠ .testSuccess := nofun
    exact iff_of_false (hupdate ("Expected next " ++ updateToString e ++ " but got ") a) hne
  | gotWhileDisabled u =>
    have hne : Message.gotWhileDisabled u ≠ .testSuccess := nofun
    exact iff_of_false (hfixed ("Got " ++ updateToString u) " while processor was disabled."
      (by decide) (by decide)) hne
  | waited k =>
    have hne : Message.waited k ≠ .testSuccess := nofun
    exact iff_of_false (hfixed ("Waited " ++ toString k) " cycles, got no unexpected updates."
      (by decide) (by decide)) hne

/-! ### The graded result -/

/-- A log without lines is not graded. -/
theorem simulationTest_nil (names : TbCfgNames) :
    simulationTest (runTbCfg names [] (some (logText []))) [] = 0 := by
  have hout : runTbCfg names [] (some (logText [])) = "Log file ".toList ++ names.logFile ++
      " empty - simulation probably crashed.  Check ".toList ++ names.xsimStdoutLog ++
      " for details.\n".toList := rfl
  have hmem : '\n' ∈ "Log file ".toList ++ names.logFile ++
      " empty - simulation probably crashed.  Check ".toList ++ names.xsimStdoutLog ++
      " for details.\n".toList := List.mem_append_right _ (by decide)
  unfold simulationTest
  rw [hout]
  simp only [ne_eq, not_true_eq_false, if_false, firstLine, if_pos hmem]
  rfl

/-- The last line is graded. -/
theorem simulationTest_append (names : TbCfgNames) (init : List LogLine) (l : LogLine) :
    simulationTest (runTbCfg names [] (some (logText (init ++ [l])))) [] = 1 ↔
      l.failure = false ∧ l.message = .testSuccess := by
  have hline := l.newline_not_mem_text
  -- `tail -1` gives the line `l`, and `tb_cfg` prints it when it is not empty.
  have htail : tailLine (logText (init ++ [l])) = l.text.toList := by
    unfold tailLine logText
    rw [textLines_unlines, List.map_append]
    · simp
    · intro line hmem
      obtain ⟨l', -, rfl⟩ := List.mem_map.mp hmem
      exact l'.newline_not_mem_text
  have htext : l.text.toList
      = (if l.failure then "[FAILURE] In cycle " else "[OK] In cycle ").toList ++
        (toString l.cycle).toList ++ ": ".toList ++ l.message.text.toList := by
    unfold LogLine.text
    simp only [String.toList_append]
  have hne : l.text.toList ≠ [] := by
    rw [htext]
    cases l.failure <;> simp
  have hout : runTbCfg names [] (some (logText (init ++ [l]))) = l.text.toList ++ ['\n'] := by
    simp [runTbCfg, htail, hne]
  -- No line of the log contains a newline, so the first line of the output is all of it.
  have hfirst : firstLine (l.text.toList ++ ['\n']) = l.text.toList := by
    unfold firstLine
    rw [if_pos (by simp), List.takeWhile_append_of_pos]
    · simp
    · intro c hc
      have hcn : c ≠ '\n' := ne_of_mem_of_not_mem hc hline
      simpa using hcn
  have hsuffix : "Test success.".toList.isSuffixOf l.text.toList = true
      ↔ l.message = .testSuccess := by
    rw [List.isSuffixOf_iff_suffix, htext]
    exact l.message.testSuccess_suffix_iff _
  have hprefix : "[OK]".toList.isPrefixOf l.text.toList = !l.failure := by
    rw [htext]
    cases l.failure <;> rfl
  -- What is left are the two tests on that line, `[OK]` and `Test success.`.
  unfold simulationTest
  rw [hout]
  simp only [ne_eq, not_true_eq_false, if_false, hfirst, hprefix]
  cases l.failure with
  | true =>
    rw [if_neg (by decide), ite_self]
    exact iff_of_false (by decide) fun h => absurd h.1 (by decide)
  | false =>
    rw [← hsuffix, if_pos (by decide)]
    generalize "Test success.".toList.isSuffixOf l.text.toList = success
    cases success <;> decide

/-- The result of `simulation_test` is the result of the process: it is `1` exactly when the
process has logged success and no failure, and a log with a failure ends with one. -/
theorem simulationTest_eq_one_iff (g : Generics) (expectedUpdates : TbArray) (names : TbCfgNames)
    (cycles : List (Bool × ProcOut N)) :
    (simulationTest (runTbCfg names [] (some (logText (runLog g expectedUpdates {} cycles)))) [] = 1
      ↔ (∃ l ∈ runLog g expectedUpdates {} cycles, l.message.text = "Test success.") ∧
        ∀ l ∈ runLog g expectedUpdates {} cycles, l.failure = false) ∧
    ((∃ l ∈ runLog g expectedUpdates {} cycles, l.failure = true) →
      ∃ l, (runLog g expectedUpdates {} cycles).getLast? = some l ∧ l.failure = true) := by
  have hinit : Undecided {} := ⟨rfl, rfl, fun l hl => absurd hl List.not_mem_nil⟩
  have houtcome := outcome_runLog g expectedUpdates cycles hinit
  -- Only the three ways in which a log can end matter from here on.
  generalize runLog g expectedUpdates {} cycles = log at houtcome ⊢
  cases houtcome with
  | running h =>
    constructor
    · refine iff_of_false ?_ fun hsuccess => ?_
      · cases log using List.reverseRecOn with
        | nil =>
          rw [simulationTest_nil]
          decide
        | append_singleton init l =>
          rw [simulationTest_append]
          exact fun hl => (h l (by simp)).2 hl.2
      · obtain ⟨⟨l, hl, hmessage⟩, -⟩ := hsuccess
        exact (h l hl).2 (l.message.text_eq_testSuccess_iff.mp hmessage)
    · rintro ⟨l, hl, hfailure⟩
      rw [(h l hl).1] at hfailure
      exact absurd hfailure Bool.false_ne_true
  | failed init l h hl =>
    subst h
    constructor
    · rw [simulationTest_append]
      refine iff_of_false (fun hgood => ?_) fun hgood => ?_
      · rw [hgood.1] at hl
        exact absurd hl Bool.false_ne_true
      · rw [hgood.2 l (by simp)] at hl
        exact absurd hl Bool.false_ne_true
    · exact fun _ => ⟨l, by simp, hl⟩
  | passed init l h hl hmessage hinit =>
    subst h
    have hall : ∀ x ∈ init ++ [l], x.failure = false := by
      intro x hx
      cases List.mem_append.mp hx with
      | inl hx => exact hinit x hx
      | inr hx => rw [List.mem_singleton.mp hx, hl]
    constructor
    · rw [simulationTest_append]
      refine iff_of_true ⟨hl, hmessage⟩ ⟨⟨l, by simp, ?_⟩, hall⟩
      rw [hmessage]
      rfl
    · rintro ⟨x, hx, hfailure⟩
      rw [hall x hx] at hfailure
      exact absurd hfailure Bool.false_ne_true

end VivadoTest.Framework.Tb
