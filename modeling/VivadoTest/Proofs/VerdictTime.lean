import VivadoTest.Proofs.Report

/-!
# `VivadoTest.Proofs.VerdictTime`: every enabled run gets a verdict

The monitor has two counters. `test_cycle_counter` is bounded by the timeout only as long as
`should_be_done` is off; `idle_wait_timer` runs only while it is on. `Bounded` relates the two,
and every cycle keeps it, whatever the host and the processor do (`Bounded.step`). A running
monitor counts every enabled cycle (`counter_or_verdict`), so it runs out of cycles.

* `TestMonitorState.verdict_in_bounded_time`: the bounds in every reachable state, the verdict
  after `max_wait_time + 102` enabled cycles, and the end of the host's polling loop.

## Where the bound comes from

`test_cycle_counter` may pass the timeout by one before the verdict. If the list is complete by
then, the monitor waits for a hundred cycles more, and one more edge registers the verdict. So a
monitor without a verdict has counted at most `max_wait_time + 101` cycles
(`timers_of_testRunning`), and `step_counter_or_verdict` makes every enabled cycle count.

The bounds hold from power-up on and not only after a configuration (`PowerUp`): only the counters
and the flags have initial values, and `Bounded` says nothing about the rest of the state.

## The host

The host polls the status register and does not know about cycles. `SerialLine.Polling` carries the
counter along its reads: each of them takes some cycles of the board, in which the processor is
enabled, so after enough reads the status is not zero and the loop ends
(`SerialLine.Polling.loop`).
-/

set_option autoImplicit false

namespace VivadoTest.Framework

open VivadoTest.Lib VivadoTest.Host

variable {N : Nat}

/-- Every verdict has a nonzero code; code 0 is `notDone`, which the host waits out. -/
theorem TestStatus.code_ne_zero {status : TestStatus} (h : status ≠ .notDone) :
    status.code ≠ 0 := by
  intro hcode
  exact h (TestStatus.code_injective hcode)

namespace TestMonitorState

/-! ### Reachable states -/

/-- The monitor before its first edge: the counters and the flags start at the leftmost values
of their types, no other signal has an initial value. -/
structure PowerUp (s : TestMonitorState N) : Prop where
  testCycleCounter : s.testCycleCounter = 0
  idleWaitTimer : s.idleWaitTimer = 0
  shouldBeDone : s.shouldBeDone = false
  testWasDone : s.testWasDone = false

/-- The state after some run from power-up. -/
def Reachable (s : TestMonitorState N) : Prop :=
  ∃ (s₀ : TestMonitorState N) (ins : List (TestMonitorIn N)),
    s₀.PowerUp ∧ s = ins.foldl step s₀

/-- The invariant of the two counters, and a verdict that the host can see. -/
structure Bounded (s : TestMonitorState N) : Prop where
  idleWaitTimer : s.idleWaitTimer ≤ 100
  shouldBeDone : 0 < s.idleWaitTimer → s.shouldBeDone = true
  testCycleCounter : s.testCycleCounter ≤ s.maxWaitTime.toNat + 1 + s.idleWaitTimer
  testStatus : s.testWasDone = true → s.output.testStatus ≠ 0

/-- A monitor without a verdict in this cycle has not waited for long, and is below the timeout
as long as the timeout counts. -/
theorem timers_of_testRunning {s : TestMonitorState N} (h : s.testDone = false) :
    s.idleWaitTimer < 100 ∧ (s.shouldBeDone = true ∨ s.testCycleCounter ≤ s.maxWaitTime.toNat) := by
  have hstatus : s.testStatus = .notDone := by
    by_contra hne
    simp [testDone, hne] at h
  unfold testStatus testTimeout at hstatus
  split_ifs at hstatus with hidle htime
  · exact absurd ‹s.checkOut.status = TestStatus.notDone› (by
      show s.checkIn.status ≠ .notDone
      unfold TestChecksIn.status
      split_ifs <;> decide)
  · refine ⟨by omega, ?_⟩
    cases hs : s.shouldBeDone with
    | true => exact Or.inl rfl
    | false => exact Or.inr (by simpa [hs] using htime)

/-- Every cycle keeps the bounds. -/
theorem Bounded.step {s : TestMonitorState N} (h : s.Bounded) (input : TestMonitorIn N) :
    (s.step input).Bounded := by
  by_cases hreset : input.reset = true
  · unfold TestMonitorState.step
    rw [if_pos hreset]
    exact ⟨by simp, by simp, by simp, by simp⟩
  rw [Bool.not_eq_true] at hreset
  by_cases htest : input.testReset = true
  · unfold TestMonitorState.step
    rw [if_neg (by rw [hreset]; exact Bool.false_ne_true)]
    exact ⟨by simp [htest], by simp [htest], by simp [htest], by simp [htest]⟩
  rw [Bool.not_eq_true] at htest
  rw [s.step_of_not_testReset hreset htest]
  obtain ⟨hidle, hsbd, hcount, hverdict⟩ := h
  -- a cycle that counts is one of a running test, which has room for one more
  have hrun : s.testRunning = true →
      s.idleWaitTimer < 100 ∧
        (s.shouldBeDone = true ∨ s.testCycleCounter ≤ s.maxWaitTime.toNat) := by
    intro hr
    refine timers_of_testRunning ?_
    simpa using (Bool.and_eq_true_iff.mp hr).2
  refine ⟨?_, ?_, ?_, ?_⟩
  · show (if s.shouldBeDone && s.testRunning then _ else _) ≤ 100
    split_ifs with hc
    · exact (hrun (Bool.and_eq_true_iff.mp hc).2).1
    · exact hidle
  · show 0 < (if s.shouldBeDone && s.testRunning then _ else _) →
      (s.shouldBeDone || decide (s.nextExpUpdate ≥ s.numExpUpdates)) = true
    split_ifs with hc
    · intro _
      rw [(Bool.and_eq_true_iff.mp hc).1, Bool.true_or]
    · intro hpos
      rw [hsbd hpos, Bool.true_or]
  · show (if s.testRunning then s.testCycleCounter + 1 else s.testCycleCounter)
      ≤ s.maxWaitTime.toNat + 1
        + (if s.shouldBeDone && s.testRunning then s.idleWaitTimer + 1 else s.idleWaitTimer)
    by_cases hr : s.testRunning = true
    · rw [if_pos hr, hr, Bool.and_true]
      -- both counters advance, or only the one that the timeout still bounds
      obtain ⟨-, hs | ht⟩ := hrun hr
      · rw [if_pos hs]
        omega
      · split_ifs <;> omega
    · rw [Bool.not_eq_true] at hr
      simp only [hr, Bool.false_eq_true, if_false, Bool.and_false]
      exact hcount
  · show (s.testWasDone || s.testDone) = true → s.outputStep.testStatus ≠ 0
    unfold outputStep
    intro hdone
    by_cases hw : s.testWasDone = true
    · rw [if_pos hw]
      exact hverdict hw
    · rw [if_neg hw]
      rw [Bool.not_eq_true] at hw
      refine TestStatus.code_ne_zero ?_
      simpa [hw, testDone] using hdone

/-- At power-up the counters are at zero, within their bounds. -/
theorem PowerUp.bounded {s : TestMonitorState N} (h : s.PowerUp) : s.Bounded := by
  obtain ⟨hcount, hidle, -, hdone⟩ := h
  exact ⟨by omega, by omega, by omega, by simp [hdone]⟩

/-- In every reachable state the counters are within their bounds. -/
theorem Reachable.bounded {s : TestMonitorState N} (h : s.Reachable) : s.Bounded := by
  obtain ⟨s₀, ins, h₀, rfl⟩ := h
  exact foldl_invariant_of_step (fun _ input hs => hs.step input) ins h₀.bounded

/-! ### Enabled cycles -/

/-- The number of cycles of the run in which the monitor's register of the processor enable is
set. -/
def enabledCycles (s : TestMonitorState N) : List (TestMonitorIn N) → Nat
  | [] => 0
  | input :: ins => (if s.procEnableReg then 1 else 0) + enabledCycles (s.step input) ins

/-- A run without a reset and without a write to a configuration register or an expected
update. -/
def NoRestart (ins : List (TestMonitorIn N)) : Prop :=
  ∀ input ∈ ins, input.reset = false ∧ input.testReset = false

/-- The first cycle of a run without restart, and the rest of the run. -/
theorem NoRestart.head {input : TestMonitorIn N} {ins : List (TestMonitorIn N)}
    (h : NoRestart (input :: ins)) :
    (input.reset = false ∧ input.testReset = false) ∧ NoRestart ins :=
  ⟨h input List.mem_cons_self, fun i hi => h i (List.mem_cons_of_mem input hi)⟩

/-- Without restart `testWasDone` stays set. -/
theorem testWasDone_foldl {s : TestMonitorState N} {ins : List (TestMonitorIn N)}
    (h : NoRestart ins) (hs : s.testWasDone = true) : (ins.foldl step s).testWasDone = true :=
  (foldl_invariant (P := Latched s.output) (fun _ _ hi hl => hl.step hi.1 hi.2) h
    ⟨hs, rfl⟩).testWasDone

/-- Without restart the configured timeout stays. -/
theorem maxWaitTime_foldl {s : TestMonitorState N} {ins : List (TestMonitorIn N)}
    (h : NoRestart ins) : (ins.foldl step s).maxWaitTime = s.maxWaitTime :=
  foldl_invariant (P := fun s' : TestMonitorState N => s'.maxWaitTime = s.maxWaitTime)
    (fun s' _ hi hs => by rw [s'.step_of_not_testReset hi.1 hi.2, hs]) h rfl

/-- In one cycle the monitor counts an enabled processor or has its verdict. -/
theorem step_counter_or_verdict (s : TestMonitorState N) {input : TestMonitorIn N}
    (hreset : input.reset = false) (htest : input.testReset = false) :
    (s.step input).testWasDone = true ∨
      (s.step input).testCycleCounter
        = s.testCycleCounter + (if s.procEnableReg then 1 else 0) := by
  rw [s.step_of_not_testReset hreset htest]
  show (s.testWasDone || s.testDone) = true ∨
    (if s.testRunning then s.testCycleCounter + 1 else s.testCycleCounter) = _
  unfold testRunning
  cases hdone : s.testDone with
  | true => exact Or.inl (Bool.or_true _)
  | false =>
    refine Or.inr ?_
    cases s.procEnableReg <;> simp

/-- A monitor that has not had a verdict has counted every enabled cycle. -/
theorem counter_or_verdict {ins : List (TestMonitorIn N)} (h : NoRestart ins)
    (s : TestMonitorState N) :
    (ins.foldl step s).testWasDone = true ∨
      (ins.foldl step s).testCycleCounter = s.testCycleCounter + s.enabledCycles ins := by
  induction ins generalizing s with
  | nil => exact Or.inr rfl
  | cons input ins ih =>
    obtain ⟨⟨hreset, htest⟩, hins⟩ := h.head
    rw [List.foldl_cons]
    cases s.step_counter_or_verdict hreset htest with
    | inl hw => exact Or.inl (testWasDone_foldl hins hw)
    | inr hc =>
      cases ih hins (s.step input) with
      | inl hw => exact Or.inl hw
      | inr hrest =>
        refine Or.inr ?_
        rw [hrest, hc, enabledCycles]
        omega

/-- The bounds leave no room for `max_wait_time + 102` enabled cycles without a verdict. -/
theorem Bounded.testWasDone_of_enabledCycles {s : TestMonitorState N} (h : s.Bounded)
    {ins : List (TestMonitorIn N)} (hins : NoRestart ins)
    (hcycles : s.maxWaitTime.toNat + 102 ≤ s.enabledCycles ins) :
    (ins.foldl TestMonitorState.step s).testWasDone = true := by
  have hend : (ins.foldl TestMonitorState.step s).Bounded :=
    foldl_invariant_of_step (fun _ input hs => hs.step input) ins h
  rcases counter_or_verdict hins s with hw | hc
  · exact hw
  · have htime := maxWaitTime_foldl (s := s) hins
    have hcount := hend.testCycleCounter
    have hidle := hend.idleWaitTimer
    rw [htime] at hcount
    omega

/-- The register follows the input by one cycle, so it loses at most the last enabled cycle. -/
theorem countP_procEnable_le {ins : List (TestMonitorIn N)} (h : NoRestart ins)
    (s : TestMonitorState N) :
    ins.countP (fun i => i.procEnable) + (if s.procEnableReg then 1 else 0)
      = s.enabledCycles ins + (if (ins.foldl step s).procEnableReg then 1 else 0) := by
  induction ins generalizing s with
  | nil => rfl
  | cons input ins ih =>
    obtain ⟨⟨hreset, htest⟩, hins⟩ := h.head
    have hreg : (s.step input).procEnableReg = input.procEnable := by
      rw [s.step_of_not_testReset hreset htest]
    have hrest := ih hins (s.step input)
    rw [hreg] at hrest
    rw [List.countP_cons, List.foldl_cons, enabledCycles]
    omega

end TestMonitorState

/-! ### The host's polling loop -/

/-- A cycle without a reset in which the host writes nothing. -/
structure BoardIn.Silent (input : BoardIn N) : Prop where
  reset : input.reset = false
  regWriteEnable : input.bus.regWriteEnable = false

/-- A cycle without a host access keeps the verdict. -/
theorem BoardIn.Silent.keepsVerdict {input : BoardIn N} (h : input.Silent) : input.KeepsVerdict :=
  ⟨h.reset, fun _ hc => absurd hc.1 (by rw [h.regWriteEnable]; exact Bool.false_ne_true)⟩

/-- A running board whose monitor has had a verdict or has counted to `c`. -/
structure Board.Counting (T c : Nat) (b : Board N) : Prop where
  processorEnable : b.processorEnable = true
  bounded : b.testMonitor.Bounded
  maxWaitTime : b.testMonitor.maxWaitTime.toNat = T
  progress : b.testMonitor.testWasDone = true ∨ c ≤ b.testMonitor.testCycleCounter

/-- The monitor counts the cycle if its register already holds the enable. -/
theorem Board.Counting.step {T c : Nat} {b : Board N} (h : b.Counting T c) {input : BoardIn N}
    (hi : input.Silent) :
    (b.step input).Counting T (c + if b.testMonitor.procEnableReg then 1 else 0) ∧
      (b.step input).testMonitor.procEnableReg = true := by
  have htest := hi.keepsVerdict.testReset b
  have hreset : (b.testMonitorIn input).reset = false := hi.reset
  have hkeep := b.testMonitor.step_of_not_testReset hreset htest
  refine ⟨⟨?_, h.bounded.step _, ?_, ?_⟩, ?_⟩
  · have henable : b.hostComm.procEnableSignal = true := h.processorEnable
    simp [Board.processorEnable, Board.step, HostComm.step, hi.reset, hi.regWriteEnable, henable]
  · show (b.testMonitor.step (b.testMonitorIn input)).maxWaitTime.toNat = T
    rw [hkeep]
    exact h.maxWaitTime
  · show (b.testMonitor.step (b.testMonitorIn input)).testWasDone = true ∨
      _ ≤ (b.testMonitor.step (b.testMonitorIn input)).testCycleCounter
    -- a verdict stays; without one the counter goes on
    cases h.progress with
    | inl hw =>
      refine Or.inl ?_
      rw [hkeep]
      show (b.testMonitor.testWasDone || _) = true
      rw [hw, Bool.true_or]
    | inr hc =>
      cases b.testMonitor.step_counter_or_verdict hi.reset htest with
      | inl hw => exact Or.inl hw
      | inr hcount =>
        refine Or.inr ?_
        rw [hcount]
        omega
  · show (b.testMonitor.step (b.testMonitorIn input)).procEnableReg = true
    rw [hkeep]
    exact h.processorEnable

/-- What has counted `c` cycles has counted fewer. -/
theorem Board.Counting.mono {T c c' : Nat} {b : Board N} (h : b.Counting T c) (hc : c' ≤ c) :
    b.Counting T c' :=
  ⟨h.processorEnable, h.bounded, h.maxWaitTime, h.progress.imp id hc.trans⟩

/-- A board that has counted past the bound has had its verdict. -/
theorem Board.Counting.testWasDone {T c : Nat} {b : Board N} (h : b.Counting T c)
    (hc : T + 102 ≤ c) : b.testMonitor.testWasDone = true := by
  cases h.progress with
  | inl hw => exact hw
  | inr hcount =>
    have hle := h.bounded.testCycleCounter
    have hidle := h.bounded.idleWaitTimer
    rw [h.maxWaitTime] at hle
    omega

/-- The status byte on the bus. -/
theorem Board.regReadData_testStatus (b : Board N) {next : BoardIn N}
    (h : next.bus.regAddress = BitVec.ofNat 16 2) :
    b.regReadData next = b.testMonitor.output.testStatus := by
  obtain ⟨reset, ⟨address, data, we, re⟩, proc⟩ := next
  obtain rfl : address = BitVec.ofNat 16 2 := h
  simp only [regReadData, HostComm.regReadData, HostBus.isAccessToRf, HostBus.isAccessToExpupd,
    decide_eq_true_eq]
  -- none of the memories
  rw [if_neg (by decide), if_neg (by decide), if_neg (by decide), if_neg (by decide)]
  rfl

end VivadoTest.Framework

namespace VivadoTest.Host

open VivadoTest.Lib VivadoTest.Framework

variable {N : Nat}

/-- A line on which the host polls a running board, with at least `n` reads to go. -/
structure SerialLine.Polling (T c n : Nat) (line : SerialLine N) : Prop where
  counting : line.board.Counting T c
  parser : line.parser.mainSm = .mainIdle
  waits : ∀ session ∈ line.sessions, ∀ i ∈ session.wait, i.Silent
  sessions : n ≤ line.sessions.length

/-- One poll: the counter gets ahead, and a board that had its verdict shows it. -/
theorem SerialLine.Polling.readByte {T c n : Nat} {line : SerialLine N}
    (h : line.Polling T c (n + 1)) :
    ∃ (testcode : Nat) (line' : SerialLine N),
      (SerialLine.readByte 2).run line = some (testcode, line') ∧ line'.Polling T (c + 1) n ∧
      (line.board.testMonitor.testWasDone = true → testcode ≠ 0) := by
  obtain ⟨board, parser, sessions⟩ := line
  obtain ⟨session, sessions, rfl⟩ : ∃ x xs, sessions = x :: xs :=
    List.exists_cons_of_length_pos (Nat.lt_of_lt_of_le (Nat.succ_pos n) h.sessions)
  obtain ⟨parser', hidle, hrun⟩ := readByte_run board h.parser session sessions 2
  have hsilent := h.waits session List.mem_cons_self
  have hwait : (session.wait.foldl Board.step board).Counting T c :=
    foldl_invariant (P := Board.Counting T c)
      (fun b i hi hb => (hb.step hi).1.mono (Nat.le_add_right c _)) hsilent h.counting
  -- the request enables the register, the cycle of the answer counts
  have hrequest : BoardIn.Silent (N := N) ⟨false, .read (BitVec.ofNat 16 2), session.request⟩ :=
    ⟨rfl, rfl⟩
  have hsampling : (sampling session (BitVec.ofNat 16 2)).Silent := ⟨rfl, rfl⟩
  obtain ⟨hrequested, hreg⟩ := hwait.step hrequest
  obtain ⟨hanswer, -⟩ := hrequested.step hsampling
  rw [hreg, if_pos rfl] at hanswer
  have hlength : n ≤ sessions.length := Nat.le_of_succ_le_succ h.sessions
  refine ⟨_, _, hrun, ⟨hanswer.mono (by omega), hidle,
    fun x hx => h.waits x (List.mem_cons_of_mem _ hx), hlength⟩, ?_⟩
  intro hdone
  have hkeep : (requested board session (BitVec.ofNat 16 2)).testMonitor.testWasDone = true := by
    have hlatched := Board.latched_foldl ⟨hdone, rfl⟩
      (fun i hi => (hsilent i hi).keepsVerdict)
    exact (hlatched.step rfl (hrequest.keepsVerdict.testReset _)).1
  have hstatus := hrequested.bounded.testStatus hkeep
  rw [Board.regReadData_testStatus _ rfl]
  intro hzero
  exact hstatus (BitVec.eq_of_toNat_eq hzero)

/-- The loop returns its argument at once when it is a test code; a fuel of any size is enough. -/
theorem firstNonzeroTestcodeLoop_of_ne_zero {m : Type → Type} [Monad m] (readByte : Nat → m Nat)
    (fuel : Nat) {testcode : Nat} (h : testcode ≠ 0) :
    HostcommProxy.firstNonzeroTestcodeLoop readByte fuel testcode = pure (some testcode) := by
  cases fuel <;> simp [HostcommProxy.firstNonzeroTestcodeLoop, h]

/-- The loop ends: `fuel` reads cover the cycles up to the bound, and one more shows the
verdict. -/
theorem SerialLine.Polling.loop {T c fuel : Nat} {line : SerialLine N}
    (h : line.Polling T c (fuel + 1)) (hfuel : T + 102 ≤ c + fuel) :
    ∃ (testcode : Nat) (line' : SerialLine N), testcode ≠ 0 ∧
      (HostcommProxy.firstNonzeroTestcodeLoop SerialLine.readByte (fuel + 1) 0).run line
        = some (some testcode, line') := by
  induction fuel generalizing c line with
  | zero =>
    obtain ⟨testcode, line', hrun, -, hdone⟩ := h.readByte
    -- enough cycles have passed for the verdict, so this poll is the last
    have hne := hdone (h.counting.testWasDone hfuel)
    refine ⟨testcode, line', hne, ?_⟩
    rw [HostcommProxy.firstNonzeroTestcodeLoop, if_pos rfl, StateT.run_bind, hrun]
    show StateT.run
      (HostcommProxy.firstNonzeroTestcodeLoop SerialLine.readByte 0 testcode) line' = _
    rw [firstNonzeroTestcodeLoop_of_ne_zero _ _ hne]
    rfl
  | succ fuel ih =>
    obtain ⟨testcode, line', hrun, hline, -⟩ := h.readByte
    rw [HostcommProxy.firstNonzeroTestcodeLoop, if_pos rfl, StateT.run_bind, hrun]
    show ∃ code line'', code ≠ 0 ∧ StateT.run (HostcommProxy.firstNonzeroTestcodeLoop
      SerialLine.readByte (fuel + 1) testcode) line' = _
    by_cases hzero : testcode = 0
    · rw [hzero]
      exact ih hline (by omega)
    · refine ⟨testcode, line', hzero, ?_⟩
      rw [firstNonzeroTestcodeLoop_of_ne_zero _ _ hzero]
      rfl

end VivadoTest.Host

namespace VivadoTest.Framework

open VivadoTest.Lib VivadoTest.Host

variable {N : Nat}

/-- The bounds hold in every reachable state. From there, `max_wait_time + 102` enabled cycles
without a restart lead to a verdict, counted by the monitor's own register of the enable; counted
at its input, the verdict is decided after as many cycles and registered one later. A host that
polls an enabled board gets a nonzero code after at most `max_wait_time + 103` reads. -/
theorem TestMonitorState.verdict_in_bounded_time {s : TestMonitorState N} (hs : s.Reachable) :
    s.idleWaitTimer ≤ 100 ∧ (0 < s.idleWaitTimer → s.shouldBeDone = true) ∧
    s.testCycleCounter ≤ s.maxWaitTime.toNat + 1 + s.idleWaitTimer ∧
    (∀ run, NoRestart run → s.maxWaitTime.toNat + 102 ≤ s.enabledCycles run →
      (run.foldl step s).testWasDone = true ∧ (run.foldl step s).output.testStatus ≠ 0) ∧
    (∀ run, NoRestart run → s.maxWaitTime.toNat + 102 ≤ run.countP (fun i => i.procEnable) →
      (run.foldl step s).testDone = true ∧
      ∀ next, next.reset = false → next.testReset = false →
        ((run.foldl step s).step next).testWasDone = true) ∧
    (∀ line : SerialLine N, line.board.testMonitor = s → line.board.processorEnable = true →
      line.parser.mainSm = .mainIdle →
      (∀ session ∈ line.sessions, ∀ i ∈ session.wait, i.Silent) →
      s.maxWaitTime.toNat + 103 ≤ line.sessions.length →
      ∃ (testcode : Nat) (line' : SerialLine N), testcode ≠ 0 ∧
        (HostcommProxy.firstNonzeroTestcode SerialLine.readByte
          (s.maxWaitTime.toNat + 102)).run line
          = some (some testcode, line')) := by
  have hbounded := hs.bounded
  have hend : ∀ run : List (TestMonitorIn N), (run.foldl step s).Bounded := fun run =>
    foldl_invariant_of_step (fun _ input hb => hb.step input) run hbounded
  refine ⟨hbounded.idleWaitTimer, hbounded.shouldBeDone, hbounded.testCycleCounter, ?_, ?_, ?_⟩
  · intro run hrun hcycles
    have hdone := hbounded.testWasDone_of_enabledCycles hrun hcycles
    exact ⟨hdone, (hend run).testStatus hdone⟩
  · intro run hrun hcycles
    -- Counted at the input, the register of the enable is one cycle late: otherwise the counter
    -- would be past its bound.
    have hdone : (run.foldl step s).testDone = true := by
      by_contra hnot
      rw [Bool.not_eq_true] at hnot
      have hwas : (run.foldl step s).testWasDone = false := (Bool.or_eq_false_iff.mp hnot).2
      have hcount :=
        (counter_or_verdict hrun s).resolve_left (by rw [hwas]; exact Bool.false_ne_true)
      have hreg := countP_procEnable_le hrun s
      have hle := (hend run).testCycleCounter
      have hidle := (timers_of_testRunning hnot).1
      rw [maxWaitTime_foldl hrun] at hle
      split_ifs at hreg <;> omega
    refine ⟨hdone, fun next hreset htest => ?_⟩
    rw [(run.foldl step s).step_of_not_testReset hreset htest]
    show (_ || (run.foldl step s).testDone) = true
    rw [hdone, Bool.or_true]
  · intro line hboard henable hparser hwaits hsessions
    subst hboard
    -- The host reads once a session, and every session lets at least one enabled cycle pass.
    have hpolling : line.Polling line.board.testMonitor.maxWaitTime.toNat 0
        (line.board.testMonitor.maxWaitTime.toNat + 102 + 1) :=
      ⟨⟨henable, hbounded, rfl, Or.inr (Nat.zero_le _)⟩, hparser, hwaits, hsessions⟩
    exact hpolling.loop (by omega)

/-- A monitor that expects three updates within ten cycles. -/
def TestMonitorState.waiting : TestMonitorState 1 := configured (fun _ => 1 <<< 42) 3 10

/-- A host that polls it, on an enabled board whose processor makes no update: each of its reads
meets three more cycles. -/
def SerialLine.polling : SerialLine 1 :=
  ⟨{ (Board.blank : Board 1) with
      hostComm := ⟨false, true, true, 0⟩
      testMonitor := TestMonitorState.waiting },
    UartParser.reset,
    List.replicate 113 ⟨List.replicate 3 (.ofBus (.idle 0)), .quiet, .quiet⟩⟩

/-- A processor that makes no update is given up on: after 113 enabled cycles the verdict is there,
and the loop of a host that polls all the while ends with it. -/
theorem TestMonitorState.verdict_in_bounded_time_waiting :
    ((List.replicate 113 (.ofProc true .quiet)).foldl step waiting).testWasDone = true ∧
    ∃ (testcode : Nat) (line' : SerialLine 1), testcode ≠ 0 ∧
      (HostcommProxy.firstNonzeroTestcode SerialLine.readByte 112).run SerialLine.polling
        = some (some testcode, line') := by
  have hreach : waiting.Reachable :=
    ⟨blank fun _ => 1 <<< 42, [.configWrite 3 10, .ofProc false .quiet, .ofProc false .quiet],
      ⟨rfl, rfl, rfl, rfl⟩, rfl⟩
  have hT : waiting.maxWaitTime.toNat = 10 :=
    congrArg BitVec.toNat (configured_config (N := 1) (fun _ => 1 <<< 42) 3 10).2.2
  obtain ⟨-, -, -, hrun, -, hpoll⟩ := verdict_in_bounded_time hreach
  rw [hT] at hrun hpoll
  -- no cycle is a reset or a configuration write
  have hrestart : NoRestart (List.replicate 113 (TestMonitorIn.ofProc (N := 1) true .quiet)) := by
    intro input hinput
    rw [List.eq_of_mem_replicate hinput]
    exact ⟨rfl, TestMonitorIn.testReset_ofProc true .quiet⟩
  refine ⟨(hrun _ hrestart ?_).1, hpoll SerialLine.polling rfl rfl rfl ?_ ?_⟩
  · -- the register of the enable misses the first of the 113 cycles
    have hcount := countP_procEnable_le hrestart waiting
    have hall : (List.replicate 113 (TestMonitorIn.ofProc (N := 1) true .quiet)).countP
        (fun i => i.procEnable) = 113 := rfl
    rw [hall] at hcount
    split_ifs at hcount <;> omega
  · intro session hsession i hi
    rw [List.eq_of_mem_replicate hsession] at hi
    rw [List.eq_of_mem_replicate hi]
    exact ⟨rfl, rfl⟩
  · decide

end VivadoTest.Framework
