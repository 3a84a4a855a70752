import VivadoTest.Proofs.TestMonitor

/-!
# `VivadoTest.Proofs.Verdict`: the successful runs of the test monitor

The run lemma `tracks_trajectory` carries the statements about traces over to the hardware:
the status register shows a verdict one cycle after the abstract monitor gives it.

* `exists_testStatus_success_iff`: the status is ever `0x01` exactly for the successful
  tests of `VivadoTest.Spec.Trace`, when the list leaves room below the RAM depth.
* `configured`: for every RAM content and configuration, a state that follows a
  configuration with it.

## Soundness and completeness

A trace is `Accepted` when its cycles are, one by one, the next entries of the list, when the list
is completed in time, and when a hundred enabled cycles without updates follow. Soundness is that
the status `0x01` comes for no other trace, and completeness that it comes for each of these. Both
hold where the positions have room: a group of updates that begins inside the list must not run
past the end of the RAM, where the 9-bit position starts again at zero (`room_of_lt`;
`VivadoTest.Proofs.Overrun` is about the lists without room).

`threeUpdates` is an example in which two entries are taken at once, with a cycle without updates
before them.
-/

set_option autoImplicit false

namespace VivadoTest.Framework

open VivadoTest.Lib
open VivadoTest.Spec

variable {N : Nat}

/-! ### A configured monitor -/

/-- A cycle without host access in which the processor shows `p`. -/
def TestMonitorIn.ofProc (procEnable : Bool) (p : ProcOut N) : TestMonitorIn N where
  reset := false
  numExpUpdatesWeMask := 0
  numExpUpdates := 0
  expupdWe := false
  expupdByteWriteAddr := 0
  expupdWriteValue := 0
  procEnable := procEnable
  updates := p.updates
  updateWes := p.updateWes
  maxWaitTime := 0
  maxWaitTimeWeMask := 0
  readExpUpdEn := false

/-- The processor makes no update. -/
def ProcOut.quiet : ProcOut N := ⟨0, 0, 0, false, fun _ => ⟨0, false, 0⟩⟩

/-- A quiet cycle in which the host writes both configuration registers. -/
def TestMonitorIn.configWrite (n : ExpupdAddr) (T : BitVec 16) : TestMonitorIn N :=
  { TestMonitorIn.ofProc false ProcOut.quiet with
    numExpUpdatesWeMask := 3
    numExpUpdates := n
    maxWaitTime := T
    maxWaitTimeWeMask := 3 }

/-- A cycle that is only the processor's does not restart the test. -/
theorem TestMonitorIn.testReset_ofProc (en : Bool) (p : ProcOut N) :
    (TestMonitorIn.ofProc en p).testReset = false := by
  simp [testReset, ofProc]

/-- Nor has it any other access of the host. -/
theorem TestMonitorIn.ofProc_noHostAccess (en : Bool) (p : ProcOut N) :
    (TestMonitorIn.ofProc en p).NoHostAccess := ⟨rfl, testReset_ofProc en p, rfl⟩

/-- A quiet processor writes on no port. -/
theorem ProcOut.updateWes_quiet (i : Fin (N + 1)) :
    (ProcOut.quiet (N := N)).updateWes i = false := by
  cases i using Fin.cases <;> rfl

/-- The input of a quiet, disabled processor is quiet. -/
theorem TestMonitorIn.quiet_ofProc : (TestMonitorIn.ofProc (N := N) false ProcOut.quiet).Quiet :=
  ⟨rfl, ProcOut.updateWes_quiet⟩

/-- A write to the configuration alone is quiet too. -/
theorem TestMonitorIn.quiet_configWrite (n : ExpupdAddr) (T : BitVec 16) :
    (TestMonitorIn.configWrite (N := N) n T).Quiet := ⟨rfl, ProcOut.updateWes_quiet⟩

/-- A write to the configuration restarts the test. -/
theorem TestMonitorIn.testReset_configWrite (n : ExpupdAddr) (T : BitVec 16) :
    (TestMonitorIn.configWrite (N := N) n T).testReset = true := by
  simp [testReset, configWrite]

namespace TestMonitorState

/-- A reset monitor with the RAM content `ram`. -/
def blank (ram : ExpupdRam) : TestMonitorState N where
  expectedUpdatesRam := fun _ => ram
  copies := fun _ _ => rfl
  rawExpectedUpdates := fun _ => 0
  curExpUpdate := 0
  testCycleCounter := 0
  idleWaitTimer := 0
  shouldBeDone := false
  testWasDone := false
  actualUpdatesReg := fun _ => .zero
  updateWesReg := fun _ => false
  procEnableReg := false
  maxWaitTime := 0
  numExpUpdates := 0
  output := ⟨0, 0, .zero, .zero⟩

/-- The monitor after a host has configured it. -/
def configured (ram : ExpupdRam) (n : ExpupdAddr) (T : BitVec 16) : TestMonitorState N :=
  [TestMonitorIn.configWrite n T, .ofProc false .quiet, .ofProc false .quiet].foldl step (blank ram)

/-- The configured monitor is in the state that a configuration leaves. -/
theorem configured_afterConfiguration (ram : ExpupdRam) (n : ExpupdAddr) (T : BitVec 16) :
    AfterConfiguration (configured (N := N) ram n T) := by
  refine ⟨blank ram, [], [.ofProc false .quiet, .ofProc false .quiet], .configWrite n T,
    ?_, rfl, ?_, ?_, le_rfl, rfl⟩
  · intro input hm
    rcases List.mem_cons.mp hm with rfl | hm
    · exact TestMonitorIn.quiet_configWrite n T
    · rw [List.eq_of_mem_replicate (n := 2) hm]
      exact TestMonitorIn.quiet_ofProc
  · exact TestMonitorIn.testReset_configWrite n T
  · intro input hm
    rw [List.eq_of_mem_replicate (n := 2) hm]
    exact ⟨rfl, TestMonitorIn.testReset_ofProc false .quiet⟩

/-- What the configuration leaves in the RAM and in the configuration registers. -/
theorem configured_config (ram : ExpupdRam) (n : ExpupdAddr) (T : BitVec 16) :
    (configured (N := N) ram n T).expupdRam = ram ∧
      (configured (N := N) ram n T).numExpUpdates = n ∧
      (configured (N := N) ram n T).maxWaitTime = T := by
  have hbits : (3 : BitVec 2).getLsbD 0 = true ∧ (3 : BitVec 2).getLsbD 1 = true := by decide
  have hwrite : ((blank (N := N) ram).step (.configWrite n T)).expupdRam = ram ∧
      ((blank (N := N) ram).step (.configWrite n T)).numExpUpdates = n ∧
      ((blank (N := N) ram).step (.configWrite n T)).maxWaitTime = T := by
    rw [expupdRam_step, numExpUpdates_step _ _ rfl, maxWaitTime_step _ _ rfl]
    refine ⟨(blank ram).ramStep_of_not_we rfl 0, ?_, ?_⟩
    · simp only [numExpUpdatesStep, TestMonitorIn.configWrite, hbits, if_true]
      exact (BitVec.extractLsb'_append_extractLsb'_eq_extractLsb' rfl).trans
        BitVec.extractLsb'_eq_self
    · simp only [maxWaitTimeStep, TestMonitorIn.configWrite, hbits, if_true]
      exact (BitVec.extractLsb'_append_extractLsb'_eq_extractLsb' rfl).trans
        BitVec.extractLsb'_eq_self
  -- the two cycles after the write keep all three
  have hidle : ∀ s : TestMonitorState N,
      (s.step (.ofProc false .quiet)).expupdRam = s.expupdRam ∧
      (s.step (.ofProc false .quiet)).numExpUpdates = s.numExpUpdates ∧
      (s.step (.ofProc false .quiet)).maxWaitTime = s.maxWaitTime := by
    intro s
    rw [s.step_of_not_testReset rfl (TestMonitorIn.testReset_ofProc false .quiet)]
    exact ⟨rfl, rfl, rfl⟩
  have h1 := hidle ((blank ram).step (.configWrite n T))
  have h2 := hidle (((blank ram).step (.configWrite n T)).step (.ofProc false .quiet))
  rw [h1.1, h1.2.1, h1.2.2, hwrite.1, hwrite.2.1, hwrite.2.2] at h2
  exact h2

/-! ### The status register -/

/-- The status register shows the verdict of the judgement that the state tracks. -/
theorem Tracks.testStatus {ram : ExpupdRam} {n : ExpupdAddr} {T : BitVec 16} {j : Judgement N}
    {s : TestMonitorState N} (h : Tracks ram n T j s) : s.output.testStatus = j.status.code := by
  have hj := h.judged
  cases j with
  | pending p =>
    have hj : AtProgress ram p s := hj
    exact hj.testStatus
  | decided st p a =>
    have hj : AtVerdict ram st p a s := hj
    exact hj.testStatus

/-- The registers of the report hold the report of an incorrect update. -/
theorem Tracks.reports {ram : ExpupdRam} {n : ExpupdAddr} {T : BitVec 16} {p : Progress}
    {a : Activity N} {s : TestMonitorState N}
    (h : Tracks ram n T (.decided .incorrectUpdate p a) s) :
    Reports ram p.pos a s.output.unmatchedExpected s.output.badActual := by
  have hj : AtVerdict ram .incorrectUpdate p a s := h.judged
  exact hj.report rfl

section
variable {s : TestMonitorState N} {ins : Nat → TestMonitorIn N}

/-- The test status in each cycle after a configuration is the code of the judgement of the cycles
before. -/
theorem testStatus_trajectory (h : AfterConfiguration s) (hins : ∀ t, (ins t).NoHostAccess)
    (t : Nat) :
    (trajectory step s ins (t + 1)).output.testStatus
      = (judgementRam s.expupdRam s.numExpUpdates s.maxWaitTime
          (fun t => (ins t).activity) t).status.code :=
  (tracks_trajectory h hins t).testStatus

/-- The monitor shows `0x01` in some cycle exactly when the abstract monitor gives the verdict
`success`. -/
theorem exists_testStatus_iff_judgement (h : AfterConfiguration s)
    (hins : ∀ t, (ins t).NoHostAccess) :
    (∃ t, (trajectory step s ins t).output.testStatus = 0x01) ↔
      ∃ t p a, judgementRam s.expupdRam s.numExpUpdates s.maxWaitTime
        (fun t => (ins t).activity) t = .decided .success p a := by
  constructor
  · rintro ⟨t, ht⟩
    cases t with
    | zero =>
      rw [trajectory_zero, h.armed.testStatus] at ht
      exact absurd ht (by decide)
    | succ t =>
      rw [testStatus_trajectory h hins] at ht
      obtain ⟨p, a, hj⟩ :=
        Judgement.status_eq (show TestStatus.success ≠ .notDone by decide)
          (TestStatus.code_injective ht)
      exact ⟨t, p, a, hj⟩
  · rintro ⟨t, p, a, hj⟩
    refine ⟨t + 1, ?_⟩
    rw [testStatus_trajectory h hins, hj]
    rfl

/-- There is room when the list ends `RF_NUM_WRITE_PORTS` below the RAM depth. -/
theorem room_of_lt {expected : ExpupdAddr → ExpectedStateUpdate} {n : ExpupdAddr} {T : Nat}
    {acts : Nat → Activity N} (h : n = 0 ∨ n.toNat + N < 2 ^ 9) : Room expected n T acts := by
  intro t _ ht
  have hlt := ht.lt
  have hcount := (acts t).count_le
  rcases h with rfl | h
  · exact absurd hlt (Nat.not_lt_zero _)
  · omega

/-- Verdict soundness and completeness: after a configuration whose list ends
`RF_NUM_WRITE_PORTS` below the RAM depth, the status is ever `0x01` exactly for the successful
tests. -/
theorem exists_testStatus_success_iff (h : AfterConfiguration s)
    (hroom : s.numExpUpdates.toNat + N < 512) (hins : ∀ t, (ins t).NoHostAccess) :
    (∃ t, (trajectory step s ins t).output.testStatus = 0x01) ↔
      Accepted (listOf fun k => decodeUpdate (s.expupdRam k)) s.numExpUpdates.toNat
        s.maxWaitTime.toNat fun t => (ins t).activity := by
  rw [exists_testStatus_iff_judgement h hins]
  exact exists_success_iff_accepted (room_of_lt (Or.inr hroom))

end

/-- A program of three updates: a data memory write in its first cycle, nothing in the second, and
in the third a register write together with another data memory write. -/
def threeUpdates : Nat → ProcOut RF_NUM_WRITE_PORTS
  | 0 => { ProcOut.quiet with dmemAddress := 4, dmemData := 7, dmemWriteEnable := true }
  | 2 => ⟨0, 6, 9, true, fun _ => ⟨2, true, 5⟩⟩
  | _ => .quiet

/-- The RAM that expects them, the register write last. -/
def threeUpdatesRam (k : ExpupdAddr) : RawExpectedUpdate :=
  match k.toNat with
  | 0 => 1 <<< 42 ||| 4 <<< 32 ||| 7
  | 1 => 1 <<< 42 ||| 6 <<< 32 ||| 9
  | 2 => 2 <<< 32 ||| 5
  | _ => 0

/-- The program passes: its list is consumed in two of its cycles, two entries at once in the
second, and a hundred cycles later the status is `0x01`. -/
theorem exists_testStatus_success_threeUpdates :
    ∃ t, (trajectory step (configured threeUpdatesRam 3 50)
      (fun t => .ofProc true (threeUpdates t)) t).output.testStatus = 0x01 := by
  obtain ⟨hram, hn, hT⟩ := configured_config (N := RF_NUM_WRITE_PORTS) threeUpdatesRam 3 50
  have hquiet : ∀ t, 3 ≤ t → (TestMonitorIn.ofProc (N := RF_NUM_WRITE_PORTS) true
      (threeUpdates t)).activity.group = 0 := by
    intro t ht
    obtain ⟨u, rfl⟩ : ∃ u, t = u + 3 := ⟨t - 3, by omega⟩
    show (TestMonitorIn.ofProc (N := RF_NUM_WRITE_PORTS) true .quiet).activity.group = 0
    decide
  refine (exists_testStatus_success_iff (configured_afterConfiguration _ _ _) ?_
    fun _ => TestMonitorIn.ofProc_noHostAccess _ _).mpr ?_
  · rw [hn]
    decide
  · rw [hn, hT, hram]
    refine ⟨3, 103, by decide, fun t _ hdis => ?_, fun t ht _ => ?_,
      ⟨by decide, Or.inr ⟨2, rfl, rfl, by decide, by decide⟩⟩, fun t ht _ => hquiet t ht, rfl⟩
    · exact absurd hdis (by simp [TestMonitorIn.activity, TestMonitorIn.ofProc])
    -- the groups of the three cycles, one after the other
    obtain rfl | rfl | rfl : t = 0 ∨ t = 1 ∨ t = 2 := by omega
    · decide
    · decide
    · decide

end TestMonitorState

end VivadoTest.Framework
