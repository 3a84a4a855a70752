import VivadoTest.Proofs.Agreement
import VivadoTest.Proofs.Report

/-!
# `VivadoTest.Proofs.HostReads`: host reads beside a running test

The first expected-update RAM has one read port. While the host reads an entry, the host's
address replaces the one that the running check needs, and the next cycle compares its
updates with the host's entry. `Board.Disturbs` is the cycle in which that matters.

Two runs with the same processor and the same writes, the second with more reads, stay
equal up to the latch of that RAM (`SameRun`) until both have the same verdict (`Latched`).

* `Board.output_eq_of_not_disturbs`: without a disturbing read, the monitor shows the same.
* `Board.not_reads_invisible`: one read of an entry turns a running test into a failed one.

## The two runs

The monitors differ in the word that their first RAM has latched, and `SameRun` allows this only
where it makes no difference: in a cycle in which the processor makes no update, the first check is
idle, and a test that is over does not look at its checks at all. So the relation is kept by every
cycle but those of `Board.Disturbs`, and it has to be asked of the state before the step, where the
host's address meets a check that needs the RAM.

A read of an address that holds the same entry as the one that the check needs does not disturb
either.
-/

set_option autoImplicit false

namespace VivadoTest.Framework

open VivadoTest.Lib VivadoTest.Lib.GreedyMatch VivadoTest.Spec

variable {N : Nat}

/-! ### Checks of a cycle without updates -/

namespace TestChecksIn

variable {input input' : TestChecksIn N}

/-- Without updates no check is active, and every check reports its default. -/
theorem expectedUpdateChecksOut_of_no_update (h : ∀ i, input.updateWes i = false)
    (i : Fin (N + 1)) :
    (input.expectedUpdateChecksOut i.succ).isCheckActive = false ∧
      (input.expectedUpdateChecksOut i.succ).isExpectedUnmatched = false ∧
      (input.expectedUpdateChecksOut i.succ).badActual = input.actual (Fin.last N) := by
  have hports : ports input.updateWes = ∅ := by
    ext k
    simp [mem_ports, h k]
  have hleft : ¬ (remaining (ports input.updateWes) input.actual input.entry i.val).Nonempty := by
    rw [hports]
    intro hne
    exact absurd (hne.mono (remaining_subset _ _ _ _)) Finset.not_nonempty_empty
  refine ⟨?_, ?_, ?_⟩
  · rw [← Bool.not_eq_true, isCheckActive_iff]
    exact hleft
  · rw [← Bool.not_eq_true, isExpectedUnmatched_iff]
    exact fun hfail => hleft hfail.1
  · refine foldl_reverse_finRange_none _ _ _ fun k => ?_
    show (input.updateWes k.castSucc && _) = false
    rw [h, Bool.false_and]

/-- A cycle without updates reads only the last expected update. -/
theorem testChecks_congr_of_no_update (h : ∀ i, input.updateWes i = false)
    (hwes : input'.updateWes = input.updateWes) (hactual : input'.actual = input.actual)
    (hproc : input'.procEn = input.procEn) (hdone : input'.shouldBeDone = input.shouldBeDone)
    (hlast : input'.expected (Fin.last N) = input.expected (Fin.last N)) :
    testChecks input' = testChecks input := by
  have h' : ∀ i, input'.updateWes i = false := fun i => by rw [hwes, h]
  have hnone : input.anyUpdate = false := by
    rw [← Bool.not_eq_true, anyUpdate_iff, ports_nonempty]
    rintro ⟨i, hi⟩
    rw [h i] at hi
    exact Bool.false_ne_true hi
  have hany : input'.anyUpdate = input.anyUpdate := by
    unfold anyUpdate updateWesFold
    rw [hwes]
  -- Of all expected updates only the last one is shown, as the default of the report.
  have hunexpected : ∀ q : TestChecksIn N, (∀ i, q.updateWes i = false) →
      q.anyUnexpectedUpdate = false := by
    intro q hq
    exact q.anyUnexpectedUpdate_of_forall fun i =>
      (expectedUpdateChecksOut_of_no_update hq i).2.1
  have hfirst : ∀ q : TestChecksIn N, (∀ i, q.updateWes i = false) →
      q.firstUnmatched = (q.expected (Fin.last N), q.actual (Fin.last N)) := by
    intro q hq
    unfold firstUnmatched
    rw [foldl_reverse_finRange_none _ _ _ fun i =>
      (expectedUpdateChecksOut_of_no_update hq i.castSucc).2.1]
    exact congrArg (Prod.mk _) (expectedUpdateChecksOut_of_no_update hq (Fin.last N)).2.2
  unfold testChecks
  congr 1
  · funext i
    rw [(expectedUpdateChecksOut_of_no_update h' i).1,
      (expectedUpdateChecksOut_of_no_update h i).1]
  · unfold status
    rw [hany, hnone]
    rfl
  · unfold foundError
    rw [hany, hproc, hdone, hunexpected input' h', hunexpected input h]
  · rw [hfirst input' h', hfirst input h, hlast]
  · rw [hfirst input' h', hfirst input h, hactual]

end TestChecksIn

/-! ### Two monitors that differ in the latch of the first RAM -/

namespace TestMonitorState

/-- The monitor with another word in the latch of its first expected-update RAM. -/
def withFirstEntry (s : TestMonitorState N) (r : RawExpectedUpdate) : TestMonitorState N :=
  { s with rawExpectedUpdates := Function.update s.rawExpectedUpdates 0 r }

/-- The monitors agree in all that they do: they differ in the latch of the first RAM at
most, and by nothing the checks see if the cycle has an update to check. -/
def SameRun (s s' : TestMonitorState N) : Prop :=
  ∃ r, s' = s.withFirstEntry r ∧
    ((∃ i, s.updateWesReg i = true) → decodeUpdate r = decodeUpdate (s.rawExpectedUpdates 0))

/-- A monitor runs as itself. -/
theorem SameRun.refl (s : TestMonitorState N) : s.SameRun s := by
  refine ⟨s.rawExpectedUpdates 0, ?_, fun _ => rfl⟩
  unfold withFirstEntry
  rw [Function.update_eq_self]

/-- Two monitors in the same run show the same outputs. -/
theorem SameRun.output {s s' : TestMonitorState N} (h : s.SameRun s') : s'.output = s.output := by
  obtain ⟨r, rfl, -⟩ := h
  rfl

/-- They have the same list of expected updates. -/
theorem SameRun.expectedUpdatesRam {s s' : TestMonitorState N} (h : s.SameRun s') :
    s'.expectedUpdatesRam = s.expectedUpdatesRam := by
  obtain ⟨r, rfl, -⟩ := h
  rfl

end TestMonitorState

section
variable {s s' : TestMonitorState (N + 1)}

namespace TestMonitorState.SameRun

/-- The default pair of the report comes from the last check, which is not the first one. -/
theorem checkOut (h : s.SameRun s') : s'.checkOut = s.checkOut := by
  obtain ⟨r, rfl, hr⟩ := h
  by_cases hupdate : ∃ i, s.updateWesReg i = true
  · have hexpected : (s.withFirstEntry r).checkIn = s.checkIn := by
      unfold checkIn
      congr 1
      funext i
      show decodeUpdate (Function.update s.rawExpectedUpdates 0 r i) = _
      by_cases hi : i = 0
      · rw [hi, Function.update_self, hr hupdate]
      · rw [Function.update_of_ne hi]
    unfold TestMonitorState.checkOut
    rw [hexpected]
  · have hnone : ∀ i, s.updateWesReg i = false := by
      intro i
      rw [← Bool.not_eq_true]
      exact fun hi => hupdate ⟨i, hi⟩
    refine TestChecksIn.testChecks_congr_of_no_update hnone rfl rfl rfl rfl ?_
    show decodeUpdate (Function.update s.rawExpectedUpdates 0 r (Fin.last (N + 1))) = _
    rw [Function.update_of_ne (Fin.last_pos.ne')]
    rfl

/-- They expect the same update next. -/
theorem nextExpUpdate (h : s.SameRun s') : s'.nextExpUpdate = s.nextExpUpdate := by
  have hcheck := h.checkOut
  obtain ⟨r, rfl, -⟩ := h
  unfold TestMonitorState.nextExpUpdate
  rw [hcheck]
  rfl

/-- They are about to give the same verdict. -/
theorem testStatus (h : s.SameRun s') : s'.testStatus = s.testStatus := by
  have hcheck := h.checkOut
  have hnext := h.nextExpUpdate
  obtain ⟨r, rfl, -⟩ := h
  unfold TestMonitorState.testStatus
  rw [hcheck, hnext]
  rfl

/-- They agree on whether the test is over. -/
theorem testDone (h : s.SameRun s') : s'.testDone = s.testDone := by
  have hstatus := h.testStatus
  obtain ⟨r, rfl, -⟩ := h
  unfold TestMonitorState.testDone
  rw [hstatus]
  rfl

/-- And on whether it is running. -/
theorem testRunning (h : s.SameRun s') : s'.testRunning = s.testRunning := by
  have hdone := h.testDone
  obtain ⟨r, rfl, -⟩ := h
  unfold TestMonitorState.testRunning
  rw [hdone]
  rfl

/-- So they take the same outputs into their registers. -/
theorem outputStep (h : s.SameRun s') : s'.outputStep = s.outputStep := by
  have hstatus := h.testStatus
  have hcheck := h.checkOut
  obtain ⟨r, rfl, -⟩ := h
  unfold TestMonitorState.outputStep
  rw [hstatus, hcheck]
  rfl

/-- One cycle of both monitors on the same activity. If the words that the first RAM latches
decode alike, or the activity has no update, the monitors still agree. -/
theorem step {input input' : TestMonitorIn (N + 1)} (h : s.SameRun s')
    (hreset : input.reset = false) (htest : input.testReset = false)
    (hreset' : input'.reset = false) (htest' : input'.testReset = false)
    (hactivity : input'.activity = input.activity)
    (hentry : (∃ i, input.updateWes i = true) →
      decodeUpdate (s.expupdRam (s'.expupdReadAddr input' 0))
        = decodeUpdate (s.expupdRam (s.expupdReadAddr input 0))) :
    (s.step input).SameRun (s'.step input') := by
  have hnext := h.nextExpUpdate
  have hdone := h.testDone
  have hrunning := h.testRunning
  have houtput := h.outputStep
  obtain ⟨hproc, hupdates, hwes⟩ := Activity.mk.inj hactivity
  refine ⟨s.expupdRam (s'.expupdReadAddr input' 0), ?_, ?_⟩
  · rw [s.step_of_not_testReset hreset htest, s'.step_of_not_testReset hreset' htest']
    -- What the RAMs latch: the one word in which the monitors may differ afterwards.
    have hraw : (fun i => s'.expectedUpdatesRam i (s'.expupdReadAddr input' i))
        = Function.update (fun i => s.expectedUpdatesRam i (s.expupdReadAddr input i)) 0
            (s.expupdRam (s'.expupdReadAddr input' 0)) := by
      funext i
      rw [h.expectedUpdatesRam]
      by_cases hi : i = 0
      · rw [hi, Function.update_self]
        rfl
      · -- the other RAMs are addressed by the monitor alone
        have hpos : ¬ i.val = 0 := fun h0 => hi (Fin.ext h0)
        rw [Function.update_of_ne hi]
        unfold expupdReadAddr
        rw [if_neg fun hc => hpos hc.1, if_neg fun hc => hpos hc.1, hnext]
    -- Everything else is a function of what the two monitors share.
    rw [hraw, hnext, hdone, hrunning, houtput, hproc, hupdates, hwes]
    obtain ⟨r, rfl, -⟩ := h
    rfl
  · rw [s.step_of_not_testReset hreset htest]
    exact hentry

end TestMonitorState.SameRun
end

/-! ### Two runs of the board -/

/-- The cycle `input'` is the cycle `input`, with a read added if the host made no access. -/
structure BoardIn.ReadsAdded (input input' : BoardIn N) : Prop where
  reset : input'.reset = input.reset
  proc : input'.proc = input.proc
  write : input.bus.regWriteEnable = true → input'.bus = input.bus
  read : input.bus.regReadEnable = true → input'.bus = input.bus
  noWrite : input.bus.regWriteEnable = false → input'.bus.regWriteEnable = false

/-- An added read disturbs the test: it addresses an expected update, the test has no verdict
yet, the processor makes an update in the same cycle, and the entry that the check needs is
another one. -/
def Board.Disturbs (b : Board N) (input input' : BoardIn N) : Prop :=
  input.bus.tmExpupdRe = false ∧ input'.bus.tmExpupdRe = true ∧
    b.testMonitor.testDone = false ∧ (∃ i, input.proc.updateWes i = true) ∧
    decodeUpdate (b.testMonitor.expupdRam (b.testMonitorIn input').expupdWriteAddr)
      ≠ decodeUpdate (b.testMonitor.expupdRam b.testMonitor.nextExpUpdate)

namespace BoardIn.ReadsAdded

variable {input input' : BoardIn N}

/-- Reads do not restart a test. -/
theorem keepsVerdict (h : input.ReadsAdded input') (hi : input.KeepsVerdict) :
    input'.KeepsVerdict := by
  constructor
  · rw [h.reset]
    exact hi.reset
  · intro c hw
    have hwe : input.bus.regWriteEnable = true := by
      by_contra hnot
      rw [Bool.not_eq_true] at hnot
      exact absurd (hw.1.symm.trans (h.noWrite hnot)) (by decide)
    rw [h.write hwe] at hw
    exact hi.writes c hw

/-- The registers of the host see only its writes. -/
theorem hostComm_step (h : input.ReadsAdded input') (r : HostComm) :
    r.step input'.reset input'.bus = r.step input.reset input.bus := by
  rw [h.reset]
  cases hwe : input.bus.regWriteEnable with
  | true => rw [h.write hwe]
  | false =>
    have hwe' := h.noWrite hwe
    simp [HostComm.step, hwe, hwe']

/-- Unless the added read disturbs, the word for the next check decodes alike. -/
theorem entry_eq (h : input.ReadsAdded input') {b b' : Board N}
    (hnext : b'.testMonitor.nextExpUpdate = b.testMonitor.nextExpUpdate)
    (hdone : b.testMonitor.testDone = false) (hok : ¬ b.Disturbs input input')
    (hupdate : ∃ i, input.proc.updateWes i = true) :
    decodeUpdate (b.testMonitor.expupdRam
        (b'.testMonitor.expupdReadAddr (b'.testMonitorIn input') 0))
      = decodeUpdate (b.testMonitor.expupdRam
        (b.testMonitor.expupdReadAddr (b.testMonitorIn input) 0)) := by
  have hadded : input.bus.regReadEnable = false → input.bus.tmExpupdRe = false := by
    intro hre
    unfold HostBus.tmExpupdRe
    rw [hre, Bool.false_and]
  -- The first RAM is addressed by the host while it reads an entry, and by the monitor otherwise.
  have haddr : ∀ (c : Board N) (i : BoardIn N), c.testMonitor.expupdReadAddr (c.testMonitorIn i) 0
      = if i.bus.tmExpupdRe = true then (c.testMonitorIn i).expupdWriteAddr
        else c.testMonitor.nextExpUpdate := by
    intro c i
    unfold TestMonitorState.expupdReadAddr
    simp [Board.testMonitorIn]
  rw [haddr, haddr, hnext]
  cases hre : input.bus.regReadEnable with
  | true =>
    -- the host reads in both runs, at the same address
    rw [h.read hre]
    unfold TestMonitorIn.expupdWriteAddr Board.testMonitorIn
    rw [h.read hre]
  | false =>
    rw [if_neg (c := input.bus.tmExpupdRe = true) (by simp [hadded hre])]
    by_cases hre' : input'.bus.tmExpupdRe = true
    · rw [if_pos hre']
      by_contra hne
      exact hok ⟨hadded hre, hre', hdone, hupdate, hne⟩
    · rw [if_neg hre']

end BoardIn.ReadsAdded

namespace Board

/-- Both runs: the same host registers, and monitors that agree or have the same verdict. -/
structure SameTest (b b' : Board N) : Prop where
  hostComm : b'.hostComm = b.hostComm
  testMonitor : b.testMonitor.SameRun b'.testMonitor ∨
    ∃ o, b.testMonitor.Latched o ∧ b'.testMonitor.Latched o

/-- Two boards in the same test show the host the same outputs of the monitor. -/
theorem SameTest.output {b b' : Board N} (h : b.SameTest b') :
    b'.testMonitor.output = b.testMonitor.output := by
  rcases h.testMonitor with hsame | ⟨o, ho, ho'⟩
  · exact hsame.output
  · rw [ho.output, ho'.output]

/-- What one cycle of both runs keeps. -/
theorem SameTest.step {b b' : Board (N + 1)} (h : b.SameTest b') {input input' : BoardIn (N + 1)}
    (hi : input.KeepsVerdict) (hadd : input.ReadsAdded input') (hok : ¬ b.Disturbs input input') :
    (b.step input).SameTest (b'.step input') := by
  have hi' := hadd.keepsVerdict hi
  have htest := hi.testReset b
  have htest' := hi'.testReset b'
  refine ⟨?_, ?_⟩
  · show b'.hostComm.step _ _ = b.hostComm.step _ _
    rw [h.hostComm, hadd.hostComm_step]
  · show (b.testMonitor.step (b.testMonitorIn input)).SameRun
        (b'.testMonitor.step (b'.testMonitorIn input')) ∨ _
    rcases h.testMonitor with hsame | ⟨o, ho, ho'⟩
    · cases hdone : b.testMonitor.testDone with
      | true =>
        -- this cycle's verdict is latched by both
        refine Or.inr ⟨b.testMonitor.outputStep, ?_, ?_⟩
        · rw [Board.step, b.testMonitor.step_of_not_testReset hi.reset htest]
          exact ⟨by simp [hdone], rfl⟩
        · rw [Board.step, b'.testMonitor.step_of_not_testReset hi'.reset htest']
          exact ⟨by simp [hsame.testDone, hdone], hsame.outputStep⟩
      | false =>
        refine Or.inl (hsame.step hi.reset htest hi'.reset htest' ?_ ?_)
        · simp [TestMonitorIn.activity, testMonitorIn, processorEnable, h.hostComm, hadd.proc]
        · exact hadd.entry_eq hsame.nextExpUpdate hdone hok
    · exact Or.inr ⟨o, ho.step hi.reset htest, ho'.step hi'.reset htest'⟩

/-- Two runs of a configured board on the same processor outputs and the same writes, one with
more reads: if no added read disturbs, the monitor shows the same status, the same cycle count
and the same pair after every cycle. -/
theorem output_eq_of_not_disturbs (b : Board (N + 1)) {ins ins' : Nat → BoardIn (N + 1)}
    (hins : ∀ t, (ins t).KeepsVerdict) (hadd : ∀ t, (ins t).ReadsAdded (ins' t))
    (hok : ∀ t, ¬ (trajectory step b ins t).Disturbs (ins t) (ins' t)) (t : Nat) :
    (trajectory step b ins' t).testMonitor.output =
      (trajectory step b ins t).testMonitor.output := by
  refine SameTest.output ?_
  have hstep : ∀ (c c' : Board (N + 1)) (i i' : BoardIn (N + 1)),
      i.KeepsVerdict ∧ i.ReadsAdded i' ∧ ¬ c.Disturbs i i' → c.SameTest c' →
      (c.step i).SameTest (c'.step i') :=
    fun _ _ _ _ hok hc => hc.step hok.1 hok.2.1 hok.2.2
  exact trajectory_relation hstep (fun u => ⟨hins u, hadd u, hok u⟩) ⟨rfl, Or.inl (.refl _)⟩ t

/-- A board with a test of two expected updates, a write to data memory word `0` and a write to
register `0`, and its processor enabled. -/
def twoUpdates : Board RF_NUM_WRITE_PORTS :=
  { (Board.blank : Board RF_NUM_WRITE_PORTS) with
    hostComm := ⟨false, true, false, 0⟩
    testMonitor := .configured (Function.update (fun _ => 0) 0 (1 <<< 42)) 2 100 }

/-- The processor writes data memory word `0` in the first cycle; the host is idle. -/
def firstWrite (t : Nat) : BoardIn RF_NUM_WRITE_PORTS :=
  ⟨false, .idle 0, if t = 0 then TestMonitorState.dmemWriter else .quiet⟩

/-- The same run, in which the host reads the entry `1` in cycle `u`. -/
def firstWriteReadAt (u t : Nat) : BoardIn RF_NUM_WRITE_PORTS :=
  if t = u then { firstWrite t with bus := .read 0x2008 } else firstWrite t

/-- The host writes nothing in this run. -/
theorem keepsVerdict_firstWrite (t : Nat) : (firstWrite t).KeepsVerdict :=
  ⟨rfl, fun _ hw => absurd hw.1 Bool.false_ne_true⟩

/-- The second run is the first with one read added. -/
theorem readsAdded_firstWriteReadAt (u t : Nat) :
    (firstWrite t).ReadsAdded (firstWriteReadAt u t) := by
  unfold firstWriteReadAt
  by_cases h : t = u
  · rw [if_pos h]
    exact ⟨rfl, rfl, nofun, nofun, fun _ => rfl⟩
  · rw [if_neg h]
    exact ⟨rfl, rfl, fun _ => rfl, fun _ => rfl, fun h => h⟩

/-- In the second cycle the processor makes no update, and the read disturbs nothing. -/
theorem not_disturbs_firstWriteReadAt_one (t : Nat) :
    ¬ (trajectory step twoUpdates firstWrite t).Disturbs (firstWrite t) (firstWriteReadAt 1 t) := by
  rintro ⟨-, hre, -, ⟨i, hi⟩, -⟩
  by_cases ht : t = 1
  · subst ht
    exact absurd hi (by revert i; decide)
  · unfold firstWriteReadAt at hre
    rw [if_neg ht] at hre
    exact absurd hre Bool.false_ne_true

/-- A read in the cycle after the first write disturbs nothing. -/
theorem output_firstWriteReadAt_one :
    (trajectory step twoUpdates (firstWriteReadAt 1) 3).testMonitor.output
      = (trajectory step twoUpdates firstWrite 3).testMonitor.output :=
  output_eq_of_not_disturbs (N := 0) twoUpdates keepsVerdict_firstWrite
    (readsAdded_firstWriteReadAt 1) not_disturbs_firstWriteReadAt_one 3

/-- In the first cycle it makes the check of the write fail: without the read the test goes
on, with the read it ends with an incorrect update. -/
theorem not_reads_invisible :
    (∀ t, (firstWrite t).KeepsVerdict) ∧
      (∀ t, (firstWrite t).ReadsAdded (firstWriteReadAt 0 t)) ∧
      (trajectory step twoUpdates firstWrite 2).testMonitor.output.testStatus
        = TestStatus.notDone.code ∧
      (trajectory step twoUpdates (firstWriteReadAt 0) 2).testMonitor.output.testStatus
        = TestStatus.incorrectUpdate.code := by
  refine ⟨keepsVerdict_firstWrite, readsAdded_firstWriteReadAt 0, ?_, ?_⟩ <;> decide

end Board

end VivadoTest.Framework
