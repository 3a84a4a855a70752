import VivadoTest.Proofs.Tb
import VivadoTest.Proofs.Verdict

/-!
# `VivadoTest.Proofs.Agreement`: the testbench and the test monitor agree

Both checkers follow the counts of the same trace. Where no timeout fires, a cycle passes the
test monitor exactly when it matches for the testbench and the idle wait is not over
(`passes_iff_matches`), so both give the same kind of verdict (`testbench_agrees`).

The two checkers are not built alike. The testbench compares a sequence with a slice of an array
and stops in the cycle of a failure; the monitor runs a check chain on registered inputs and shows
its status a cycle later. What they have in common is the trace of the processor's activity, and
`VivadoTest.Proofs.Tb` and `VivadoTest.Proofs.Verdict` describe both of them on it
(`exists_success_iff_matches`, `exists_failure_iff_matches` for the monitor, `logsSuccess_iff`,
`logsFailure_iff` for the testbench).

They differ where a timeout fires, in how they count cycles, and on equal updates in one cycle. So
the agreement is about lists without a timeout on either side (`NoTimeout`, `NeverTimesOut`), up to
the length for which the monitor has room, and one register write port.
-/

set_option autoImplicit false

namespace VivadoTest.Framework.TestMonitorState

open VivadoTest.Lib
open VivadoTest.Spec
open VivadoTest.Framework.Tb

variable {N : Nat}

section
variable {expected : ExpupdAddr → ExpectedStateUpdate} {n : ExpupdAddr} {T : Nat}
  {acts : Nat → Activity N}

/-- The abstract monitor never gives the verdict `timeout`. -/
def NoTimeout (expected : ExpupdAddr → ExpectedStateUpdate) (n : ExpupdAddr) (T : Nat)
    (acts : Nat → Activity N) : Prop :=
  ∀ t p a, judgement expected n T acts t ≠ .decided .timeout p a

/-- Without a timeout verdict, passing cycles lead to a cycle in time. -/
theorem in_time_of_noTimeout (htime : NoTimeout expected n T acts) {t : Nat}
    (hpass : ∀ u < t, Passes (listOf expected) n.toNat T acts u)
    (hidle : idleBefore acts n.toNat t < 100) :
    updatesBefore acts t = n.toNat ∨ enabledBefore acts t ≤ T := by
  by_contra hnot
  rw [not_or, not_le] at hnot
  refine htime (t + 1) (progressAt n.toNat acts t) (acts t) ?_
  rw [judgement_succ, judgement_of_passes hpass]
  exact judge_eq_timeout _ _ _ hidle hnot.2 (decide_eq_false hnot.1)

/-- For an enabled processor and without a timeout verdict, cycles pass as long as they match
and the idle wait is not over. -/
theorem passes_iff_matches (hen : ∀ t, (acts t).procEnable = true)
    (htime : NoTimeout expected n T acts) (t : Nat) :
    (∀ u < t, Passes (listOf expected) n.toNat T acts u) ↔
      ∀ u < t, Matches (listOf expected) n.toNat acts u ∧ idleBefore acts n.toNat u < 100 := by
  constructor
  · intro h u hu
    exact ⟨⟨(h u hu).fits, (h u hu).group⟩, (h u hu).idle⟩
  · intro h
    induction t with
    | zero => exact fun u hu => absurd hu (Nat.not_lt_zero u)
    | succ t ih =>
      have hprev := ih fun u hu => h u (Nat.lt_succ_of_lt hu)
      obtain ⟨⟨hfits, hgroup⟩, hidle⟩ := h t (Nat.lt_succ_self t)
      intro u hu
      rcases Nat.lt_succ_iff_lt_or_eq.mp hu with hlt | rfl
      · exact hprev u hlt
      · refine ⟨hidle, in_time_of_noTimeout htime hprev hidle, ?_, hgroup, hfits⟩
        rcases Nat.eq_zero_or_pos (acts u).count with hzero | hpos
        · exact Or.inl hzero
        · exact Or.inr ⟨hen u, by omega⟩

/-- The traces on which the abstract monitor gives the verdict `success`. -/
theorem exists_success_iff_matches (hroom : Room expected n T acts)
    (hen : ∀ t, (acts t).procEnable = true) (htime : NoTimeout expected n T acts) :
    (∃ t p a, judgement expected n T acts t = .decided .success p a) ↔
      ∃ u, (∀ v < u, Matches (listOf expected) n.toNat acts v ∧
          idleBefore acts n.toNat v < 100) ∧ idleBefore acts n.toNat u = 100 := by
  rw [exists_success_iff hroom]
  constructor
  · rintro ⟨t, hpass, hfull⟩
    refine ⟨t, (passes_iff_matches hen htime t).mp hpass, ?_⟩
    cases t with
    | zero => exact absurd hfull (Nat.not_succ_le_zero 99)
    | succ t =>
      have hlt := (hpass t (Nat.lt_succ_self t)).idle
      have hstep : idleBefore acts n.toNat (t + 1) ≤ idleBefore acts n.toNat t + 1 :=
        Nat.add_le_add_left (Bool.toNat_le _) _
      omega
  · rintro ⟨u, hbefore, hfull⟩
    exact ⟨u, (passes_iff_matches hen htime u).mpr hbefore, le_of_eq hfull.symm⟩

/-- The traces on which the abstract monitor gives a failing verdict. -/
theorem exists_failure_iff_matches (hroom : Room expected n T acts)
    (hen : ∀ t, (acts t).procEnable = true) (htime : NoTimeout expected n T acts) :
    (∃ t st p a, st ≠ .success ∧ judgement expected n T acts t = .decided st p a) ↔
      ∃ u, (∀ v < u, Matches (listOf expected) n.toNat acts v ∧
          idleBefore acts n.toNat v < 100) ∧ idleBefore acts n.toNat u < 100 ∧
        ¬ Matches (listOf expected) n.toNat acts u := by
  constructor
  · rintro ⟨t, st, p, a, hst, h⟩
    obtain ⟨u, -, hpass, hdec⟩ := exists_judge_of_judgement_eq_decided hroom h
    -- After a full idle wait the verdict would be `success`.
    have hidle : idleBefore acts n.toNat u < 100 := by
      by_contra hfull
      have hsucc := (judge_eq_success_iff expected n T).mpr
        (show (progressAt n.toNat acts u).idle ≥ 100 ∧ progressAt n.toNat acts u = _ ∧
          acts u = _ from
          ⟨not_lt.mp hfull, rfl, rfl⟩)
      rw [hdec] at hsucc
      cases hsucc
      exact hst rfl
    refine ⟨u, (passes_iff_matches hen htime u).mp hpass, hidle, fun hm => ?_⟩
    -- If the cycle matched, it would pass, and there would be no verdict in it.
    have hall := (passes_iff_matches hen htime (u + 1)).mpr fun v hv => by
      rcases Nat.lt_succ_iff_lt_or_eq.mp hv with hlt | rfl
      · exact (passes_iff_matches hen htime u).mp hpass v hlt
      · exact ⟨hm, hidle⟩
    have hpending := (judge_progressAt_iff (updatesBefore_le_of_passes hpass)
      (hroom u hpass)).mpr (hall u (Nat.lt_succ_self u))
    rw [hdec] at hpending
    cases hpending
  · rintro ⟨u, hbefore, hidle, hbad⟩
    have hpass := (passes_iff_matches hen htime u).mpr hbefore
    have hnext : judgement expected n T acts (u + 1)
        = judge expected n T (progressAt n.toNat acts u) (acts u) := by
      rw [judgement_succ, judgement_of_passes hpass]
      rfl
    -- A cycle that does not match is no pending one, and before a full idle wait no success.
    cases hj : judge expected n T (progressAt n.toNat acts u) (acts u) with
    | pending p =>
      have hp := (passes_of_judgement_eq_pending hroom (hnext.trans hj)) u (Nat.lt_succ_self u)
      exact absurd ⟨hp.fits, hp.group⟩ hbad
    | decided st p a =>
      refine ⟨u + 1, st, p, a, ?_, hnext.trans hj⟩
      rintro rfl
      have hfull := ((judge_eq_success_iff _ _ _).mp hj).1
      exact absurd hfull (not_le.mpr hidle)

end

/-- Whether a cycle matches depends on the expected updates only. -/
theorem matches_congr {list list' : Nat → ExpectedStateUpdate} {n : Nat} {acts : Nat → Activity N}
    (h : ∀ i < n, list i = list' i) (t : Nat) : Matches list n acts t ↔ Matches list' n acts t := by
  refine and_congr_right fun hle => ?_
  rw [slice_congr h hle]

/-- The status is ever one of `0x03` to `0x05` exactly when the abstract monitor gives a verdict
other than `success`, where it never gives `timeout`. -/
theorem exists_testStatus_failure_iff {s : TestMonitorState N} {ins : Nat → TestMonitorIn N}
    (h : AfterConfiguration s) (hins : ∀ t, (ins t).NoHostAccess)
    (hroom : Room (fun k => decodeUpdate (s.expupdRam k)) s.numExpUpdates s.maxWaitTime.toNat
      fun t => (ins t).activity)
    (htime : NoTimeout (fun k => decodeUpdate (s.expupdRam k)) s.numExpUpdates
      s.maxWaitTime.toNat fun t => (ins t).activity) :
    (∃ t, (trajectory step s ins t).output.testStatus ∈ [0x03, 0x04, 0x05]) ↔
      ∃ t st p a, st ≠ .success ∧ judgementRam s.expupdRam s.numExpUpdates s.maxWaitTime
        (fun t => (ins t).activity) t = .decided st p a := by
  constructor
  · rintro ⟨t, ht⟩
    cases t with
    | zero =>
      rw [trajectory_zero, h.armed.testStatus] at ht
      exact absurd ht (by decide)
    | succ t =>
      rw [testStatus_trajectory h hins] at ht
      -- the status is the code of the judgement one cycle earlier
      generalize hj : judgementRam s.expupdRam s.numExpUpdates s.maxWaitTime
        (fun t => (ins t).activity) t = j at ht
      cases j with
      | pending p =>
        have ht : TestStatus.notDone.code ∈ _ := ht
        exact absurd ht (by decide)
      | decided st p a =>
        refine ⟨t, st, p, a, ?_, hj⟩
        rintro rfl
        have ht : TestStatus.success.code ∈ _ := ht
        exact absurd ht (by decide)
  · rintro ⟨t, st, p, a, hst, hj⟩
    refine ⟨t + 1, ?_⟩
    rw [testStatus_trajectory h hins, hj]
    show st.code ∈ _
    -- a decision is the judge's of one cycle, and it is never that the test is not done
    obtain ⟨u, -, -, hdec⟩ := exists_judge_of_judgement_eq_decided hroom hj
    have hne := (judge_decided _ _ _ hdec).2.2
    cases st with
    | notDone => exact absurd rfl hne
    | success => exact absurd rfl hst
    | timeout => exact absurd hj (htime t p a)
    | updateWhileDisabled => decide
    | extraUpdate => decide
    | incorrectUpdate => decide

/-- The testbench and the test monitor agree: on a list of `1` to `510` expected updates and a
processor that is enabled and stays enabled, and when neither timeout fires, the testbench logs
`Test success.` exactly when the status of the monitor is ever `0x01`, and logs a failure
exactly when it is ever one of `0x03` to `0x05`. -/
theorem testbench_agrees {g : Generics} {expectedUpdates : TbArray}
    {reset : List (ProcOut RF_NUM_WRITE_PORTS)} {procs : Nat → ProcOut RF_NUM_WRITE_PORTS}
    {s : TestMonitorState RF_NUM_WRITE_PORTS} {ins : Nat → TestMonitorIn RF_NUM_WRITE_PORTS}
    (hn : 1 ≤ g.NUM_EXPECTED_UPDATES) (hn510 : g.NUM_EXPECTED_UPDATES ≤ 510)
    (hidle : g.IDLE_WAIT_CYCLES = 100)
    (hquiet : ∀ p ∈ reset, ∀ i, p.updateWes i = false)
    (hs : AfterConfiguration s) (hnum : s.numExpUpdates.toNat = g.NUM_EXPECTED_UPDATES)
    (hlist : ∀ i < g.NUM_EXPECTED_UPDATES,
      decodeUpdate (s.expupdRam (BitVec.ofNat 9 i)) = expectedUpdates i)
    (hins : ∀ t, (ins t).NoHostAccess)
    (hactivity : ∀ t, (ins t).activity = Activity.ofProc true (procs t))
    (htb : NeverTimesOut g expectedUpdates reset procs)
    (hmonitor : ∀ t, (trajectory step s ins t).output.testStatus ≠ 0x02) :
    (LogsSuccess g expectedUpdates reset procs ↔
      ∃ t, (trajectory step s ins t).output.testStatus = 0x01) ∧
    (LogsFailure g expectedUpdates reset procs ↔
      ∃ t, (trajectory step s ins t).output.testStatus ∈ [0x03, 0x04, 0x05]) := by
  have hcount : ∀ p ∈ reset, (Activity.ofProc false p).count = 0 := by
    intro p hp
    simp [Activity.count, Activity.ofProc, ports, hquiet p hp]
  have hen : ∀ t, (ins t).activity.procEnable = true := fun t => by rw [hactivity]; rfl
  have hacts : (fun t => (ins t).activity) = fun t => Activity.ofProc true (procs t) :=
    funext hactivity
  -- Up to `510` updates the nine bits of the position cannot wrap around.
  have hroom : Room (fun k => decodeUpdate (s.expupdRam k)) s.numExpUpdates s.maxWaitTime.toNat
      fun t => (ins t).activity :=
    room_of_lt (Or.inr (by rw [hnum]; show g.NUM_EXPECTED_UPDATES + 1 < 512; omega))
  have htime : NoTimeout (fun k => decodeUpdate (s.expupdRam k)) s.numExpUpdates
      s.maxWaitTime.toNat fun t => (ins t).activity := by
    intro t p a hj
    refine hmonitor (t + 1) ?_
    rw [testStatus_trajectory hs hins, judgementRam, hj]
    rfl
  -- Both sides are now statements about the trace: the board's about the decoded RAM, the
  -- testbench's about its array, and these agree below the number of updates.
  have hmatches := @matches_congr _ _ _ _ (fun t => Activity.ofProc true (procs t)) hlist
  constructor
  · rw [logsSuccess_iff hn hidle hcount (fun t => nodup_group true (procs t)) htb,
      exists_testStatus_iff_judgement hs hins, exists_success_iff_matches hroom hen htime, hnum,
      hacts]
    simp only [← hmatches]
    rfl
  · rw [logsFailure_iff hn hidle hcount (fun t => nodup_group true (procs t)) htb,
      exists_testStatus_failure_iff hs hins hroom htime,
      exists_failure_iff_matches hroom hen htime, hnum, hacts]
    simp only [← hmatches]
    rfl

/-! ### A failing test on both sides -/

/-- A processor that writes data memory in every cycle. -/
def dmemWriter : ProcOut RF_NUM_WRITE_PORTS := ⟨0, 0, 0, true, fun _ => ⟨0, false, 0⟩⟩

/-- One expected update, a register write. -/
def oneUpdate : Generics := { NUM_EXPECTED_UPDATES := 1 }

/-- The outputs of the processor in reset. -/
def quietReset : List (ProcOut RF_NUM_WRITE_PORTS) := List.replicate RESET_CYCLES .quiet

/-- The part of a simulation in which the processor shows the same outputs in reset, and the
same outputs when enabled. -/
theorem prefix_stimulus {p q : ProcOut N} {k t : Nat} {cycles : List (Bool × ProcOut N)}
    (h : cycles <+: stimulus (List.replicate k p) (fun _ => q) t) :
    ∃ a ≤ k, ∃ b, (b = 0 ∨ a = k) ∧
      cycles = List.replicate a (false, p) ++ List.replicate b (true, q) := by
  rw [List.prefix_iff_eq_take] at h
  rw [h]
  unfold stimulus
  rw [List.map_replicate, List.take_append, List.take_replicate, List.map_const', List.length_range,
    List.take_replicate, List.length_replicate]
  exact ⟨min cycles.length k, min_le_right _ _, _, by omega, rfl⟩

/-- The simulation of the data memory writer ends in its first enabled cycle. -/
theorem neverTimesOut_dmemWriter :
    NeverTimesOut oneUpdate (fun _ => .zero) quietReset fun _ => dmemWriter := by
  intro t cycles s hc hs
  obtain ⟨a, ha, b, hab, rfl⟩ := prefix_stimulus hc
  rcases b with - | b
  · -- In reset nothing is logged.
    have hreset : ∀ a ≤ RESET_CYCLES, (simulate oneUpdate (fun _ => .zero)
        (List.replicate a (false, (.quiet : ProcOut RF_NUM_WRITE_PORTS)))).toOption.map
          (fun s => s.logFile) = some [] := by decide
    have hlog := hreset a ha
    rw [List.replicate_zero, List.append_nil] at hs
    rw [hs] at hlog
    have hlog : s.logFile = [] := Option.some.inj hlog
    rw [hlog]
    exact fun l hl => absurd hl List.not_mem_nil
  · -- The first enabled cycle logs a failure and ends the simulation.
    have hfirst : (simulate oneUpdate (fun _ => .zero)
        (List.replicate RESET_CYCLES (false, (.quiet : ProcOut RF_NUM_WRITE_PORTS))
          ++ [(true, dmemWriter)])).toOption.map (fun s => (s.ended, s.logFile)) =
        some (true, [⟨true, 10, .expectedNext .zero ⟨.dmemUpdate, 0, 0⟩⟩]) := by decide
    obtain rfl : a = RESET_CYCLES := hab.resolve_left (Nat.succ_ne_zero b)
    rw [List.replicate_succ, List.append_cons] at hs
    unfold simulate at hs hfirst
    rw [List.foldlM_append] at hs
    cases hsim : List.foldlM (clockEdge oneUpdate fun _ => .zero) ({} : TbState)
        (List.replicate RESET_CYCLES (false, (.quiet : ProcOut RF_NUM_WRITE_PORTS))
          ++ [(true, dmemWriter)]) with
    | error e =>
      rw [hsim] at hs
      cases hs
    | ok s₁ =>
      rw [hsim] at hs hfirst
      have hpair := Prod.mk.inj (Option.some.inj hfirst)
      have hs : List.foldlM (clockEdge oneUpdate fun _ => .zero) s₁
          (List.replicate b (true, dmemWriter)) = .ok s := hs
      rw [foldlM_clockEdge_of_ended hpair.1] at hs
      obtain rfl := Except.ok.inj hs
      rw [hpair.2]
      decide

/-- The data memory writer fails on the board in the second cycle. -/
theorem testStatus_dmemWriter (t : Nat) :
    (trajectory step (configured (N := RF_NUM_WRITE_PORTS) (fun _ => 0) 1 100)
      (fun _ => .ofProc true dmemWriter) (t + 2)).output.testStatus = 0x05 := by
  obtain ⟨hram, hn, hT⟩ := configured_config (N := RF_NUM_WRITE_PORTS) (fun _ => 0) 1 100
  rw [testStatus_trajectory (configured_afterConfiguration _ _ _)
    fun _ => TestMonitorIn.ofProc_noHostAccess _ _, hram, hn, hT]
  have hj :
    (judgementRam (fun _ => 0) 1 100 (fun _ => (TestMonitorIn.ofProc true dmemWriter).activity)
      1).status = .incorrectUpdate := by decide
  obtain ⟨p, a, hdec⟩ := Judgement.status_eq (by decide) hj
  rw [judgementRam, judgement_of_decided hdec (Nat.le_add_left 1 t)]
  rfl

/-- Both sides fail the data memory writer. -/
theorem logsFailure_dmemWriter :
    LogsFailure oneUpdate (fun _ => .zero) quietReset fun _ => dmemWriter := by
  obtain ⟨hram, hn, hT⟩ := configured_config (N := RF_NUM_WRITE_PORTS) (fun _ => 0) 1 100
  refine (@testbench_agrees oneUpdate (fun _ => .zero) quietReset (fun _ => dmemWriter)
    (configured (fun _ => 0) 1 100) (fun _ => .ofProc true dmemWriter)
    (by decide) (by decide) rfl ?_ (configured_afterConfiguration _ _ _) ?_ ?_
    (fun _ => TestMonitorIn.ofProc_noHostAccess _ _) (fun _ => rfl) neverTimesOut_dmemWriter
    ?_).2.mpr ⟨2, ?_⟩
  · intro p hp
    rw [List.eq_of_mem_replicate hp]
    exact ProcOut.updateWes_quiet
  · rw [hn]
    rfl
  · intro i _
    rw [hram]
    show decodeUpdate 0 = .zero
    decide
  · intro t
    match t with
    | 0 => decide
    | 1 => decide
    | t + 2 =>
      rw [testStatus_dmemWriter]
      decide
  · rw [testStatus_dmemWriter 0]
    decide

end VivadoTest.Framework.TestMonitorState
