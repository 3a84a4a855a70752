import VivadoTest.Proofs.Verdict
import VivadoTest.Spec.Independence

/-!
# `VivadoTest.Proofs.Independence`: the verdict and the entries past the list

The check chain looks at `RF_NUM_WRITE_PORTS + 1` entries in every cycle, also where the
list ends. What lies past the end is left over from earlier tests.

* `verdictIndependent_iff`: two monitors with the same list give the same verdict and the
  same report, which names a configured entry, exactly for the runs that do not straddle the
  end of the list.
* `straddle_run`: on a run that does, the report shows any entry past the end that is not
  among the updates.

## Why the end of the list matters

A cycle that takes the last entries of the list and makes more updates is compared with entries
past the end. If these happen to be the updates that are left, nothing is unmatched and the cycle
ends the test with extra updates; if not, it ends it with an incorrect update. Both are failures,
but the status and the report differ with what an earlier test left there.
`status_depends_on_pastEnd` shows the two on one processor.

In all other runs no entry past the end decides anything. A failing check then fails at a
configured entry (`exists_failsAt_lt`), and its report depends on the entries up to that one only
(`Reports.congr`).
-/

set_option autoImplicit false

namespace VivadoTest.Framework.TestMonitorState

open VivadoTest.Lib
open VivadoTest.Lib.GreedyMatch
open VivadoTest.Spec

variable {N : Nat}

/-! ### The statement -/

/-- The monitor is configured with `n` expected updates, the first entries of `ram`, and the
timeout `T`. The other entries are arbitrary. -/
structure ConfiguredWith (ram : ExpupdRam) (n : ExpupdAddr) (T : BitVec 16)
    (s : TestMonitorState N) : Prop where
  afterConfiguration : AfterConfiguration s
  numExpUpdates : s.numExpUpdates = n
  maxWaitTime : s.maxWaitTime = T
  entries_eq : ∀ k < n, s.expupdRam k = ram k

/-- Two monitors show the same verdict and, for incorrect updates, the same report. -/
def SameVerdict (o o' : TestMonitorOut) : Prop :=
  o.testStatus = o'.testStatus ∧
    (o.testStatus = 0x05 → o.unmatchedExpected = o'.unmatchedExpected ∧ o.badActual = o'.badActual)

/-- A report names one of the `n` configured entries. -/
def NamesConfigured (ram : ExpupdRam) (n : ExpupdAddr) (o : TestMonitorOut) : Prop :=
  o.testStatus = 0x05 → ∃ k < n, o.unmatchedExpected = decodeUpdate (ram k)

/-- In every cycle of the run, every two monitors configured with the list show the same
verdict, and their report names a configured entry. -/
def VerdictIndependent (ram : ExpupdRam) (n : ExpupdAddr) (T : BitVec 16)
    (ins : Nat → TestMonitorIn N) : Prop :=
  ∀ s s' : TestMonitorState N, ConfiguredWith ram n T s → ConfiguredWith ram n T s' →
    ∀ t, SameVerdict (trajectory step s ins t).output (trajectory step s' ins t).output ∧
      NamesConfigured ram n (trajectory step s ins t).output

/-! ### The report -/

section
variable {ram ram' : ExpupdRam} {n pos : ExpupdAddr} {a : Activity N}
  {x x' y y' : ExpectedStateUpdate}

/-- A report is determined by the entries up to one that fails, and shows one of them. -/
theorem Reports.congr {m : Nat} (hram : ∀ k < m, ram (pos + BitVec.ofNat 9 k)
      = ram' (pos + BitVec.ofNat 9 k))
    (hfail : ∃ i < m, FailsAt (ports a.updateWes) a.updates (lookahead ram pos) i)
    (h : Reports ram pos a x y) (h' : Reports ram' pos a x' y') :
    x = x' ∧ y = y' ∧ ∃ k < m, x = lookahead ram pos k := by
  obtain ⟨j, hj, hmin, hx, hy⟩ := h
  obtain ⟨j', hj', hmin', hx', hy'⟩ := h'
  obtain ⟨i, him, hi⟩ := hfail
  -- A failure among the first `m` entries means that the report is about one of them.
  have hji : j ≤ i := not_lt.mp fun hlt => hmin i hlt hi
  have hentry : ∀ k < m, lookahead ram pos k = lookahead ram' pos k := fun k hk => by
    rw [lookahead, hram k hk, lookahead]
  have hfails : ∀ k < m, (FailsAt (ports a.updateWes) a.updates (lookahead ram pos) k
      ↔ FailsAt (ports a.updateWes) a.updates (lookahead ram' pos) k) :=
    fun k hk => failsAt_congr fun l hl => hentry l (by omega)
  -- Both reports are about the same entry.
  have hjj : j' = j := by
    have hle : j' ≤ j := not_lt.mp fun hlt => hmin' j hlt ((hfails j (by omega)).mp hj)
    have hge : j ≤ j' := not_lt.mp fun hlt => hmin j' hlt ((hfails j' (by omega)).mpr hj')
    omega
  subst hjj
  have hrem : remaining (ports a.updateWes) a.updates (lookahead ram pos) j'
      = remaining (ports a.updateWes) a.updates (lookahead ram' pos) j' :=
    remaining_congr fun k hk => hentry k (by omega)
  refine ⟨?_, ?_, j', by omega, hx⟩
  · rw [hx, hx']
    exact hentry j' (by omega)
  · rw [hy, hy']
    simp only [hrem]

/-- Updates that are not the next entries, in a cycle that does not straddle the end, fail at
an entry before the end. -/
theorem exists_failsAt_lt {T u : Nat} {acts : Nat → Activity N}
    (hs : TakesRest (listOf fun k => decodeUpdate (ram k)) n.toNat T acts u →
      updatesBefore acts u + (acts u).count ≤ n.toNat)
    (hlt : updatesBefore acts u < n.toNat) (htime : enabledBefore acts u ≤ T)
    (hen : (acts u).procEnable = true)
    (hgroup : (acts u).group ≠ entries (fun k => decodeUpdate (ram k))
      (BitVec.ofNat 9 (updatesBefore acts u)) (acts u).count) :
    ∃ i < n.toNat - updatesBefore acts u, FailsAt (ports (acts u).updateWes) (acts u).updates
      (lookahead ram (BitVec.ofNat 9 (updatesBefore acts u))) i := by
  by_contra hno
  push Not at hno
  by_cases hle : updatesBefore acts u + (acts u).count ≤ n.toNat
  · -- All updates are compared with configured entries.
    refine hgroup ((not_failsAt_iff (m := (acts u).count) le_rfl).mp fun i hi => ?_)
    exact hno i (by omega)
  · -- The entries left are all among the updates, so the cycle takes them.
    refine hle (hs ⟨hlt, htime, hen, ?_⟩)
    have hall := (not_failsAt_iff_le (m := n.toNat - updatesBefore acts u) (by
      show _ ≤ (acts u).count
      omega)).mp hno
    rw [← entries_ofNat]
    exact hall

end

/-! ### Runs that do not straddle -/

section
variable {ram : ExpupdRam} {n : ExpupdAddr} {T : BitVec 16} {ins : Nat → TestMonitorIn N}

/-- A verdict `incorrectUpdate` fails at a configured entry. -/
theorem exists_failsAt_of_judgement {t : Nat} {p : Progress} {a : Activity N}
    {acts : Nat → Activity N}
    (hs : ¬ Straddles (listOf fun k => decodeUpdate (ram k)) n.toNat T.toNat acts)
    (h : judgementRam ram n T acts t = .decided .incorrectUpdate p a) :
    ∃ u < n.toNat, p.pos = BitVec.ofNat 9 u ∧
      ∃ i < n.toNat - u, FailsAt (ports a.updateWes) a.updates (lookahead ram p.pos) i := by
  obtain ⟨u, -, hpass, hdec⟩ :=
    exists_judge_of_judgement_eq_decided (room_of_not_straddles hs) h
  obtain ⟨hp, ha, -⟩ := judge_decided _ _ _ hdec
  obtain ⟨hen, hlist, htime, hgroup⟩ := of_judge_eq_incorrectUpdate _ _ _ hdec
  subst hp ha
  have hlt : updatesBefore acts u < n.toNat :=
    lt_of_le_of_ne (updatesBefore_le_of_passes hpass) (of_decide_eq_false hlist)
  exact ⟨updatesBefore acts u, hlt, rfl, exists_failsAt_lt
    (fun hrest => not_lt.mp fun hgt => hs ⟨u, hpass, hrest, hgt⟩) hlt htime hen hgroup⟩

/-- Two monitors that track one verdict on a run that does not straddle the end of the list
show one report, and it names a configured entry. -/
theorem report_eq {t : Nat} {s s' : TestMonitorState N} {ram' : ExpupdRam}
    {acts : Nat → Activity N} {p : Progress} {a : Activity N}
    (hram : ∀ k < n, ram k = ram' k)
    (hs : ¬ Straddles (listOf fun k => decodeUpdate (ram k)) n.toNat T.toNat acts)
    (hj : judgementRam ram n T acts t = .decided .incorrectUpdate p a)
    (h : Tracks ram n T (judgementRam ram n T acts t) s)
    (h' : Tracks ram' n T (judgementRam ram n T acts t) s') :
    (s.output.unmatchedExpected = s'.output.unmatchedExpected ∧
      s.output.badActual = s'.output.badActual) ∧
    ∃ k < n, s.output.unmatchedExpected = decodeUpdate (ram k) := by
  rw [hj] at h h'
  obtain ⟨u, hu, hpos, hfail⟩ := exists_failsAt_of_judgement hs hj
  have hn := n.isLt
  have hbefore : ∀ k < n.toNat - u, p.pos + BitVec.ofNat 9 k < n := by
    intro k hk
    rw [hpos, ← BitVec.ofNat_add, BitVec.lt_def, BitVec.toNat_ofNat, Nat.mod_eq_of_lt] <;> omega
  obtain ⟨hx, hy, k, hk, hxk⟩ :=
    h.reports.congr (fun k hk => hram _ (hbefore k hk)) hfail h'.reports
  exact ⟨⟨hx, hy⟩, _, hbefore k hk, hxk⟩

/-- A run that does not straddle the end of the list shows the same verdict and report for
all monitors configured with it. -/
theorem verdictIndependent_of_not_straddles (hins : ∀ t, (ins t).NoHostAccess)
    (hs : ¬ Straddles (listOf fun k => decodeUpdate (ram k)) n.toNat T.toNat
      fun t => (ins t).activity) : VerdictIndependent ram n T ins := by
  intro s s' h h' t
  have hsame : ∀ k < n, s.expupdRam k = s'.expupdRam k := fun k hk => by
    rw [h.entries_eq k hk, h'.entries_eq k hk]
  have hs : ¬ Straddles (listOf fun k => decodeUpdate (s.expupdRam k)) n.toNat T.toNat
      fun t => (ins t).activity := fun hst =>
    hs (hst.congr (listOf_congr fun k hk => by rw [h.entries_eq k hk]))
  cases t with
  | zero =>
    have h0 : s.output.testStatus = 0 := h.afterConfiguration.armed.testStatus
    have h0' : s'.output.testStatus = 0 := h'.afterConfiguration.armed.testStatus
    rw [trajectory_zero, trajectory_zero]
    refine ⟨⟨h0.trans h0'.symm, fun h5 => ?_⟩, fun h5 => ?_⟩ <;>
      exact absurd (h0.symm.trans h5) (by decide)
  | succ t =>
    have htracks := tracks_trajectory h.afterConfiguration hins t
    have htracks' := tracks_trajectory h'.afterConfiguration hins t
    rw [h.numExpUpdates, h.maxWaitTime] at htracks
    rw [h'.numExpUpdates, h'.maxWaitTime] at htracks'
    -- Both monitors track one judgement, so the status is the same, and an incorrect update is
    -- reported with the same pair.
    have hj : judgementRam s'.expupdRam n T (fun t => (ins t).activity) t
        = judgementRam s.expupdRam n T (fun t => (ins t).activity) t :=
      (judgement_congr (fun k hk => by rw [hsame k hk]) hs t).symm
    rw [hj] at htracks'
    have hst := htracks.testStatus
    have hst' := htracks'.testStatus
    refine ⟨⟨hst.trans hst'.symm, fun h5 => ?_⟩, fun h5 => ?_⟩ <;>
      obtain ⟨p, a, hdec⟩ :=
        Judgement.status_eq (show TestStatus.incorrectUpdate ≠ .notDone by decide)
        (TestStatus.code_injective (hst.symm.trans h5)) <;>
      have hreport := report_eq hsame hs hdec htracks htracks'
    · exact hreport.1
    · obtain ⟨k, hk, hx⟩ := hreport.2
      exact ⟨k, hk, by rw [hx, h.entries_eq k hk]⟩

end

/-! ### Runs that straddle -/

section
variable {ram : ExpupdRam} {n : ExpupdAddr} {T : BitVec 16} {acts : Nat → Activity N}

/-- The entries up to the one past the end: those before the end are taken, and the one past
the end fails when it is not among the updates. -/
theorem failsAt_pastEnd {c : Nat}
    (hrest : TakesRest (listOf fun k => decodeUpdate (ram k)) n.toNat T.toNat acts c)
    (hlt : n.toNat < updatesBefore acts c + (acts c).count)
    (hstale : decodeUpdate (ram n) ∉ (acts c).group) :
    (∀ i < n.toNat - updatesBefore acts c, ¬ FailsAt (ports (acts c).updateWes) (acts c).updates
      (lookahead ram (BitVec.ofNat 9 (updatesBefore acts c))) i) ∧
    FailsAt (ports (acts c).updateWes) (acts c).updates
      (lookahead ram (BitVec.ofNat 9 (updatesBefore acts c))) (n.toNat - updatesBefore acts c) := by
  have hle := hrest.lt
  have hbefore : ∀ i < n.toNat - updatesBefore acts c,
      ¬ FailsAt (ports (acts c).updateWes) (acts c).updates
        (lookahead ram (BitVec.ofNat 9 (updatesBefore acts c))) i := by
    refine not_failsAt_of_le ?_
    have hslice := hrest.rest_le
    rw [← entries_ofNat] at hslice
    exact hslice
  refine ⟨hbefore, ?_, ?_⟩
  -- There are more updates than entries left, so a port is active when the entry past the end
  -- comes.
  · rw [← Finset.card_pos, card_remaining hbefore]
    show 0 < (acts c).count - _
    omega
  -- No port has that entry's update.
  · have hentry : lookahead ram (BitVec.ofNat 9 (updatesBefore acts c))
        (n.toNat - updatesBefore acts c) = decodeUpdate (ram n) := by
      rw [lookahead, ← BitVec.ofNat_add, Nat.add_sub_cancel' (le_of_lt hle), BitVec.ofNat_toNat,
        BitVec.setWidth_eq]
    rw [hentry, Finset.eq_empty_iff_forall_notMem]
    intro i hi
    obtain ⟨hmem, hval⟩ := mem_hits.mp hi
    exact hstale (hval ▸ Multiset.mem_map_of_mem _ (remaining_subset _ _ _ _ hmem))

/-- A run that straddles the end of the list in cycle `c` reports the entry past the end when
that is not among the updates of the cycle. -/
theorem straddle_run {s : TestMonitorState N} {ins : Nat → TestMonitorIn N} {c : Nat}
    (hs : AfterConfiguration s) (hins : ∀ t, (ins t).NoHostAccess) (hn : s.numExpUpdates = n)
    (hT : s.maxWaitTime = T) (hram : s.expupdRam = ram)
    (hpass : ∀ u < c, Passes (listOf fun k => decodeUpdate (ram k)) n.toNat T.toNat
      (fun t => (ins t).activity) u)
    (hrest : TakesRest (listOf fun k => decodeUpdate (ram k)) n.toNat T.toNat
      (fun t => (ins t).activity) c)
    (hlt : n.toNat < updatesBefore (fun t => (ins t).activity) c + (ins c).activity.count)
    (hstale : decodeUpdate (ram n) ∉ (ins c).activity.group) :
    (trajectory step s ins (c + 2)).output.testStatus = 0x05 ∧
      (trajectory step s ins (c + 2)).output.unmatchedExpected = decodeUpdate (ram n) := by
  obtain ⟨hbefore, hfail⟩ := failsAt_pastEnd hrest hlt hstale
  have hidle : idleBefore (fun t => (ins t).activity) n.toNat c = 0 :=
    idleBefore_eq_zero fun u hu =>
      ne_of_lt (lt_of_le_of_lt (updatesBefore_mono _ (le_of_lt hu)) hrest.lt)
  -- The updates are not the next entries, as one of these fails.
  have hgroup : (ins c).activity.group ≠ entries (fun k => decodeUpdate (ram k))
      (BitVec.ofNat 9 (updatesBefore (fun t => (ins t).activity) c)) (ins c).activity.count := by
    intro hgroup
    have hall := (not_failsAt_iff (m := (ins c).activity.count) le_rfl).mpr hgroup
    refine hall _ ?_ hfail
    have hle := hrest.lt
    omega
  -- So the cycle gives the verdict of an incorrect update.
  have hj : judgementRam ram n T (fun t => (ins t).activity) (c + 1)
      = .decided .incorrectUpdate (progressAt n.toNat (fun t => (ins t).activity) c)
          (ins c).activity := by
    rw [judgementRam, judgement_succ, judgement_of_passes hpass]
    refine judge_eq_incorrectUpdate _ _ _ ?_ hrest.procEnable ?_ hrest.time hgroup
    · show idleBefore (fun t => (ins t).activity) n.toNat c < 100
      omega
    · exact decide_eq_false (ne_of_lt hrest.lt)
  have htracks := tracks_trajectory hs hins (c + 1)
  rw [hram, hn, hT, hj] at htracks
  refine ⟨htracks.testStatus, ?_⟩
  -- The first failure is the entry past the end.
  obtain ⟨j, hj, hmin, hx, -⟩ := htracks.reports
  have hjn : j = n.toNat - updatesBefore (fun t => (ins t).activity) c := by
    have hge := not_lt.mp fun h => hbefore j h hj
    have hle := not_lt.mp fun h => hmin _ h hfail
    omega
  have hle := le_of_lt hrest.lt
  rw [hx, hjn, lookahead]
  show decodeUpdate (ram (BitVec.ofNat 9 _ + BitVec.ofNat 9 _)) = _
  rw [← BitVec.ofNat_add, Nat.add_sub_cancel' hle, BitVec.ofNat_toNat, BitVec.setWidth_eq]

end

/-! ### The exact condition -/

/-- A raw entry with the value `v`. -/
def rawOfValue (v : Datapath) : RawExpectedUpdate := v.setWidth 48

/-- An entry with any given value, as a write to register 0. -/
theorem decodeUpdate_rawOfValue (v : Datapath) :
    decodeUpdate (rawOfValue v) = ⟨.regfileUpdate, 0, v⟩ := by
  have haddr : (v.setWidth 48).extractLsb' 32 10 = 0 := by
    ext i hi
    simp
  have hvalue : (v.setWidth 48).extractLsb' 0 32 = v := by
    ext i hi
    simp [BitVec.getLsbD_eq_getElem hi]
    omega
  unfold decodeUpdate rawOfValue
  rw [haddr, hvalue]
  simp

/-- A cycle leaves two values that it does not write. -/
theorem exists_two_values (g : Multiset ExpectedStateUpdate) (hg : Multiset.card g + 2 ≤ 2 ^ 32) :
    ∃ v w : Datapath, v ≠ w ∧ decodeUpdate (rawOfValue v) ∉ g ∧
      decodeUpdate (rawOfValue w) ∉ g := by
  have hinj : ∀ i ∈ Finset.range (Multiset.card g + 2), ∀ j ∈ Finset.range (Multiset.card g + 2),
      BitVec.ofNat 32 i = BitVec.ofNat 32 j → i = j := by
    intro i hi j hj h
    have hto := congrArg BitVec.toNat h
    rw [Finset.mem_range] at hi hj
    rwa [BitVec.toNat_ofNat, BitVec.toNat_ofNat, Nat.mod_eq_of_lt (by omega),
      Nat.mod_eq_of_lt (by omega)] at hto
  -- At most `card g` of the `card g + 2` candidates are written.
  have hwritten : ((Finset.range (Multiset.card g + 2)).filter
      fun i => decodeUpdate (rawOfValue (BitVec.ofNat 32 i)) ∈ g).card ≤ Multiset.card g := by
    refine le_trans (Finset.card_le_card_of_injOn
      (fun i => decodeUpdate (rawOfValue (BitVec.ofNat 32 i))) (t := g.toFinset) ?_ ?_)
      (Multiset.toFinset_card_le g)
    · intro i hi
      exact Multiset.mem_toFinset.mpr (Finset.mem_filter.mp hi).2
    · intro i hi j hj h
      have h : decodeUpdate (rawOfValue (BitVec.ofNat 32 i))
          = decodeUpdate (rawOfValue (BitVec.ofNat 32 j)) := h
      rw [decodeUpdate_rawOfValue, decodeUpdate_rawOfValue] at h
      exact hinj i (Finset.mem_filter.mp hi).1 j (Finset.mem_filter.mp hj).1
        (ExpectedStateUpdate.mk.inj h).2.2
  -- So two candidates are left that are not.
  have hsplit := Finset.card_filter_add_card_filter_not (s := Finset.range (Multiset.card g + 2))
    (fun i => decodeUpdate (rawOfValue (BitVec.ofNat 32 i)) ∈ g)
  rw [Finset.card_range] at hsplit
  obtain ⟨i, hi, j, hj, hij⟩ := Finset.one_lt_card.mp (by omega :
    1 < ((Finset.range (Multiset.card g + 2)).filter
      fun i => ¬ decodeUpdate (rawOfValue (BitVec.ofNat 32 i)) ∈ g).card)
  rw [Finset.mem_filter] at hi hj
  exact ⟨_, _, fun h => hij (hinj i hi.1 j hj.1 h), hi.2, hj.2⟩

section
variable {ram : ExpupdRam} {n : ExpupdAddr} {T : BitVec 16} {ins : Nat → TestMonitorIn N}

/-- The entry past the end replaced. -/
def withPastEnd (ram : ExpupdRam) (n : ExpupdAddr) (raw : RawExpectedUpdate) : ExpupdRam :=
  Function.update ram n raw

/-- The changed RAM has the new entry past the end of the list. -/
theorem withPastEnd_self (ram : ExpupdRam) (n : ExpupdAddr) (raw : RawExpectedUpdate) :
    withPastEnd ram n raw n = raw := by
  unfold withPastEnd
  exact Function.update_self n raw ram

/-- It agrees with the old one on the list. -/
theorem withPastEnd_of_lt (ram : ExpupdRam) {n k : ExpupdAddr} (raw : RawExpectedUpdate)
    (hk : k < n) : withPastEnd ram n raw k = ram k :=
  Function.update_of_ne (BitVec.ne_of_lt hk) _ _

/-- The board with the changed RAM is configured with the same list. -/
theorem configuredWith_withPastEnd (ram : ExpupdRam) (n : ExpupdAddr) (T : BitVec 16)
    (raw : RawExpectedUpdate) :
    ConfiguredWith ram n T (configured (N := N) (withPastEnd ram n raw) n T) := by
  obtain ⟨hram, hn, hT⟩ := configured_config (N := N) (withPastEnd ram n raw) n T
  refine ⟨configured_afterConfiguration _ _ _, hn, hT, fun k hk => ?_⟩
  rw [hram]
  exact withPastEnd_of_lt ram raw hk

/-- The verdict and the report depend on the configured entries only, exactly for the runs
that do not straddle the end of the list. -/
theorem verdictIndependent_iff (hN : N < 2 ^ 31) (hins : ∀ t, (ins t).NoHostAccess) :
    VerdictIndependent ram n T ins ↔
      ¬ Straddles (listOf fun k => decodeUpdate (ram k)) n.toNat T.toNat
        fun t => (ins t).activity := by
  refine ⟨?_, verdictIndependent_of_not_straddles hins⟩
  -- A run that straddles the end shows what stands past it. Two boards with different words there
  -- have the same list and different reports.
  rintro h ⟨c, hpass, hrest, hlt⟩
  have hcard : Multiset.card (ins c).activity.group + 2 ≤ 2 ^ 32 := by
    have hcount := (ins c).activity.count_le
    rw [Activity.card_group]
    omega
  obtain ⟨v, w, hvw, hv, hw⟩ := exists_two_values _ hcard
  -- Each of the two values is reported when it stands past the end.
  have hreported : ∀ x, decodeUpdate (rawOfValue x) ∉ (ins c).activity.group →
      (trajectory step (configured (withPastEnd ram n (rawOfValue x)) n T) ins
        (c + 2)).output.testStatus = 0x05 ∧
      (trajectory step (configured (withPastEnd ram n (rawOfValue x)) n T) ins
        (c + 2)).output.unmatchedExpected = ⟨.regfileUpdate, 0, x⟩ := by
    intro x hx
    obtain ⟨hram, hn, hT⟩ := configured_config (N := N) (withPastEnd ram n (rawOfValue x)) n T
    have hlist : ∀ i < n.toNat, listOf (fun k => decodeUpdate (ram k)) i
        = listOf (fun k => decodeUpdate (withPastEnd ram n (rawOfValue x) k)) i :=
      listOf_congr fun k hk => by rw [withPastEnd_of_lt ram _ hk]
    have hpast := withPastEnd_self ram n (rawOfValue x)
    have hrun := straddle_run (configured_afterConfiguration _ _ _) hins hn hT hram
      (fun u hu => (hpass u hu).congr hlist) (hrest.congr hlist) hlt (by rw [hpast]; exact hx)
    rw [hpast, decodeUpdate_rawOfValue] at hrun
    exact hrun
  obtain ⟨hst, hrv⟩ := hreported v hv
  have hrw := (hreported w hw).2
  have hsame := (h _ _ (configuredWith_withPastEnd ram n T (rawOfValue v))
    (configuredWith_withPastEnd ram n T (rawOfValue w)) (c + 2)).1.2 hst
  rw [hrv, hrw] at hsame
  exact hvw (ExpectedStateUpdate.mk.inj hsame.1).2.2

/-- A program that takes its list of three updates in two cycles, with none to spare in either, does
not straddle: whatever stands past the three entries, the verdict is the same. -/
theorem verdictIndependent_threeUpdates :
    VerdictIndependent threeUpdatesRam 3 50
      fun t => .ofProc (N := RF_NUM_WRITE_PORTS) true (threeUpdates t) := by
  refine (verdictIndependent_iff (by decide)
    fun _ => TestMonitorIn.ofProc_noHostAccess _ _).mpr ?_
  rintro ⟨c, -, hrest, hlt⟩
  have hle := hrest.lt
  match c, hle, hlt with
  | 0, _, hlt => exact absurd hlt (by decide)
  | 1, _, hlt => exact absurd hlt (by decide)
  | 2, _, hlt => exact absurd hlt (by decide)
  | c + 3, hle, hlt =>
    -- the later cycles make no update
    have hcount : (TestMonitorIn.ofProc (N := RF_NUM_WRITE_PORTS) true
        (threeUpdates (c + 3))).activity.count = 0 := by
      show (TestMonitorIn.ofProc (N := RF_NUM_WRITE_PORTS) true .quiet).activity.count = 0
      decide
    rw [hcount] at hlt
    omega

/-- One expected register write, and a processor that makes it together with a data memory
write: the status is `0x04` or `0x05`, depending on the entry past the end. -/
theorem status_depends_on_pastEnd :
    ConfiguredWith (N := RF_NUM_WRITE_PORTS) (fun _ => 0) 1 100
        (configured (withPastEnd (fun _ => 0) 1 (1 <<< 42)) 1 100) ∧
      ConfiguredWith (N := RF_NUM_WRITE_PORTS) (fun _ => 0) 1 100
        (configured (withPastEnd (fun _ => 0) 1 0) 1 100) ∧
      (trajectory step (configured (N := RF_NUM_WRITE_PORTS) (withPastEnd (fun _ => 0) 1 (1 <<< 42))
        1 100) (fun _ => .ofProc true ⟨0, 0, 0, true, fun _ => ⟨0, true, 0⟩⟩) 2).output.testStatus
          = 0x04 ∧
      (trajectory step (configured (N := RF_NUM_WRITE_PORTS) (withPastEnd (fun _ => 0) 1 0)
        1 100) (fun _ => .ofProc true ⟨0, 0, 0, true, fun _ => ⟨0, true, 0⟩⟩) 2).output.testStatus
          = 0x05 := by
  refine ⟨configuredWith_withPastEnd _ _ _ _, configuredWith_withPastEnd _ _ _ _, ?_, ?_⟩ <;>
    decide

end

end VivadoTest.Framework.TestMonitorState
