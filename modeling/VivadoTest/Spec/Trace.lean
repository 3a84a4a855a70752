import VivadoTest.Spec.Judge
import VivadoTest.Lib.Clocked

/-!
# `VivadoTest.Spec.Trace`: verdicts as properties of the activity trace

The abstract monitor of `VivadoTest.Spec.Judge` still counts. Here its counters are
functions of the trace `acts`: `updatesBefore` and `enabledBefore` count over the cycles
before `t`, `Passes` says that the cycle `t` gives no verdict, `Accepted` that the whole
trace is a successful test.

* `judgement_of_passes`: as long as every cycle passes, the judgement is pending, with the
  counts of the trace as its progress.
* `passes_of_judgement_eq_pending`: a cycle without a verdict passes, provided the positions
  have room up to `2 ^ 9`.
* `exists_success_iff_accepted`: with that room, the verdict is `success` exactly for the
  accepted traces.

## Why a trace

A statement about the counters of a state says nothing about the run that led to it. What a test is
about are the updates of a processor over time, and a trace is just that: `acts t` for every cycle
`t`. All properties of runs that the development states about verdicts are stated on it, and the
two checkers are compared on it.

* `Passes`: the five things that keep a cycle from a verdict.
* `CompletesAt`: the cycle behind the one that uses up the list.
* `slice`: the entries of the list that a cycle is compared with, as a multiset.
-/

set_option autoImplicit false

namespace VivadoTest.Spec

open VivadoTest.Framework
open VivadoTest.Lib

variable {N : Nat}

section
variable (acts : Nat → Activity N)

/-- The updates made while enabled in the cycles before `t`. -/
def updatesBefore : Nat → Nat
  | 0 => 0
  | t + 1 => updatesBefore t + if (acts t).procEnable then (acts t).count else 0

/-- The enabled cycles before `t`. -/
def enabledBefore : Nat → Nat
  | 0 => 0
  | t + 1 => enabledBefore t + (acts t).procEnable.toNat

/-- The enabled cycles before `t` at whose start `n` updates had been made. -/
def idleBefore (n : Nat) : Nat → Nat
  | 0 => 0
  | t + 1 => idleBefore n t + (decide (updatesBefore acts t = n) && (acts t).procEnable).toNat

/-- The number of updates does not fall. -/
theorem updatesBefore_mono {t u : Nat} (h : t ≤ u) :
    updatesBefore acts t ≤ updatesBefore acts u := by
  induction h with
  | refl => exact le_rfl
  | step _ ih => exact le_trans ih (Nat.le_add_right _ _)

/-- Nor does the number of enabled cycles. -/
theorem enabledBefore_mono {t u : Nat} (h : t ≤ u) :
    enabledBefore acts t ≤ enabledBefore acts u := by
  induction h with
  | refl => exact le_rfl
  | step _ ih => exact le_trans ih (Nat.le_add_right _ _)

end

/-- The `k` entries of the list from index `u` on, as a multiset. -/
def slice (list : Nat → ExpectedStateUpdate) (u k : Nat) : Multiset ExpectedStateUpdate :=
  (Multiset.range k).map fun i => list (u + i)

/-- A shorter stretch of the list is part of a longer one from the same index. -/
theorem slice_le (list : Nat → ExpectedStateUpdate) (u : Nat) {k m : Nat} (h : k ≤ m) :
    slice list u k ≤ slice list u m :=
  Multiset.map_le_map (Multiset.range_le.mpr h)

/-- A stretch depends on the entries in it only. -/
theorem slice_congr_of_mem {list list' : Nat → ExpectedStateUpdate} {u k : Nat}
    (h : ∀ i, u ≤ i → i < u + k → list i = list' i) : slice list u k = slice list' u k :=
  Multiset.map_congr rfl fun i hi =>
    h (u + i) (Nat.le_add_right u i) (Nat.add_lt_add_left (Multiset.mem_range.mp hi) u)

/-- So two lists with the same first entries have the same stretches there. -/
theorem slice_congr {list list' : Nat → ExpectedStateUpdate} {u k m : Nat}
    (h : ∀ i < m, list i = list' i) (hk : u + k ≤ m) : slice list u k = slice list' u k :=
  slice_congr_of_mem fun i _ hi => h i (lt_of_lt_of_le hi hk)

/-- A stretch has as many entries as it is long. Equal entries count. -/
@[simp] theorem card_slice (list : Nat → ExpectedStateUpdate) (u k : Nat) :
    Multiset.card (slice list u k) = k := by
  simp [slice]

/-- The empty stretch. -/
@[simp] theorem slice_zero (list : Nat → ExpectedStateUpdate) (u : Nat) : slice list u 0 = 0 := rfl

/-- The last entry of a slice. -/
theorem slice_succ (list : Nat → ExpectedStateUpdate) (u k : Nat) :
    slice list u (k + 1) = list (u + k) ::ₘ slice list u k := by
  unfold slice
  rw [Multiset.range_succ, Multiset.map_cons]

section
variable (list : Nat → ExpectedStateUpdate) (n T : Nat) (acts : Nat → Activity N)

/-- The cycle `t` gives no verdict. -/
structure Passes (t : Nat) : Prop where
  idle : idleBefore acts n t < 100
  time : updatesBefore acts t = n ∨ enabledBefore acts t ≤ T
  enabled : (acts t).count = 0 ∨ (acts t).procEnable = true ∧ updatesBefore acts t < n
  group : (acts t).group = slice list (updatesBefore acts t) (acts t).count
  fits : updatesBefore acts t + (acts t).count ≤ n

/-- The cycle `t` comes in time and its updates contain all entries left. -/
structure TakesRest (t : Nat) : Prop where
  lt : updatesBefore acts t < n
  time : enabledBefore acts t ≤ T
  procEnable : (acts t).procEnable = true
  rest_le : slice list (updatesBefore acts t) (n - updatesBefore acts t) ≤ (acts t).group

/-- The first cycle after the one that completes the list: cycle `0` for the empty list,
otherwise the successor of an enabled cycle that completes it in time. -/
def CompletesAt (p : Nat) : Prop :=
  updatesBefore acts p = n ∧
    (p = 0 ∨ ∃ c, p = c + 1 ∧ (acts c).procEnable = true ∧ updatesBefore acts c < n ∧
      enabledBefore acts c ≤ T)

/-- A successful test. No update happens while the processor is disabled. The updates of the
enabled cycles before `p` are, cycle by cycle, the next entries of the list, and use up its
`n` entries; the cycle that completes it comes after at most `T` enabled cycles. From `p`
on no update happens, until `100` more enabled cycles have passed. -/
def Accepted : Prop :=
  ∃ p q, p ≤ q ∧
    (∀ t < q, (acts t).procEnable = false → (acts t).group = 0) ∧
    (∀ t < p, (acts t).procEnable = true →
      (acts t).group = slice list (updatesBefore acts t) (acts t).count) ∧
    CompletesAt n T acts p ∧
    (∀ t, p ≤ t → t < q → (acts t).group = 0) ∧
    enabledBefore acts q = enabledBefore acts p + 100

/-- The progress that the counts of the trace give. -/
def progressAt (t : Nat) : Progress where
  pos := BitVec.ofNat 9 (updatesBefore acts t)
  listDone := decide (updatesBefore acts t = n)
  cycles := enabledBefore acts t
  idle := idleBefore acts n t

end

/-- The list that a RAM of 512 entries holds, indexed by numbers. -/
def listOf (expected : BitVec 9 → ExpectedStateUpdate) (k : Nat) : ExpectedStateUpdate :=
  expected (BitVec.ofNat 9 k)

/-- The next entries in the RAM are a stretch of the list, as long as the index is read modulo the
depth of the RAM on both sides. -/
theorem entries_ofNat (expected : BitVec 9 → ExpectedStateUpdate) (u k : Nat) :
    entries expected (BitVec.ofNat 9 u) k = slice (listOf expected) u k := by
  simp [entries, slice, listOf, BitVec.ofNat_add]

/-- The judgement on the first `t` activities. -/
def judgement (expected : BitVec 9 → ExpectedStateUpdate) (n : BitVec 9) (T : Nat)
    (acts : Nat → Activity N) : Nat → Judgement N :=
  trajectory (fun j a => j.next expected n T a) (.pending (Progress.start n)) acts

section
variable {expected : BitVec 9 → ExpectedStateUpdate} {n : BitVec 9} {T : Nat}
  {acts : Nat → Activity N}

/-- The judgement of a trace with one cycle more. -/
theorem judgement_succ (t : Nat) :
    judgement expected n T acts (t + 1)
      = (judgement expected n T acts t).next expected n T (acts t) := rfl

/-- A verdict at `t` is the judgement from then on. -/
theorem judgement_of_decided {st : TestStatus} {p : Progress} {a : Activity N} {t u : Nat}
    (h : judgement expected n T acts t = .decided st p a) (htu : t ≤ u) :
    judgement expected n T acts u = .decided st p a := by
  induction htu with
  | refl => exact h
  | step _ ih => rw [judgement_succ, ih]; rfl

/-- Before the first cycle nothing has happened. -/
theorem progressAt_zero : progressAt n.toNat acts 0 = Progress.start n := by
  have h : decide (0 = n.toNat) = decide (n = 0) := by
    refine decide_eq_decide.mpr ?_
    rw [eq_comm, BitVec.toNat_eq]
    rfl
  show (⟨0, decide (0 = n.toNat), 0, 0⟩ : Progress) = ⟨0, decide (n = 0), 0, 0⟩
  rw [h]

/-- A cycle that passes advances the progress to the next counts. -/
theorem advance_progressAt {t : Nat} (h : Passes (listOf expected) n.toNat T acts t) :
    (progressAt n.toNat acts t).advance n (acts t) = progressAt n.toNat acts (t + 1) := by
  have hu : updatesBefore acts (t + 1) = updatesBefore acts t + (acts t).count := by
    rcases h.enabled with hc | ⟨hen, -⟩
    · simp [updatesBefore, hc]
    · simp [updatesBefore, hen]
  have hfits := h.fits
  have hn := n.isLt
  have hle : n ≤ BitVec.ofNat 9 (updatesBefore acts t) + BitVec.ofNat 9 (acts t).count
      ↔ n.toNat ≤ updatesBefore acts t + (acts t).count := by
    rw [← BitVec.ofNat_add, BitVec.le_def, BitVec.toNat_ofNat, Nat.mod_eq_of_lt (by omega)]
  have hdone : (decide (updatesBefore acts t = n.toNat)
      || decide (n ≤ BitVec.ofNat 9 (updatesBefore acts t) + BitVec.ofNat 9 (acts t).count))
        = decide (updatesBefore acts t + (acts t).count = n.toNat) := by
    rw [decide_eq_decide.mpr hle, ← Bool.decide_or]
    exact decide_eq_decide.mpr (by omega)
  simp only [Progress.advance, progressAt, hu, BitVec.ofNat_add, enabledBefore, idleBefore]
  congr 1

/-- A cycle passes exactly when the abstract monitor stays pending at its counts, provided
that the updates of a cycle that takes all entries left do not run past the last address. -/
theorem judge_progressAt_iff {t : Nat} (hu : updatesBefore acts t ≤ n.toNat)
    (hroom : TakesRest (listOf expected) n.toNat T acts t →
      updatesBefore acts t + (acts t).count < 2 ^ 9) :
    judge expected n T (progressAt n.toNat acts t) (acts t)
        = .pending ((progressAt n.toNat acts t).advance n (acts t))
      ↔ Passes (listOf expected) n.toNat T acts t := by
  have hn := n.isLt
  -- below 2^9 the sum of the two counts does not wrap
  have hpos : updatesBefore acts t + (acts t).count < 2 ^ 9 →
      (BitVec.ofNat 9 (updatesBefore acts t) + BitVec.ofNat 9 (acts t).count ≤ n
        ↔ updatesBefore acts t + (acts t).count ≤ n.toNat) := by
    intro hlt
    rw [← BitVec.ofNat_add, BitVec.le_def, BitVec.toNat_ofNat, Nat.mod_eq_of_lt hlt]
  rw [judge_eq_pending_iff]
  simp only [progressAt, decide_eq_true_eq, decide_eq_false_iff_not, entries_ofNat, and_true]
  constructor
  · rintro ⟨hidle, htime, hen, hgroup, hle⟩
    have hen' : (acts t).count = 0 ∨ (acts t).procEnable = true ∧ updatesBefore acts t < n.toNat :=
      hen.imp_right fun h => ⟨h.1, by omega⟩
    have hlt : updatesBefore acts t + (acts t).count < 2 ^ 9 := by
      by_contra hge
      obtain ⟨hproc, hlt⟩ := hen'.resolve_left (by omega)
      refine hge (hroom ⟨hlt, htime.resolve_left (by omega), hproc, ?_⟩)
      rw [hgroup]
      exact slice_le _ _ (by omega)
    exact ⟨hidle, htime, hen', hgroup, (hpos hlt).mp hle⟩
  · rintro ⟨hidle, htime, hen, hgroup, hle⟩
    exact ⟨hidle, htime, hen.imp_right fun h => ⟨h.1, by omega⟩, hgroup,
      (hpos (lt_of_le_of_lt hle hn)).mpr hle⟩

/-- While every cycle passes, at most `n` updates are made. -/
theorem updatesBefore_le_of_passes {list : Nat → ExpectedStateUpdate} {m t : Nat}
    (h : ∀ u < t, Passes list m T acts u) : updatesBefore acts t ≤ m := by
  cases t with
  | zero => exact Nat.zero_le m
  | succ t =>
    have hfits := (h t (Nat.lt_succ_self t)).fits
    show updatesBefore acts t + (if (acts t).procEnable then (acts t).count else 0) ≤ m
    split <;> omega

/-- A passing cycle has room for its updates. -/
theorem Passes.room {list : Nat → ExpectedStateUpdate} {t : Nat}
    (h : Passes list n.toNat T acts t) : updatesBefore acts t + (acts t).count < 2 ^ 9 :=
  lt_of_le_of_lt h.fits n.isLt

/-- As long as every cycle passes, the judgement is pending at the counts of the trace. -/
theorem judgement_of_passes {t : Nat}
    (h : ∀ u < t, Passes (listOf expected) n.toNat T acts u) :
    judgement expected n T acts t = .pending (progressAt n.toNat acts t) := by
  induction t with
  | zero => rw [progressAt_zero]; rfl
  | succ t ih =>
    have hprev : ∀ u < t, Passes (listOf expected) n.toNat T acts u :=
      fun u hu => h u (Nat.lt_succ_of_lt hu)
    have ht := h t (Nat.lt_succ_self t)
    rw [judgement_succ, ih hprev, ← advance_progressAt ht]
    exact (judge_progressAt_iff (updatesBefore_le_of_passes hprev) fun _ => ht.room).mpr ht

/-- No cycle that follows passing cycles and takes all entries left runs past the last
address. -/
def Room (expected : BitVec 9 → ExpectedStateUpdate) (n : BitVec 9) (T : Nat)
    (acts : Nat → Activity N) : Prop :=
  ∀ t, (∀ u < t, Passes (listOf expected) n.toNat T acts u) →
    TakesRest (listOf expected) n.toNat T acts t →
    updatesBefore acts t + (acts t).count < 2 ^ 9

/-- With room, a pending judgement means that every cycle so far has passed. -/
theorem passes_of_judgement_eq_pending (hroom : Room expected n T acts) {p : Progress} {t : Nat}
    (h : judgement expected n T acts t = .pending p) :
    ∀ u < t, Passes (listOf expected) n.toNat T acts u := by
  induction t generalizing p with
  | zero => exact fun u hu => absurd hu (Nat.not_lt_zero u)
  | succ t ih =>
    cases hj : judgement expected n T acts t with
    | decided st q a =>
      rw [judgement_of_decided hj (Nat.le_succ t)] at h
      cases h
    | pending q =>
      have hprev := ih hj
      have hle := updatesBefore_le_of_passes hprev
      rw [judgement_succ, judgement_of_passes hprev] at h
      have h : judge expected n T (progressAt n.toNat acts t) (acts t) = .pending p := h
      obtain rfl := ((judge_eq_pending_iff _ _ _).mp h).2.2.2.2.2
      have ht := (judge_progressAt_iff hle (hroom t hprev)).mp h
      intro u hu
      rcases Nat.lt_succ_iff_lt_or_eq.mp hu with hlt | rfl
      · exact hprev u hlt
      · exact ht

/-- With room, a verdict is given in the first cycle that does not pass. -/
theorem exists_judge_of_judgement_eq_decided (hroom : Room expected n T acts) {st : TestStatus}
    {p : Progress} {a : Activity N} {t : Nat}
    (h : judgement expected n T acts t = .decided st p a) :
    ∃ u < t, (∀ v < u, Passes (listOf expected) n.toNat T acts v) ∧
      judge expected n T (progressAt n.toNat acts u) (acts u) = .decided st p a := by
  induction t with
  | zero => cases h
  | succ t ih =>
    cases hj : judgement expected n T acts t with
    | decided st' q b =>
      rw [judgement_of_decided hj (Nat.le_succ t)] at h
      obtain ⟨u, hu, hpass, hdec⟩ := ih (hj.trans h)
      exact ⟨u, Nat.lt_succ_of_lt hu, hpass, hdec⟩
    | pending q =>
      have hpass := passes_of_judgement_eq_pending hroom hj
      rw [judgement_succ, judgement_of_passes hpass] at h
      exact ⟨t, Nat.lt_succ_self t, hpass, h⟩

/-- A verdict of success comes at the end of a pending prefix with a full idle wait. -/
theorem exists_success_iff (hroom : Room expected n T acts) :
    (∃ t p a, judgement expected n T acts t = .decided .success p a)
      ↔ ∃ t, (∀ u < t, Passes (listOf expected) n.toNat T acts u) ∧
          100 ≤ idleBefore acts n.toNat t := by
  constructor
  · rintro ⟨t, p, a, h⟩
    obtain ⟨u, -, hpass, hdec⟩ := exists_judge_of_judgement_eq_decided hroom h
    exact ⟨u, hpass, ((judge_eq_success_iff _ _ _).mp hdec).1⟩
  · rintro ⟨t, hpass, hidle⟩
    refine ⟨t + 1, progressAt n.toNat acts t, acts t, ?_⟩
    rw [judgement_succ, judgement_of_passes hpass]
    exact (judge_eq_success_iff _ _ _).mpr ⟨hidle, rfl, rfl⟩

end

/-! ### Successful traces

What is left is arithmetic on traces: the first cycle `p` at which the list is used up
splits the passing cycles into those that take entries and those that count as idle. -/

section
variable {list : Nat → ExpectedStateUpdate} {m T : Nat} {acts : Nat → Activity N}

/-- A cycle without updates changes nothing. -/
theorem updatesBefore_succ_of_count_eq_zero {t : Nat} (h : (acts t).count = 0) :
    updatesBefore acts (t + 1) = updatesBefore acts t := by
  simp [updatesBefore, h]

/-- Up to the completion of the list no cycle is idle. -/
theorem idleBefore_eq_zero {t : Nat} (h : ∀ u < t, updatesBefore acts u ≠ m) :
    idleBefore acts m t = 0 := by
  induction t with
  | zero => rfl
  | succ t ih =>
    have ht := h t (Nat.lt_succ_self t)
    simp [idleBefore, ih fun u hu => h u (Nat.lt_succ_of_lt hu), ht]

/-- From the completion of the list on every enabled cycle is idle. -/
theorem idleBefore_add_enabledBefore {p t : Nat} (hpt : p ≤ t)
    (h : ∀ u, p ≤ u → u < t → updatesBefore acts u = m) :
    idleBefore acts m t + enabledBefore acts p = idleBefore acts m p + enabledBefore acts t := by
  induction t, hpt using Nat.le_induction with
  | base => rfl
  | succ t hpt ih =>
    have ih := ih fun u hpu hut => h u hpu (Nat.lt_succ_of_lt hut)
    have ht := h t hpt (Nat.lt_succ_self t)
    simp only [idleBefore, enabledBefore, ht, decide_true, Bool.true_and]
    omega

/-- The number of enabled cycles takes every value in between. -/
theorem exists_enabledBefore_eq {p t k : Nat} (hpt : p ≤ t)
    (h : enabledBefore acts p + k ≤ enabledBefore acts t) :
    ∃ q, p ≤ q ∧ q ≤ t ∧ enabledBefore acts q = enabledBefore acts p + k := by
  induction t, hpt using Nat.le_induction with
  | base => exact ⟨p, le_rfl, le_rfl, by omega⟩
  | succ t hpt ih =>
    by_cases hk : enabledBefore acts p + k ≤ enabledBefore acts t
    · obtain ⟨q, hpq, hqt, hq⟩ := ih hk
      exact ⟨q, hpq, Nat.le_succ_of_le hqt, hq⟩
    · have hstep : enabledBefore acts (t + 1) ≤ enabledBefore acts t + 1 :=
        Nat.add_le_add_left (Bool.toNat_le _) _
      exact ⟨t + 1, by omega, le_rfl, by omega⟩

/-- Once the list is used up, passing cycles make no update. -/
theorem Passes.count_eq_zero {t : Nat} (h : Passes list m T acts t)
    (hdone : updatesBefore acts t = m) : (acts t).count = 0 := by
  have hfits := h.fits
  omega

/-- When the list is used up at some time, no cycle that passes afterwards makes an update. -/
theorem updatesBefore_eq_of_passes {p t : Nat} (hp : updatesBefore acts p = m)
    (hpt : p ≤ t) (h : ∀ u < t, Passes list m T acts u) : updatesBefore acts t = m := by
  induction t, hpt using Nat.le_induction with
  | base => exact hp
  | succ t _ ih =>
    have ht := ih fun u hu => h u (Nat.lt_succ_of_lt hu)
    rw [updatesBefore_succ_of_count_eq_zero ((h t (Nat.lt_succ_self t)).count_eq_zero ht), ht]

/-- The first cycle at which the list is used up follows a cycle that completes it. -/
theorem completesAt_of_passes {p : Nat} (hp : updatesBefore acts p = m)
    (hmin : ∀ u < p, updatesBefore acts u ≠ m) (h : ∀ u < p, Passes list m T acts u) :
    CompletesAt m T acts p := by
  refine ⟨hp, ?_⟩
  cases p with
  | zero => exact Or.inl rfl
  | succ c =>
    have hc := h c (Nat.lt_succ_self c)
    have hne := hmin c (Nat.lt_succ_self c)
    have hle : updatesBefore acts c ≤ m :=
      updatesBefore_le_of_passes fun u hu => h u (Nat.lt_succ_of_lt hu)
    have hen : (acts c).procEnable = true := by
      by_contra hen
      refine hne ?_
      rw [← hp]
      simp [updatesBefore, hen]
    exact Or.inr ⟨c, rfl, hen, by omega, hc.time.resolve_left hne⟩

/-- A passing prefix with a full idle wait is a successful test. -/
theorem accepted_of_passes {t : Nat} (h : ∀ u < t, Passes list m T acts u)
    (hidle : 100 ≤ idleBefore acts m t) : Accepted list m T acts := by
  classical
  have hex : ∃ u, updatesBefore acts u = m := by
    by_contra hne
    rw [idleBefore_eq_zero fun u _ hu => hne ⟨u, hu⟩] at hidle
    omega
  -- `p` is the first cycle at which the list is used up.
  obtain ⟨p, hp, hmin⟩ : ∃ p, updatesBefore acts p = m ∧ ∀ u < p, updatesBefore acts u ≠ m :=
    ⟨Nat.find hex, Nat.find_spec hex, fun u hu => Nat.find_min hex hu⟩
  have hpt : p ≤ t := by
    by_contra htp
    rw [idleBefore_eq_zero fun u hu => hmin u (by omega)] at hidle
    omega
  have hafter : ∀ u, p ≤ u → u < t → updatesBefore acts u = m := fun u hpu hut =>
    updatesBefore_eq_of_passes hp hpu fun v hv => h v (lt_trans hv hut)
  have hsum := idleBefore_add_enabledBefore hpt hafter
  rw [idleBefore_eq_zero hmin] at hsum
  -- `q` is where its idle wait is over, which need not be `t`.
  obtain ⟨q, hpq, hqt, hq⟩ := exists_enabledBefore_eq hpt
    (show enabledBefore acts p + 100 ≤ enabledBefore acts t by omega)
  refine ⟨p, q, hpq, ?_, ?_, ?_, ?_, hq⟩
  · intro u hu hdis
    have hcount := (h u (by omega)).enabled.resolve_right (by simp [hdis])
    exact (Activity.group_eq_zero_iff _).mpr hcount
  · intro u hu _
    exact (h u (by omega)).group
  · exact completesAt_of_passes hp hmin fun u hu => h u (by omega)
  · intro u hpu huq
    have hut : u < t := by omega
    exact (Activity.group_eq_zero_iff _).mpr ((h u hut).count_eq_zero (hafter u hpu hut))

/-- Before the list is used up, the cycles of a successful test pass. -/
theorem passes_of_lt {p t : Nat} (hp : CompletesAt m T acts p) (ht : t < p)
    (hdis : (acts t).procEnable = false → (acts t).group = 0)
    (hen : (acts t).procEnable = true →
      (acts t).group = slice list (updatesBefore acts t) (acts t).count) :
    Passes list m T acts t := by
  obtain ⟨hpm, rfl | ⟨c, rfl, -, hc, hcT⟩⟩ := hp
  · exact absurd ht (Nat.not_lt_zero t)
  · have htc : t ≤ c := Nat.lt_succ_iff.mp ht
    have hlt : updatesBefore acts t < m := lt_of_le_of_lt (updatesBefore_mono acts htc) hc
    have hidle : idleBefore acts m t = 0 := idleBefore_eq_zero fun u hu =>
      ne_of_lt (lt_of_le_of_lt (updatesBefore_mono acts (le_of_lt hu)) hlt)
    have htime : enabledBefore acts t ≤ T := le_trans (enabledBefore_mono acts htc) hcT
    rcases Bool.eq_false_or_eq_true (acts t).procEnable with he | he
    · have hnext : updatesBefore acts (t + 1) = updatesBefore acts t + (acts t).count := by
        simp [updatesBefore, he]
      have hle : updatesBefore acts (t + 1) ≤ m := hpm ▸ updatesBefore_mono acts ht
      exact ⟨by omega, Or.inr htime, Or.inr ⟨he, hlt⟩, hen he, by omega⟩
    · have hcount := (Activity.group_eq_zero_iff _).mp (hdis he)
      refine ⟨by omega, Or.inr htime, Or.inl hcount, ?_, by omega⟩
      rw [hdis he, hcount]
      rfl

/-- From there on they pass until the idle wait is over. -/
theorem passes_of_le {p t : Nat} (hpt : p ≤ t)
    (hafter : ∀ u, p ≤ u → u ≤ t → updatesBefore acts u = m)
    (hp : ∀ u < p, updatesBefore acts u ≠ m) (hgroup : (acts t).group = 0)
    (hidle : enabledBefore acts t < enabledBefore acts p + 100) : Passes list m T acts t := by
  have hcount := (Activity.group_eq_zero_iff _).mp hgroup
  have hdone := hafter t hpt le_rfl
  have hsum := idleBefore_add_enabledBefore hpt fun u hpu hut => hafter u hpu (le_of_lt hut)
  rw [idleBefore_eq_zero hp] at hsum
  refine ⟨by omega, Or.inl hdone, Or.inl hcount, ?_, by omega⟩
  rw [hgroup, hcount]
  rfl

/-- The cycles of a successful test pass until the end of its idle wait. -/
theorem Accepted.passes (h : Accepted list m T acts) :
    ∃ t, (∀ u < t, Passes list m T acts u) ∧ 100 ≤ idleBefore acts m t := by
  classical
  obtain ⟨p, q, hpq, hdis, htake, hp, hquiet, hq⟩ := h
  have hex : ∃ r, p ≤ r ∧ enabledBefore acts r = enabledBefore acts p + 100 := ⟨q, hpq, hq⟩
  -- The idle wait is over at the first such cycle.
  obtain ⟨r, ⟨hpr, hr⟩, hmin⟩ :
      ∃ r, (p ≤ r ∧ enabledBefore acts r = enabledBefore acts p + 100) ∧
        ∀ u < r, ¬ (p ≤ u ∧ enabledBefore acts u = enabledBefore acts p + 100) :=
    ⟨Nat.find hex, Nat.find_spec hex, fun u hu => Nat.find_min hex hu⟩
  have hrq : r ≤ q := by
    by_contra hqr
    exact hmin q (by omega) ⟨hpq, hq⟩
  have hafter : ∀ u, p ≤ u → u ≤ r → updatesBefore acts u = m := by
    intro u hpu hur
    induction u, hpu using Nat.le_induction with
    | base => exact hp.1
    | succ u hpu ih =>
      have hcount := (Activity.group_eq_zero_iff _).mp (hquiet u hpu (by omega))
      rw [updatesBefore_succ_of_count_eq_zero hcount, ih (by omega)]
  have hbefore : ∀ u < p, updatesBefore acts u ≠ m := by
    intro u hu
    obtain ⟨-, rfl | ⟨c, rfl, -, hc, -⟩⟩ := hp
    · exact absurd hu (Nat.not_lt_zero u)
    · exact ne_of_lt
        (lt_of_le_of_lt (updatesBefore_mono acts (Nat.lt_succ_iff.mp hu)) hc)
  refine ⟨r, fun u hur => ?_, ?_⟩
  · -- Up to `p` a cycle takes entries, from `p` on it only waits.
    by_cases hup : u < p
    · exact passes_of_lt hp hup (hdis u (by omega)) (htake u hup)
    · have hpu : p ≤ u := not_lt.mp hup
      have hlt : enabledBefore acts u < enabledBefore acts p + 100 := by
        have hle := enabledBefore_mono acts (le_of_lt hur)
        have hne : enabledBefore acts u ≠ enabledBefore acts p + 100 :=
          fun he => hmin u hur ⟨hpu, he⟩
        omega
      exact passes_of_le hpu (fun v hpv hvu => hafter v hpv (by omega)) hbefore
        (hquiet u hpu (by omega)) hlt
  · have hsum := idleBefore_add_enabledBefore hpr fun u hpu hur => hafter u hpu (le_of_lt hur)
    omega

end

/-- With room for the updates of every cycle, the verdict is `success` exactly for the
successful tests. -/
theorem exists_success_iff_accepted {expected : BitVec 9 → ExpectedStateUpdate} {n : BitVec 9}
    {T : Nat} {acts : Nat → Activity N} (hroom : Room expected n T acts) :
    (∃ t p a, judgement expected n T acts t = .decided .success p a)
      ↔ Accepted (listOf expected) n.toNat T acts := by
  rw [exists_success_iff hroom]
  constructor
  · rintro ⟨t, hpass, hidle⟩
    exact accepted_of_passes hpass hidle
  · exact Accepted.passes

end VivadoTest.Spec
