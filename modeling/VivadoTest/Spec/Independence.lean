import VivadoTest.Spec.Trace

/-!
# `VivadoTest.Spec.Independence`: which entries a judgement depends on

Two lists that agree on their first `n` entries give the same judgement on a trace
(`judgement_congr`), unless some cycle straddles the end of the list (`Straddles`): it takes
all entries left and makes more updates, so that the entries past the end decide whether the
updates count as incorrect or as extra.

A list is a function on all positions, of which the first `n` are configured. The lemmas here say
what of a trace depends on these alone: whether a cycle passes (`Passes.congr`), and whether it
straddles the end.
-/

set_option autoImplicit false

namespace VivadoTest.Spec

open VivadoTest.Framework

variable {N : Nat}

/-- Some cycle, reached without a verdict, takes all entries left and makes more updates. -/
def Straddles (list : Nat → ExpectedStateUpdate) (n T : Nat) (acts : Nat → Activity N) : Prop :=
  ∃ c, (∀ u < c, Passes list n T acts u) ∧ TakesRest list n T acts c ∧
    n < updatesBefore acts c + (acts c).count

section
variable {list list' : Nat → ExpectedStateUpdate} {n T : Nat} {acts : Nat → Activity N}

/-- Whether a cycle passes depends on the first `n` entries only. -/
theorem Passes.congr (h : ∀ i < n, list i = list' i) {t : Nat} (ht : Passes list n T acts t) :
    Passes list' n T acts t :=
  ⟨ht.idle, ht.time, ht.enabled, ht.group.trans (slice_congr h ht.fits), ht.fits⟩

/-- Only the first `n` entries count for which updates take the rest of the list. -/
theorem TakesRest.congr (h : ∀ i < n, list i = list' i) {t : Nat}
    (ht : TakesRest list n T acts t) : TakesRest list' n T acts t := by
  have hlt := ht.lt
  refine ⟨ht.lt, ht.time, ht.procEnable, ?_⟩
  rw [← slice_congr h (by omega)]
  exact ht.rest_le

/-- Nor do entries past the end count for whether a cycle straddles it. -/
theorem Straddles.congr (h : ∀ i < n, list i = list' i) (hs : Straddles list n T acts) :
    Straddles list' n T acts := by
  obtain ⟨c, hpass, hrest, hlt⟩ := hs
  exact ⟨c, fun u hu => (hpass u hu).congr h, hrest.congr h, hlt⟩

end

section
variable {expected expected' : BitVec 9 → ExpectedStateUpdate} {n : BitVec 9} {T : Nat}
  {acts : Nat → Activity N}

/-- A trace that does not straddle the end of the list has room. -/
theorem room_of_not_straddles (h : ¬ Straddles (listOf expected) n.toNat T acts) :
    Room expected n T acts := by
  intro t hpass hrest
  by_contra hge
  have hn := n.isLt
  exact h ⟨t, hpass, hrest, by omega⟩

/-- Two RAMs with the same first `n` entries hold the same list. -/
theorem listOf_congr (h : ∀ k < n, expected k = expected' k) :
    ∀ i < n.toNat, listOf expected i = listOf expected' i := by
  intro i hi
  refine h (BitVec.ofNat 9 i) ?_
  have hn := n.isLt
  rw [BitVec.lt_def, BitVec.toNat_ofNat, Nat.mod_eq_of_lt (by omega)]
  exact hi

/-- The list decides a cycle only through the comparison of its updates with the next entries,
and only when the earlier cases do not apply. -/
theorem judge_congr {p : Progress} {a : Activity N}
    (h : a.count ≠ 0 → a.procEnable = true → p.listDone = false → p.cycles ≤ T →
      (a.group = entries expected p.pos a.count ↔ a.group = entries expected' p.pos a.count)) :
    judge expected n T p a = judge expected' n T p a := by
  unfold judge
  -- the earlier branches do not look at the list
  by_cases hidle : p.idle ≥ 100
  · simp [hidle]
  by_cases htime : p.cycles > T ∧ p.listDone = false
  · simp [hidle, htime]
  by_cases hdis : a.count ≠ 0 ∧ a.procEnable = false
  · simp [hidle, htime, hdis]
  by_cases hdone : a.count ≠ 0 ∧ p.listDone = true
  · rw [if_neg hidle, if_neg htime, if_neg hdis, if_pos hdone, if_neg hidle, if_neg htime,
      if_neg hdis, if_pos hdone]
  rw [if_neg hidle, if_neg htime, if_neg hdis, if_neg hdone, if_neg hidle, if_neg htime,
    if_neg hdis, if_neg hdone]
  by_cases hcount : a.count = 0
  · simp [hcount]
  · have hen : a.procEnable = true := by
      rw [← Bool.not_eq_false]
      exact fun he => hdis ⟨hcount, he⟩
    have hlist : p.listDone = false := by
      rw [← Bool.not_eq_true]
      exact fun hd => hdone ⟨hcount, hd⟩
    have hcycles : p.cycles ≤ T := not_lt.mp fun hlt => htime ⟨hlt, hlist⟩
    simp only [ne_eq, h hcount hen hlist hcycles]

/-- The updates of a cycle that does not straddle are compared with the first `n` entries
only: when they run past the end, an entry before it is missing among them. -/
theorem group_eq_entries_congr (h : ∀ k < n, expected k = expected' k) {t : Nat}
    (hrest : TakesRest (listOf expected) n.toNat T acts t →
      updatesBefore acts t + (acts t).count ≤ n.toNat)
    (hlt : updatesBefore acts t < n.toNat) (htime : enabledBefore acts t ≤ T)
    (hen : (acts t).procEnable = true)
    (hgroup : (acts t).group
      = entries expected (BitVec.ofNat 9 (updatesBefore acts t)) (acts t).count) :
    (acts t).group
      = entries expected' (BitVec.ofNat 9 (updatesBefore acts t)) (acts t).count := by
  rw [entries_ofNat] at hgroup ⊢
  have hle : updatesBefore acts t + (acts t).count ≤ n.toNat := by
    by_contra hgt
    refine hgt (hrest ⟨hlt, htime, hen, ?_⟩)
    rw [hgroup]
    exact slice_le _ _ (by omega)
  rw [hgroup, slice_congr (listOf_congr h) hle]

/-- On a trace that does not straddle the end of the list, the judgement depends on the first
`n` entries only. -/
theorem judgement_congr (h : ∀ k < n, expected k = expected' k)
    (hs : ¬ Straddles (listOf expected) n.toNat T acts) (t : Nat) :
    judgement expected n T acts t = judgement expected' n T acts t := by
  have h' : ∀ k < n, expected' k = expected k := fun k hk => (h k hk).symm
  have hs' : ¬ Straddles (listOf expected') n.toNat T acts := fun hst =>
    hs (hst.congr (listOf_congr h'))
  induction t with
  | zero => rfl
  | succ t ih =>
    cases hj : judgement expected n T acts t with
    | decided st p a =>
      rw [judgement_of_decided hj (Nat.le_succ t),
        judgement_of_decided (ih.symm.trans hj) (Nat.le_succ t)]
    | pending p =>
      -- both monitors are at the same place; the next group reaches past the end in neither
      have hpass := passes_of_judgement_eq_pending (room_of_not_straddles hs) hj
      have hpass' : ∀ u < t, Passes (listOf expected') n.toNat T acts u :=
        fun u hu => (hpass u hu).congr (listOf_congr h)
      rw [judgement_succ, judgement_succ, judgement_of_passes hpass, judgement_of_passes hpass']
      refine judge_congr fun _ hen hlist htime => ?_
      have hlt : updatesBefore acts t < n.toNat :=
        lt_of_le_of_ne (updatesBefore_le_of_passes hpass) (of_decide_eq_false hlist)
      constructor
      · exact group_eq_entries_congr h
          (fun hrest => not_lt.mp fun hgt => hs ⟨t, hpass, hrest, hgt⟩) hlt htime hen
      · exact group_eq_entries_congr h'
          (fun hrest => not_lt.mp fun hgt => hs' ⟨t, hpass', hrest, hgt⟩) hlt htime hen

end

end VivadoTest.Spec
