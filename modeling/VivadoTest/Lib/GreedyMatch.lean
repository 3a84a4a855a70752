import Mathlib.Data.Finset.Max
import Mathlib.Data.Multiset.MapFold
import Mathlib.Data.Multiset.Range

/-!
# `VivadoTest.Lib.GreedyMatch`: greedy matching decides multiset equality

A finite set of slots `A` holds values `v`. A sequence `e 0, e 1, …` of wanted values is
served in order: each wanted value takes the least remaining slot that holds it, and fails
when slots remain but none of them holds it. `remaining` is the set of slots left before
the wanted value `i`, `FailsAt` the failure at `i`.

* `map_val_eq_range_add_remaining`: while nothing fails, the values of `A` are the wanted
  values served so far together with the values of the remaining slots.
* `not_failsAt_iff`: nothing fails up to `A.card` exactly when the values of `A` are, as a
  multiset, `e 0, …, e (A.card - 1)`.

The order in which the slots are searched does not matter for whether something fails, only for
which slots are left then: of several slots with the wanted value the least one is taken.
-/

set_option autoImplicit false

namespace VivadoTest.Lib.GreedyMatch

section
variable {ι α : Type*} [LinearOrder ι] [DecidableEq α]

/-- The slots of `A` that hold the value `x`. -/
def hits (A : Finset ι) (v : ι → α) (x : α) : Finset ι := A.filter (fun i => v i = x)

/-- The slots left after `x` has taken the least slot that holds it. -/
def consume (A : Finset ι) (v : ι → α) (x : α) : Finset ι :=
  if h : (hits A v x).Nonempty then A.erase ((hits A v x).min' h) else A

/-- The slots left before the wanted value `e i`. -/
def remaining (A : Finset ι) (v : ι → α) (e : Nat → α) : Nat → Finset ι
  | 0 => A
  | i + 1 => consume (remaining A v e i) v (e i)

/-- The wanted value `e i` fails: slots remain, but none holds it. -/
def FailsAt (A : Finset ι) (v : ι → α) (e : Nat → α) (i : Nat) : Prop :=
  (remaining A v e i).Nonempty ∧ hits (remaining A v e i) v (e i) = ∅

instance (A : Finset ι) (v : ι → α) (e : Nat → α) : DecidablePred (FailsAt A v e) :=
  fun _ => inferInstanceAs (Decidable (_ ∧ _))

omit [LinearOrder ι] in
/-- A hit is an index still in play whose value is `x`. -/
theorem mem_hits {A : Finset ι} {v : ι → α} {x : α} {i : ι} :
    i ∈ hits A v x ↔ i ∈ A ∧ v i = x := Finset.mem_filter

/-- Without a hit nothing is taken away. -/
theorem consume_of_hits_eq_empty {A : Finset ι} {v : ι → α} {x : α}
    (h : hits A v x = ∅) : consume A v x = A := by
  rw [consume, dif_neg (by rw [h]; exact Finset.not_nonempty_empty)]

/-- A successful step takes one slot that holds the wanted value. -/
theorem exists_consume_eq_erase {A : Finset ι} {v : ι → α} {x : α}
    (h : (hits A v x).Nonempty) :
    ∃ i ∈ A, v i = x ∧ consume A v x = A.erase i := by
  obtain ⟨hmem, hval⟩ := mem_hits.mp ((hits A v x).min'_mem h)
  exact ⟨_, hmem, hval, by rw [consume, dif_pos h]⟩

/-- What is left was there. -/
theorem consume_subset (A : Finset ι) (v : ι → α) (x : α) : consume A v x ⊆ A := by
  rcases (hits A v x).eq_empty_or_nonempty with h | h
  · rw [consume_of_hits_eq_empty h]
  · obtain ⟨i, -, -, he⟩ := exists_consume_eq_erase h
    rw [he]
    exact Finset.erase_subset i A

/-- From nothing, nothing is left. -/
theorem consume_empty (v : ι → α) (x : α) : consume ∅ v x = ∅ :=
  Finset.subset_empty.mp (consume_subset ∅ v x)

/-- Taking a hit removes one occurrence of the wanted value. -/
theorem map_val_consume {A : Finset ι} {v : ι → α} {x : α} (h : (hits A v x).Nonempty) :
    A.val.map v = x ::ₘ (consume A v x).val.map v := by
  obtain ⟨i, hi, hv, he⟩ := exists_consume_eq_erase h
  rw [he, Finset.erase_val, ← hv, ← Multiset.map_cons, Multiset.cons_erase hi]

/-- A hit takes exactly one index away, however many there are. -/
theorem card_consume {A : Finset ι} {v : ι → α} {x : α} (h : (hits A v x).Nonempty) :
    (consume A v x).card + 1 = A.card := by
  obtain ⟨i, hi, -, he⟩ := exists_consume_eq_erase h
  rw [he, Finset.card_erase_add_one hi]

/-- Slots only get fewer. -/
theorem remaining_anti (A : Finset ι) (v : ι → α) (e : Nat → α) {m n : Nat} (h : m ≤ n) :
    remaining A v e n ⊆ remaining A v e m := by
  induction n, h using Nat.le_induction with
  | base => exact subset_rfl
  | succ n h ih => exact (consume_subset _ v (e n)).trans ih

/-- What remains after several values was there. -/
theorem remaining_subset (A : Finset ι) (v : ι → α) (e : Nat → α) (m : Nat) :
    remaining A v e m ⊆ A := by
  induction m with
  | zero => exact subset_rfl
  | succ m ih => exact (consume_subset _ v (e m)).trans ih

/-- Without a failure at `i`, either no slot is left or `e i` has a hit. -/
theorem not_failsAt {A : Finset ι} {v : ι → α} {e : Nat → α} {i : Nat} :
    ¬ FailsAt A v e i ↔
      remaining A v e i = ∅ ∨ (hits (remaining A v e i) v (e i)).Nonempty := by
  rw [FailsAt, not_and_or, Finset.not_nonempty_iff_eq_empty, ← Ne,
    ← Finset.nonempty_iff_ne_empty]

/-- While nothing fails, each wanted value takes one slot, until none is left. -/
theorem card_remaining {A : Finset ι} {v : ι → α} {e : Nat → α} {m : Nat}
    (h : ∀ i < m, ¬ FailsAt A v e i) : (remaining A v e m).card = A.card - m := by
  induction m with
  | zero => rfl
  | succ m ih =>
    have hm := ih fun i hi => h i (Nat.lt_succ_of_lt hi)
    rw [remaining]
    rcases not_failsAt.mp (h m (Nat.lt_succ_self m)) with he | hhit
    · rw [he, consume_empty]
      rw [he, Finset.card_empty] at hm
      rw [Finset.card_empty]
      omega
    · have := card_consume hhit
      omega

/-- While nothing fails, the served values and the values of the remaining slots together
are the values of `A`. -/
theorem map_val_eq_range_add_remaining {A : Finset ι} {v : ι → α} {e : Nat → α} {m : Nat}
    (hm : m ≤ A.card) (h : ∀ i < m, ¬ FailsAt A v e i) :
    A.val.map v = (Multiset.range m).map e + (remaining A v e m).val.map v := by
  induction m with
  | zero => simp [remaining]
  | succ m ih =>
    have hprev : ∀ i < m, ¬ FailsAt A v e i := fun i hi => h i (Nat.lt_succ_of_lt hi)
    have hcard := card_remaining hprev
    rcases not_failsAt.mp (h m (Nat.lt_succ_self m)) with he | hhit
    · rw [he, Finset.card_empty] at hcard
      omega
    · rw [ih (by omega) hprev, map_val_consume hhit, Multiset.range_succ, Multiset.map_cons,
        remaining, Multiset.add_cons, Multiset.cons_add]

/-- When `A` holds at least the first `m` wanted values, nothing fails before `m`. -/
theorem not_failsAt_of_le {A : Finset ι} {v : ι → α} {e : Nat → α} {m : Nat}
    (h : (Multiset.range m).map e ≤ A.val.map v) : ∀ i < m, ¬ FailsAt A v e i := by
  induction m with
  | zero => exact fun i hi => absurd hi (Nat.not_lt_zero i)
  | succ m ih =>
    have hsub : (Multiset.range m).map e ≤ A.val.map v :=
      le_trans (by rw [Multiset.range_succ, Multiset.map_cons]; exact Multiset.le_cons_self _ _) h
    have hprev := ih hsub
    intro i hi
    rcases Nat.lt_succ_iff_lt_or_eq.mp hi with hlt | rfl
    · exact hprev i hlt
    · have hle : i + 1 ≤ A.card := by simpa using Multiset.card_le_card h
      rw [map_val_eq_range_add_remaining (by omega) hprev, Multiset.range_succ,
        Multiset.map_cons, ← Multiset.singleton_add, add_comm] at h
      have hmem : e i ∈ (remaining A v e i).val.map v :=
        Multiset.singleton_le.mp (le_of_add_le_add_left h)
      obtain ⟨s, hs, hv⟩ := Multiset.mem_map.mp hmem
      exact not_failsAt.mpr (Or.inr ⟨s, mem_hits.mpr ⟨hs, hv⟩⟩)

/-- No failure among the first `m` wanted values, for an `A` that is not too small for
them: they are among the values of `A`. -/
theorem not_failsAt_iff_le {A : Finset ι} {v : ι → α} {e : Nat → α} {m : Nat}
    (hm : m ≤ A.card) :
    (∀ i < m, ¬ FailsAt A v e i) ↔ (Multiset.range m).map e ≤ A.val.map v := by
  refine ⟨fun h => ?_, not_failsAt_of_le⟩
  rw [map_val_eq_range_add_remaining hm h]
  exact Multiset.le_add_right _ _

/-- A wanted value beyond the size of `A` cannot fail unless an earlier one did. -/
theorem not_failsAt_of_card_le {A : Finset ι} {v : ι → α} {e : Nat → α}
    (h : ∀ i < A.card, ¬ FailsAt A v e i) : ∀ i, ¬ FailsAt A v e i := by
  intro i
  induction i using Nat.strong_induction_on with
  | _ i ih =>
    rcases Nat.lt_or_ge i A.card with hlt | hge
    · exact h i hlt
    · have hcard := card_remaining ih
      exact not_failsAt.mpr (Or.inl (Finset.card_eq_zero.mp (by omega)))

/-- Greedy matching decides multiset equality: no wanted value among the first `m` fails,
for an `m` that covers `A`, exactly when the values of `A` are the first `A.card` wanted
values. -/
theorem not_failsAt_iff {A : Finset ι} {v : ι → α} {e : Nat → α} {m : Nat}
    (hm : A.card ≤ m) :
    (∀ i < m, ¬ FailsAt A v e i) ↔ A.val.map v = (Multiset.range A.card).map e := by
  constructor
  · intro h
    have hA : ∀ i < A.card, ¬ FailsAt A v e i := fun i hi => h i (by omega)
    have hrest : remaining A v e A.card = ∅ := by
      have hcard := card_remaining hA
      exact Finset.card_eq_zero.mp (by omega)
    rw [map_val_eq_range_add_remaining le_rfl hA, hrest, Finset.empty_val, Multiset.map_zero,
      add_zero]
  · intro h i _
    exact not_failsAt_of_card_le (not_failsAt_of_le h.ge) i

/-- The slots left depend only on the wanted values already served. -/
theorem remaining_congr {A : Finset ι} {v : ι → α} {e e' : Nat → α} {m : Nat}
    (h : ∀ i < m, e i = e' i) : remaining A v e m = remaining A v e' m := by
  induction m with
  | zero => rfl
  | succ m ih =>
    rw [remaining, remaining, ih fun i hi => h i (Nat.lt_succ_of_lt hi),
      h m (Nat.lt_succ_self m)]

/-- A failure depends only on the wanted values up to it. -/
theorem failsAt_congr {A : Finset ι} {v : ι → α} {e e' : Nat → α} {i : Nat}
    (h : ∀ k ≤ i, e k = e' k) : FailsAt A v e i ↔ FailsAt A v e' i := by
  rw [FailsAt, FailsAt, remaining_congr fun k hk => h k (Nat.le_of_lt hk), h i le_rfl]

end

end VivadoTest.Lib.GreedyMatch
