import Mathlib.Logic.Basic
import Mathlib.Data.Nat.Find
import Mathlib.Data.List.Basic

/-!
# `VivadoTest.Lib.LeadsTo`: progress of a run that keeps a log

A run is looked at through predicates on its times and through a log that grows with the time.
`LeadsTo log P Q` says that from every time at which `P` holds the run comes to a time at
which `Q` does, where `Q` may speak of what has been logged in between.

* `LeadsTo.trans`, `LeadsTo.trans_of_empty`: progress in stages.
* `LeadsTo.of_next`: progress in one step.
* `LeadsTo.wait`: a predicate that lasts until an event, and an event that keeps happening.

The end of a stage may speak of the log since its start, so stages compose by appending what they
have logged. A stage that logs nothing composes with any other (`LeadsTo.trans_of_empty`).
-/

set_option autoImplicit false

namespace VivadoTest.Lib

variable {ω : Type*} {log : Nat → List ω}

/-- From `P` the run comes to `Q`, which takes what is logged on the way. -/
def LeadsTo (log : Nat → List ω) (P : Nat → Prop) (Q : List ω → Nat → Prop) : Prop :=
  ∀ t, P t → ∃ u out, t ≤ u ∧ log u = log t ++ out ∧ Q out u

namespace LeadsTo

variable {P : Nat → Prop} {Q R : List ω → Nat → Prop}

/-- Nothing has to happen to get where one is. -/
theorem refl (log : Nat → List ω) (P : Nat → Prop) : LeadsTo log P fun out t => out = [] ∧ P t :=
  fun t ht => ⟨t, [], le_rfl, (List.append_nil _).symm, rfl, ht⟩

/-- A weaker end is reached too. -/
theorem mono {Q' : List ω → Nat → Prop} (h : LeadsTo log P Q)
    (hQ : ∀ out t, Q out t → Q' out t) : LeadsTo log P Q' := by
  intro t ht
  obtain ⟨u, out, hle, hlog, hu⟩ := h t ht
  exact ⟨u, out, hle, hlog, hQ out u hu⟩

/-- Two stages: the second starts from each end of the first. -/
theorem trans (h : LeadsTo log P Q)
    (h' : ∀ out, LeadsTo log (Q out) fun out' t => R (out ++ out') t) : LeadsTo log P R := by
  intro t ht
  obtain ⟨u, out, htu, hlog, hu⟩ := h t ht
  obtain ⟨v, out', huv, hlog', hv⟩ := h' out u hu
  exact ⟨v, out ++ out', Nat.le_trans htu huv, by rw [hlog', hlog, List.append_assoc], hv⟩

/-- A first stage that logs nothing. -/
theorem trans_of_empty {P' : Nat → Prop} (h : LeadsTo log P fun out t => out = [] ∧ P' t)
    (h' : LeadsTo log P' R) : LeadsTo log P R := by
  refine h.trans fun out t ⟨hout, ht⟩ => ?_
  subst hout
  exact h' t ht

/-- One step. -/
theorem of_next (h : ∀ t, P t → ∃ out, log (t + 1) = log t ++ out ∧ Q out (t + 1)) :
    LeadsTo log P Q := by
  intro t ht
  obtain ⟨out, hlog, hu⟩ := h t ht
  exact ⟨t + 1, out, Nat.le_succ t, hlog, hu⟩

/-- `P` lasts, and logs nothing, until the event `E`, which happens again and again. -/
theorem wait {E : Nat → Prop} (hE : ∀ t, ∃ u, t ≤ u ∧ E u)
    (hstay : ∀ t, P t → ¬ E t → log (t + 1) = log t ∧ P (t + 1)) :
    LeadsTo log P fun out t => out = [] ∧ P t ∧ E t := by
  intro t ht
  obtain ⟨u, htu, hu⟩ := hE t
  -- by induction on the distance to an event
  obtain ⟨d, rfl⟩ := Nat.exists_eq_add_of_le htu
  induction d generalizing t with
  | zero => exact ⟨t, [], le_rfl, (List.append_nil _).symm, rfl, ht, hu⟩
  | succ d ih =>
    by_cases hnow : E t
    · exact ⟨t, [], le_rfl, (List.append_nil _).symm, rfl, ht, hnow⟩
    · obtain ⟨hlog, hnext⟩ := hstay t ht hnow
      have heq : t + (d + 1) = t + 1 + d := by omega
      rw [heq] at hu
      obtain ⟨v, out, hle, hlog', hv⟩ := ih (t + 1) hnext (by omega) hu
      exact ⟨v, out, by omega, by rw [hlog', hlog], hv⟩

end LeadsTo

end VivadoTest.Lib
