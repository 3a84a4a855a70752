import Mathlib.Data.List.Basic
import Mathlib.Data.List.Chain

/-!
# `VivadoTest.Lib.GroupBy`: grouping a sorted list

`groupBy` is `itertools.groupby`: the maximal runs of elements with one key. On a list that is
sorted by the key a run holds every element with its key.

* `groupBy_eq_filter`: the group of a key.
* `exists_mem_groupBy`: every element has a group.

Python groups a sequence as it comes, so a key that comes again later has a second group. Sorting
by the key first is what makes the groups unique.
-/

set_option autoImplicit false

namespace VivadoTest.Lib

section
variable {α κ : Type*} [DecidableEq κ] (key : α → κ)

/-- The runs of elements with one key, with their keys. -/
def groupBy : List α → List (κ × List α)
  | [] => []
  | a :: l =>
    match groupBy l with
    | [] => [(key a, [a])]
    | (k, group) :: groups =>
      if key a = k then (k, a :: group) :: groups else (key a, [a]) :: (k, group) :: groups

/-- The first run is that of the first element. -/
theorem groupBy_cons (a : α) (l : List α) :
    ∃ group groups, groupBy key (a :: l) = (key a, a :: group) :: groups := by
  unfold groupBy
  split
  · exact ⟨[], [], rfl⟩
  · next k group groups _ =>
    split
    · next h => exact ⟨group, groups, by rw [h]⟩
    · exact ⟨[], _, rfl⟩

/-- Every element is in the group of its key. -/
theorem exists_mem_groupBy {l : List α} {a : α} (h : a ∈ l) :
    ∃ group, (key a, group) ∈ groupBy key l := by
  induction l with
  | nil => cases h
  | cons b l ih =>
    cases List.mem_cons.mp h with
    | inl hab =>
      obtain ⟨group, groups, heq⟩ := groupBy_cons key b l
      rw [hab, heq]
      exact ⟨_, List.mem_cons_self⟩
    | inr hmem =>
      -- the first element joins the group at the front, or opens a new one
      obtain ⟨group, hgroup⟩ := ih hmem
      unfold groupBy
      split
      · next heq =>
        rw [heq] at hgroup
        cases hgroup
      · next k g groups heq =>
        rw [heq] at hgroup
        split
        · cases List.mem_cons.mp hgroup with
          | inl h =>
            rw [(Prod.mk.inj h).1]
            exact ⟨_, List.mem_cons_self⟩
          | inr h => exact ⟨group, List.mem_cons_of_mem _ h⟩
        · exact ⟨group, List.mem_cons_of_mem _ hgroup⟩

/-- Every group has an element with its key. -/
theorem exists_key_of_mem_groupBy {l : List α} {k : κ} {group : List α}
    (h : (k, group) ∈ groupBy key l) : ∃ a ∈ l, key a = k := by
  induction l generalizing k group with
  | nil => cases h
  | cons b l ih =>
    have hb : ∃ a ∈ b :: l, key a = key b := ⟨b, List.mem_cons_self, rfl⟩
    have hl : ∀ {k group}, (k, group) ∈ groupBy key l → ∃ a ∈ b :: l, key a = k := by
      intro k group hmem
      obtain ⟨a, ha, hak⟩ := ih hmem
      exact ⟨a, List.mem_cons_of_mem b ha, hak⟩
    -- `b` joins the first run behind it when the keys agree, and begins a run of its own
    -- otherwise.
    unfold groupBy at h
    split at h
    · rw [(Prod.mk.inj (List.mem_singleton.mp h)).1]
      exact hb
    · next k' group' groups heq =>
      rw [heq] at hl
      split at h
      · cases List.mem_cons.mp h with
        | inl h =>
          rw [(Prod.mk.inj h).1]
          exact hl List.mem_cons_self
        | inr h => exact hl (List.mem_cons_of_mem _ h)
      · cases List.mem_cons.mp h with
        | inl h =>
          rw [(Prod.mk.inj h).1]
          exact hb
        | inr h => exact hl h

end

section
variable {α κ : Type*} [PartialOrder κ] [DecidableEq κ] (key : α → κ)

/-- In a sorted list the keys of the runs ascend. -/
theorem pairwise_groupBy {l : List α} (hsorted : l.Pairwise fun a b => key a ≤ key b) :
    (groupBy key l).Pairwise fun g g' => g.1 < g'.1 := by
  induction l with
  | nil => exact List.Pairwise.nil
  | cons a l ih =>
    obtain ⟨hle, hsorted'⟩ := List.pairwise_cons.mp hsorted
    have hgroups := ih hsorted'
    have hkey : ∀ g ∈ groupBy key l, key a ≤ g.1 := by
      intro g hg
      obtain ⟨b, hb, hbk⟩ := exists_key_of_mem_groupBy key hg
      rw [← hbk]
      exact hle b hb
    unfold groupBy
    split
    · exact List.pairwise_singleton _ _
    · next k group groups heq =>
      rw [heq] at hgroups hkey
      obtain ⟨hfirst, hrest⟩ := List.pairwise_cons.mp hgroups
      split
      · exact List.pairwise_cons.mpr ⟨hfirst, hrest⟩
      · next hne =>
        -- the new run stands before all others
        have hlt : key a < k := lt_of_le_of_ne (hkey _ List.mem_cons_self) hne
        refine List.pairwise_cons.mpr ⟨fun g hg => ?_, hgroups⟩
        cases List.mem_cons.mp hg with
        | inl h => rwa [h]
        | inr h => exact hlt.trans (hfirst g h)

/-- In a sorted list a run holds every element with its key. -/
theorem groupBy_eq_filter {l : List α} (hsorted : l.Pairwise fun a b => key a ≤ key b) {k : κ}
    {group : List α} (h : (k, group) ∈ groupBy key l) : group = l.filter fun a => key a = k := by
  induction l generalizing k group with
  | nil => cases h
  | cons a l ih =>
    have hpair := pairwise_groupBy key hsorted
    have hl : ∀ {k group}, (k, group) ∈ groupBy key l → group = l.filter fun a => key a = k :=
      fun h => ih (List.pairwise_cons.mp hsorted).2 h
    unfold groupBy at h hpair
    split at h
    · next heq =>
      -- an empty grouping is that of an empty list
      obtain rfl : l = [] := by
        cases l with
        | nil => rfl
        | cons b l =>
          obtain ⟨group, groups, hcons⟩ := groupBy_cons key b l
          rw [hcons] at heq
          cases heq
      obtain ⟨rfl, rfl⟩ := Prod.mk.inj (List.mem_singleton.mp h)
      simp
    · next k' group' groups heq =>
      rw [heq] at hl hpair
      by_cases ha : key a = k'
      · rw [if_pos ha] at h
        simp only [if_pos ha] at hpair
        cases List.mem_cons.mp h with
        | inl h =>
          obtain ⟨rfl, rfl⟩ := Prod.mk.inj h
          rw [hl List.mem_cons_self, List.filter_cons_of_pos (by simpa using ha)]
        | inr h =>
          have hlt := (List.pairwise_cons.mp hpair).1 _ h
          rw [hl (List.mem_cons_of_mem _ h),
            List.filter_cons_of_neg (by simpa [ha] using ne_of_lt hlt)]
      · rw [if_neg ha] at h
        simp only [if_neg ha] at hpair
        cases List.mem_cons.mp h with
        | inl h =>
          obtain ⟨rfl, rfl⟩ := Prod.mk.inj h
          -- no other element has the first key
          have hnone : (l.filter fun b => key b = key a) = [] := by
            rw [List.filter_eq_nil_iff]
            intro b hb
            obtain ⟨g, hg⟩ := exists_mem_groupBy key hb
            rw [heq] at hg
            have hlt := (List.pairwise_cons.mp hpair).1 _ hg
            simpa using (ne_of_lt hlt).symm
          rw [List.filter_cons_of_pos (by simp), hnone]
        | inr h =>
          have hlt := (List.pairwise_cons.mp hpair).1 _ h
          rw [hl h, List.filter_cons_of_neg (by simpa using ne_of_lt hlt)]

end

end VivadoTest.Lib
