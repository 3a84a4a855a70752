import Mathlib.Data.List.DropRight
import Mathlib.Data.List.Infix

/-!
# `VivadoTest.Lib.PurePath`: paths by their components

The parts of a path as `pathlib.PurePosixPath` has them: the root, then the components without the
empty ones and without `.`. A path is under another one when the parts of that one come first.

* `below_entry_iff`: what is above an entry is its directory, or above that.
* `not_under_iff_cut`: where the text of a path starts with that of another and the path is not
  under it, the other one stops inside a component.

`Under` includes the path itself and `Below` does not. That the text of a path starts with that of
another one is neither necessary nor sufficient for them: `a/b` is under `a//` and does not start
with it, `ab` starts with `a` and is not under it. `Cut` is the second of these.
-/

set_option autoImplicit false

namespace VivadoTest.Lib

/-- A path keeps this component. -/
def isComponent (c : List Char) : Bool := !c.isEmpty && c != ['.']

/-- The parts of a path. -/
def parts (p : List Char) : List (List Char) :=
  (if p.head? = some '/' then [['/']] else []) ++ (p.splitOn '/').filter isComponent

/-- `p` is `d`, or `d` is an ancestor directory of it. -/
def Under (d p : List Char) : Prop := parts d <+: parts p

/-- `d` is a proper ancestor directory of `p`. -/
def Below (d p : List Char) : Prop := parts d <+: parts p ∧ parts d ≠ parts p

instance (d p : List Char) : Decidable (Under d p) :=
  inferInstanceAs (Decidable (parts d <+: parts p))

instance (d p : List Char) : Decidable (Below d p) :=
  inferInstanceAs (Decidable (parts d <+: parts p ∧ parts d ≠ parts p))

/-- The name of an entry, as `os.scandir` lists them. -/
def IsEntryName (name : List Char) : Prop := name ≠ [] ∧ name ≠ ['.'] ∧ '/' ∉ name

/-- The text after the last slash. -/
def lastField (p : List Char) : List Char := p.rtakeWhile fun c => c != '/'

/-- The text of `p` goes on in the middle of the last component of `d`. -/
def Cut (d p : List Char) : Prop :=
  ∃ c rest, p = d ++ c :: rest ∧ c ≠ '/' ∧ isComponent (lastField d) = true

/-! ### The parts of a text that goes on -/

/-- What follows a path joins its last field. -/
theorem exists_splitOn_append (d : List Char) : ∃ init : List (List Char), ∀ t : List Char,
    (d ++ t).splitOn '/' = init ++ (t.splitOn '/').modifyHead (lastField d ++ ·) := by
  induction d using List.reverseRecOn with
  | nil =>
    refine ⟨[], fun t => ?_⟩
    show t.splitOn '/' = (t.splitOn '/').modifyHead id
    rw [List.modifyHead_id]
    rfl
  | append_singleton d c ih =>
    obtain ⟨init, hinit⟩ := ih
    -- A slash completes the last field, any other character makes it longer.
    by_cases hc : c = '/'
    · refine ⟨init ++ [lastField d], fun t => ?_⟩
      have hlast : lastField (d ++ [c]) = [] := List.rtakeWhile_concat_neg _ _ _ (by simp [hc])
      rw [hlast, List.append_assoc, hinit, List.singleton_append, hc,
        List.splitOn_cons_eq_if_modifyHead, if_pos (beq_self_eq_true '/'), List.modifyHead_cons,
        List.append_nil, List.append_assoc]
      show _ = init ++ ([lastField d] ++ (t.splitOn '/').modifyHead id)
      rw [List.modifyHead_id]
      rfl
    · refine ⟨init, fun t => ?_⟩
      have hlast : lastField (d ++ [c]) = lastField d ++ [c] :=
        List.rtakeWhile_concat_pos _ _ _ (by simp [hc])
      rw [hlast, List.append_assoc, hinit, List.singleton_append,
        List.splitOn_cons_eq_if_modifyHead, if_neg (by simp [hc]), List.modifyHead_modifyHead]
      congr 2
      funext l
      simp

/-! ### Entries of a directory -/

/-- The name of a directory entry is a path component. -/
theorem isComponent_of_entryName {name : List Char} (h : IsEntryName name) :
    isComponent name = true := by
  simp [isComponent, h.1, h.2.1]

/-- An entry has one part more than its directory. -/
theorem parts_entry {dir name : List Char} (hdir : dir ≠ []) (hname : IsEntryName name) :
    parts (dir ++ '/' :: name) = parts dir ++ [name] := by
  unfold parts
  rw [List.head?_append_of_ne_nil _ hdir, List.splitOn_append_cons_self, List.filter_append,
    List.splitOn_eq_singleton hname.2.2, List.append_assoc,
    List.filter_cons_of_pos (isComponent_of_entryName hname), List.filter_nil]

/-- What a directory is under, its entries are under too. -/
theorem under_entry {d dir name : List Char} (hdir : dir ≠ []) (hname : IsEntryName name)
    (h : Under d dir) : Under d (dir ++ '/' :: name) := by
  unfold Under
  rw [parts_entry hdir hname]
  exact h.trans (List.prefix_append _ _)

/-- A proper ancestor of an entry is its directory or above it. -/
theorem below_entry_iff {d dir name : List Char} (hdir : dir ≠ []) (hname : IsEntryName name) :
    Below d (dir ++ '/' :: name) ↔ Under d dir := by
  unfold Below Under
  rw [parts_entry hdir hname, List.prefix_concat_iff]
  constructor
  · exact fun ⟨h, hne⟩ => h.resolve_left hne
  · intro h
    refine ⟨.inr h, fun heq => ?_⟩
    have hlen := h.length_le
    rw [heq, List.length_append, List.length_singleton] at hlen
    omega

/-! ### Initial parts of a text -/

/-- A path that ends after a slash, or in a `.`, is above everything that goes on. -/
theorem under_of_not_isComponent {d : List Char} (h : isComponent (lastField d) = false)
    (t : List Char) : Under d (d ++ t) := by
  cases hd : d with
  | nil => exact List.nil_prefix
  | cons c d' =>
    obtain ⟨init, hinit⟩ := exists_splitOn_append (c :: d')
    have hself := hinit []
    rw [List.append_nil] at hself
    unfold Under parts
    rw [hinit t, hself, List.head?_append_of_ne_nil _ (List.cons_ne_nil c d'), List.filter_append,
      List.filter_append, List.prefix_append_right_inj, List.prefix_append_right_inj]
    have hnone : (((([] : List Char).splitOn '/').modifyHead (lastField (c :: d') ++ ·)).filter
        isComponent) = [] := by
      rw [← hd]
      simp [h]
    rw [hnone]
    exact List.nil_prefix

/-- After a component the text has to go on with a slash. -/
theorem under_append_iff {d : List Char} (h : isComponent (lastField d) = true) (t : List Char) :
    Under d (d ++ t) ↔ t = [] ∨ t.head? = some '/' := by
  have hd : d ≠ [] := by
    rintro rfl
    exact Bool.false_ne_true h
  obtain ⟨init, hinit⟩ := exists_splitOn_append d
  have hself := hinit []
  rw [List.append_nil, List.splitOn_nil, List.modifyHead_cons, List.append_nil] at hself
  unfold Under parts
  rw [hinit t, hself, List.head?_append_of_ne_nil _ hd, List.filter_append,
    List.filter_append, List.prefix_append_right_inj, List.prefix_append_right_inj,
    List.filter_cons_of_pos h, List.filter_nil]
  -- What follows joins the last component of `d`, unless it begins with a slash.
  cases t with
  | nil =>
    rw [List.splitOn_nil, List.modifyHead_cons, List.append_nil, List.filter_cons_of_pos h]
    simp
  | cons c rest =>
    rw [List.splitOn_cons_eq_if_modifyHead]
    by_cases hc : c = '/'
    · rw [if_pos (by simp [hc]), List.modifyHead_cons, List.append_nil, List.filter_cons_of_pos h]
      simp [hc]
    · rw [if_neg (by simp [hc])]
      obtain ⟨r, tail, hsplit⟩ := List.exists_cons_of_ne_nil (List.splitOn_ne_nil '/' rest)
      -- the last component of `d` has grown
      have hlonger : isComponent (lastField d ++ c :: r) = true := by
        have hne : lastField d ≠ [] := by
          intro hnil
          rw [hnil] at h
          exact Bool.false_ne_true h
        obtain ⟨a, l, hal⟩ := List.exists_cons_of_ne_nil hne
        rw [hal]
        cases l <;> simp [isComponent]
      rw [hsplit, List.modifyHead_cons, List.modifyHead_cons, List.filter_cons_of_pos hlonger,
        List.cons_prefix_cons]
      simp [hc]

/-- Where the text of `p` starts with that of `d`, `p` is under `d` unless `d` stops inside a
component. -/
theorem not_under_iff_cut {d p : List Char} (h : d <+: p) : ¬ Under d p ↔ Cut d p := by
  obtain ⟨t, rfl⟩ := h
  unfold Cut
  cases hcomponent : isComponent (lastField d) with
  | false =>
    simp only [Bool.false_eq_true, and_false, exists_false, iff_false, not_not]
    exact under_of_not_isComponent hcomponent t
  | true =>
    rw [under_append_iff hcomponent]
    cases t with
    | nil => simp
    | cons c rest => simp

end VivadoTest.Lib
