import Mathlib.Logic.Basic

/-!
# `VivadoTest.Lib.Noting`: programs that note what they use

A program in `Except` with a notebook beside it, which keeps its notes when the program fails.
`Notes x y new` relates it to the program `y` without notes: both have one result, and `new` is
what `x` has noted. `NotesOnly` says that every note is allowed.

* `Notes.bind`, `Notes.bind_error`: the notes of two steps.
* `NotesOnly.bind`, `NotesOnly.foldlM`: the rules for programs whose steps note allowed things.
* `NotesSome.bind_left`, `NotesSome.bind_right`: a program with a step that notes a certain thing.

The notes of a program that fails are those of its steps up to the failure, which is why the
notebook is below `Except` and not above it. A condition on notes is carried along the steps with
the result of each step in hand, so that what is noted may depend on it.
-/

set_option autoImplicit false

namespace VivadoTest.Lib

/-- A program that may fail and notes things of the type `τ`. -/
abbrev Noting (τ ε α : Type) := ExceptT ε (StateM (List τ)) α

section
variable {τ ε α β : Type}

/-- Notes `t`. -/
def note (t : τ) : Noting τ ε Unit := fun notes => (.ok (), notes ++ [t])

/-- A step that notes nothing. -/
def unnoted (y : Except ε α) : Noting τ ε α := fun notes => (y, notes)

/-- What a program has noted when it ends. -/
def notesOf (x : Noting τ ε α) : List τ := (x []).2

/-- `x` does what `y` does, and notes `new` on the way. -/
def Notes (x : Noting τ ε α) (y : Except ε α) (new : List τ) : Prop :=
  ∀ notes, x notes = (y, notes ++ new)

/-- Each note satisfies `P`. -/
def NotesOnly (P : τ → Prop) (x : Noting τ ε α) (y : Except ε α) : Prop :=
  ∃ new, Notes x y new ∧ ∀ t ∈ new, P t

/-- What a program notes when it starts with an empty notebook. -/
theorem Notes.notesOf {x : Noting τ ε α} {y : Except ε α} {new : List τ} (h : Notes x y new) :
    notesOf x = new := by
  unfold Lib.notesOf
  rw [h, List.nil_append]

/-- A result alone notes nothing. -/
theorem Notes.pure (a : α) : Notes (pure a : Noting τ ε α) (pure a) [] := fun notes => by
  rw [List.append_nil]
  rfl

/-- `note t` notes `t` and succeeds. -/
theorem Notes.note (t : τ) : Notes (note t : Noting τ ε Unit) (.ok ()) [t] := fun _ => rfl

/-- `unnoted y` notes nothing and has the result of `y`. -/
theorem Notes.unnoted (y : Except ε α) : Notes (unnoted y : Noting τ ε α) y [] := fun notes => by
  rw [List.append_nil]
  rfl

/-- The notes of two steps are those of the first, then those of the second. -/
theorem Notes.bind {x : Noting τ ε α} {f : α → Noting τ ε β} {a : α} {z : Except ε β}
    {new new' : List τ} (hx : Notes x (.ok a) new) (hf : Notes (f a) z new') :
    Notes (x >>= f) z (new ++ new') := by
  intro notes
  show ExceptT.bindCont f (x notes).1 (x notes).2 = _
  rw [hx, ← List.append_assoc]
  exact hf (notes ++ new)

/-- A failed step is the last one. -/
theorem Notes.bind_error {x : Noting τ ε α} {f : α → Noting τ ε β} {e : ε} {new : List τ}
    (hx : Notes x (.error e) new) : Notes (x >>= f) (.error e) new := by
  intro notes
  show ExceptT.bindCont f (x notes).1 (x notes).2 = _
  rw [hx]
  rfl

/-- A program that succeeds has succeeded in each step. -/
theorem exists_of_bind_eq_ok {y : Except ε α} {g : α → Except ε β} {b : β}
    (h : y >>= g = .ok b) : ∃ a, y = .ok a ∧ g a = .ok b := by
  cases y with
  | error e => cases h
  | ok a => exact ⟨a, rfl, h⟩

/-! ### Allowed notes -/

variable {P : τ → Prop}

/-- A program that only notes allowed things has only allowed notes. -/
theorem NotesOnly.forall_notesOf {x : Noting τ ε α} {y : Except ε α} (h : NotesOnly P x y) :
    ∀ t ∈ notesOf x, P t := by
  obtain ⟨new, hx, hnew⟩ := h
  rw [hx.notesOf]
  exact hnew

/-- A result alone notes nothing that is not allowed. -/
theorem NotesOnly.pure (a : α) : NotesOnly P (pure a : Noting τ ε α) (pure a) :=
  ⟨[], Notes.pure a, by simp⟩

/-- A noted step. -/
theorem NotesOnly.noted {t : τ} (ht : P t) (y : Except ε α) :
    NotesOnly P (do note t; unnoted y : Noting τ ε α) y := by
  refine ⟨[t], (Notes.note t).bind (Notes.unnoted y), ?_⟩
  simpa using ht

/-- Two steps that note only allowed things do so together. The second is asked for the result of
the first alone, so what is allowed may depend on it. -/
theorem NotesOnly.bind {x : Noting τ ε α} {y : Except ε α} {f : α → Noting τ ε β}
    {g : α → Except ε β} (hx : NotesOnly P x y) (hf : ∀ a, y = .ok a → NotesOnly P (f a) (g a)) :
    NotesOnly P (x >>= f) (y >>= g) := by
  obtain ⟨new, hx, hnew⟩ := hx
  cases y with
  | error e => exact ⟨new, hx.bind_error, hnew⟩
  | ok a =>
    obtain ⟨new', hfa, hnew'⟩ := hf a rfl
    refine ⟨new ++ new', hx.bind hfa, fun t ht => ?_⟩
    rcases List.mem_append.mp ht with ht | ht
    · exact hnew t ht
    · exact hnew' t ht

/-- A loop whose iterations are allowed what they note. -/
theorem NotesOnly.foldlM {γ : Type} {f : β → γ → Noting τ ε β} {g : β → γ → Except ε β}
    {l : List γ} (h : ∀ b, ∀ c ∈ l, NotesOnly P (f b c) (g b c)) (b : β) :
    NotesOnly P (l.foldlM f b) (l.foldlM g b) := by
  induction l generalizing b with
  | nil => exact NotesOnly.pure b
  | cons c l ih =>
    rw [List.foldlM_cons, List.foldlM_cons]
    exact (h b c List.mem_cons_self).bind fun b' _ =>
      ih (fun b c hc => h b c (List.mem_cons_of_mem _ hc)) b'

/-! ### A certain note -/

/-- `x` notes `t`, and does nothing to earlier notes. -/
def NotesSome (t : τ) (x : Noting τ ε α) : Prop := ∃ y new, Notes x y new ∧ t ∈ new

/-- A program that notes `t` has `t` among its notes. -/
theorem NotesSome.mem_notesOf {t : τ} {x : Noting τ ε α} (h : NotesSome t x) : t ∈ notesOf x := by
  obtain ⟨y, new, hx, ht⟩ := h
  rw [hx.notesOf]
  exact ht

/-- A step that notes `t` first has noted it whether or not it fails afterwards. -/
theorem NotesSome.noted (t : τ) (y : Except ε α) :
    NotesSome t (do note t; unnoted y : Noting τ ε α) :=
  ⟨y, [t], (Notes.note t).bind (Notes.unnoted y), List.mem_singleton.mpr rfl⟩

/-- A step that notes it, in front of any other. -/
theorem NotesSome.bind_left {t : τ} {x : Noting τ ε α} {f : α → Noting τ ε β}
    {g : α → Except ε β} (hx : NotesSome t x) (hf : ∀ a, NotesOnly (fun _ => True) (f a) (g a)) :
    NotesSome t (x >>= f) := by
  obtain ⟨y, new, hx, ht⟩ := hx
  cases y with
  | error e => exact ⟨.error e, new, hx.bind_error, ht⟩
  | ok a =>
    obtain ⟨new', hfa, -⟩ := hf a
    exact ⟨g a, new ++ new', hx.bind hfa, List.mem_append_left _ ht⟩

/-- A step that succeeds, in front of one that notes it. -/
theorem NotesSome.bind_right {t : τ} {x : Noting τ ε α} {y : Except ε α} {f : α → Noting τ ε β}
    {a : α} (hx : NotesOnly P x y) (hy : y = .ok a) (hf : NotesSome t (f a)) :
    NotesSome t (x >>= f) := by
  obtain ⟨new, hx, -⟩ := hx
  obtain ⟨z, new', hfa, ht⟩ := hf
  rw [hy] at hx
  exact ⟨z, new ++ new', hx.bind hfa, List.mem_append_right _ ht⟩

end

end VivadoTest.Lib
