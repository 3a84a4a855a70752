import VivadoTest.Spec.TestFile

/-!
# `VivadoTest.Proofs.TestSection`: what the cut of a section contains

A header switches `active` off and, when it is the header of the wanted section, on again
(`sectionLines_header`). Behind it the flag stays on (`sectionLines_active`), or stays off up to a
line that has the wanted name in it (`sectionLines_inactive`), whatever section that line is in.

* `sectionLines_fileLines`: the lines printed, section by section.
* `getTestSection_eq_iff`: when they are the body of the wanted section.

The wanted section prints its body. The other sections print nothing, unless a line of theirs
contains the name that is looked for: a line with ten dashes in it switches the flag off, but any
line with the name in it switches it on. `printedOf` is what each section contributes, and the file
contributes these in a row (`sectionLines_fileLines`), since the flag is switched off at each
header.

Empty lines are left out by the script, so what is compared are the other lines of the body.
-/

set_option autoImplicit false

namespace VivadoTest.Generator

open VivadoTest.Lib TestSection

/-! ### One section -/

section
variable {name : List Char} {body : List (List Char)}

/-- While the flag is on, every line that is not empty is printed. -/
theorem sectionLines_active (hbody : ∀ line ∈ body, ¬ tenDashes <:+: line)
    (rest : List (List Char)) :
    sectionLines name true (body ++ rest) = nonEmpty body ++ sectionLines name true rest := by
  induction body with
  | nil => rfl
  | cons line body ih =>
    have hline := hbody line List.mem_cons_self
    have hrest := ih fun x hx => hbody x (List.mem_cons_of_mem line hx)
    have hactive : (if name <:+: line then true else true) = true := by split <;> rfl
    simp only [List.cons_append, sectionLines, if_neg hline, hactive, hrest]
    by_cases hempty : line = []
    · simp [nonEmpty, hempty]
    · simp [nonEmpty, hempty]

/-- While it is off, a line with the name in it switches it on for the lines behind. -/
theorem sectionLines_inactive (hbody : ∀ line ∈ body, ¬ tenDashes <:+: line)
    (rest : List (List Char)) : ∃ active, sectionLines name false (body ++ rest)
      = nonEmpty (behindName name body) ++ sectionLines name active rest := by
  induction body with
  | nil => exact ⟨false, rfl⟩
  | cons line body ih =>
    have hline := hbody line List.mem_cons_self
    have htail : ∀ x ∈ body, ¬ tenDashes <:+: x := fun x hx =>
      hbody x (List.mem_cons_of_mem line hx)
    by_cases hname : name <:+: line
    · refine ⟨true, ?_⟩
      have hbehind : behindName name (line :: body) = body := by
        unfold behindName
        rw [List.dropWhile_cons_of_neg (by simp [hname])]
        rfl
      rw [hbehind, ← sectionLines_active htail]
      simp only [List.cons_append, sectionLines, if_neg hline, if_pos hname]
      simp
    · obtain ⟨active, hactive⟩ := ih htail
      refine ⟨active, ?_⟩
      have hbehind : behindName name (line :: body) = behindName name body := by
        unfold behindName
        rw [List.dropWhile_cons_of_pos (by simp [hname])]
      rw [hbehind, ← hactive]
      simp only [List.cons_append, sectionLines, if_neg hline, if_neg hname]
      simp

end

/-- A header prints nothing and sets the flag. -/
theorem sectionLines_header (name : SectionName) (active : Bool) (s : TestSection)
    (rest : List (List Char)) : sectionLines name.text active (s.header :: rest)
      = sectionLines name.text (decide (s.name = name)) rest := by
  have hname := s.header_name name
  simp only [sectionLines, if_pos s.header_dashes, Bool.false_eq_true, and_false, if_false,
    List.nil_append]
  by_cases hs : s.name = name
  · rw [if_pos (hname.mpr hs.symm), decide_eq_true hs]
  · rw [if_neg fun hin => hs (hname.mp hin).symm, decide_eq_false hs]

/-! ### The file -/

/-- What the program prints of a section. -/
def printedOf (name : SectionName) (s : TestSection) : List (List Char) :=
  if s.name = name then nonEmpty s.body else nonEmpty (behindName name.text s.body)

/-- The lines that the program prints, section by section. -/
theorem sectionLines_fileLines (name : SectionName) (active : Bool) (sections : List TestSection) :
    sectionLines name.text active (fileLines sections) = sections.flatMap (printedOf name) := by
  induction sections generalizing active with
  | nil => rfl
  | cons s sections ih =>
    show sectionLines name.text active (s.header :: (s.body ++ fileLines sections)) = _
    rw [sectionLines_header, List.flatMap_cons]
    unfold printedOf
    by_cases hs : s.name = name
    · rw [decide_eq_true hs, sectionLines_active s.body_dashes, ih, if_pos hs]
      rfl
    · obtain ⟨active', hactive⟩ := @sectionLines_inactive name.text s.body s.body_dashes
        (fileLines sections)
      rw [decide_eq_false hs, hactive, ih, if_neg hs]
      rfl

/-- The wanted lines are among the printed ones. -/
theorem length_bodyOf_le (name : SectionName) (sections : List TestSection) :
    (nonEmpty (bodyOf name sections)).length ≤ (sections.flatMap (printedOf name)).length := by
  induction sections with
  | nil => exact le_refl 0
  | cons s sections ih =>
    rw [List.flatMap_cons, List.length_append]
    by_cases hs : s.name = name
    · have hbody : nonEmpty (bodyOf name (s :: sections))
          = nonEmpty s.body ++ nonEmpty (bodyOf name sections) := by
        simp [nonEmpty, bodyOf, hs]
      rw [hbody, List.length_append, printedOf, if_pos hs]
      exact Nat.add_le_add_left ih _
    · have hbody : bodyOf name (s :: sections) = bodyOf name sections := by simp [bodyOf, hs]
      rw [hbody]
      omega

/-- Only lines behind the name in other sections are printed too many. -/
theorem printed_eq_iff (name : SectionName) (sections : List TestSection) :
    sections.flatMap (printedOf name) = nonEmpty (bodyOf name sections) ↔
      ∀ s ∈ sections, s.name ≠ name → nonEmpty (behindName name.text s.body) = [] := by
  induction sections with
  | nil => simp [bodyOf, nonEmpty]
  | cons s sections ih =>
    rw [List.flatMap_cons, List.forall_mem_cons, ← ih]
    by_cases hs : s.name = name
    · have hbody : nonEmpty (bodyOf name (s :: sections))
          = nonEmpty s.body ++ nonEmpty (bodyOf name sections) := by
        simp [nonEmpty, bodyOf, hs]
      rw [hbody, printedOf, if_pos hs, List.append_cancel_left_eq]
      exact ⟨fun h => ⟨fun hne => absurd hs hne, h⟩, fun h => h.2⟩
    · have hbody : bodyOf name (s :: sections) = bodyOf name sections := by simp [bodyOf, hs]
      rw [hbody, printedOf, if_neg hs]
      constructor
      · intro h
        -- there is no room for the lines of this section
        have hlen := congrArg List.length h
        have hle := length_bodyOf_le name sections
        rw [List.length_append] at hlen
        have hnil : nonEmpty (behindName name.text s.body) = [] :=
          List.eq_nil_of_length_eq_zero (by omega)
        rw [hnil] at h
        exact ⟨fun _ => hnil, h⟩
      · intro h
        rw [h.1 hs]
        exact h.2

/-- The program prints the body of the wanted section, without its empty lines, exactly when no
other section has a line with the wanted name in front of a line that is not empty. -/
theorem getTestSection_eq_iff (name : SectionName) (sections : List TestSection) :
    getTestSection (testFile sections) name.text = unlines (nonEmpty (bodyOf name sections)) ↔
      ∀ s ∈ sections, s.name ≠ name → nonEmpty (behindName name.text s.body) = [] := by
  have hfile : ∀ line ∈ fileLines sections, '\n' ∉ line := by
    intro line hline
    obtain ⟨s, -, hs⟩ := List.mem_flatMap.mp hline
    exact s.noNewline line hs
  have hprinted : ∀ line ∈ sections.flatMap (printedOf name), '\n' ∉ line := by
    intro line hline
    obtain ⟨s, -, hs⟩ := List.mem_flatMap.mp hline
    refine s.noNewline line (List.mem_cons_of_mem _ ?_)
    unfold printedOf at hs
    split at hs
    · exact (List.mem_filter.mp hs).1
    · exact (List.dropWhile_suffix _).subset (List.mem_of_mem_drop (List.mem_filter.mp hs).1)
  -- the lines of both sides end where their text says, so the texts are equal when the lines are
  have hwanted : ∀ line ∈ nonEmpty (bodyOf name sections), '\n' ∉ line := by
    intro line hline
    obtain ⟨s, -, hs⟩ := List.mem_flatMap.mp (List.mem_filter.mp hline).1
    exact s.noNewline line (List.mem_cons_of_mem _ hs)
  unfold getTestSection testFile
  rw [textLines_unlines hfile, sectionLines_fileLines, ← printed_eq_iff]
  constructor
  · intro h
    have hlines := congrArg textLines h
    rwa [textLines_unlines hprinted, textLines_unlines hwanted] at hlines
  · intro h
    rw [h]

/-- Test code with a comment that mentions the timeout. -/
def commentedTestCode : TestSection where
  name := .testCode
  header := "---------- Test code ----------".toList
  body := ["# fits the Timeout cycle count".toList, "nop".toList]
  header_dashes := by decide +kernel
  header_name := by
    intro n
    cases n <;> decide +kernel
  body_dashes := by decide +kernel
  noNewline := by decide +kernel

/-- The section with the timeout alone. -/
def timeoutSection : TestSection where
  name := .timeoutCycleCount
  header := "---------- Timeout cycle count ----------".toList
  body := ["540".toList]
  header_dashes := by decide +kernel
  header_name := by
    intro n
    cases n <;> decide +kernel
  body_dashes := by decide +kernel
  noNewline := by decide +kernel

/-- The instruction behind the comment gets into the timeout. -/
theorem not_getTestSection_eq :
    getTestSection (testFile [commentedTestCode, timeoutSection]) SectionName.timeoutCycleCount.text
      = "nop\n540\n".toList ∧
    ¬ ∀ (name : SectionName) (sections : List TestSection), (sections.map TestSection.name).Nodup →
      getTestSection (testFile sections) name.text = unlines (nonEmpty (bodyOf name sections)) := by
  have hprints : getTestSection (testFile [commentedTestCode, timeoutSection])
      SectionName.timeoutCycleCount.text = "nop\n540\n".toList := by decide +kernel
  refine ⟨hprints, fun h => ?_⟩
  have heq := h .timeoutCycleCount [commentedTestCode, timeoutSection] (by decide)
  rw [hprints] at heq
  exact absurd heq (by decide +kernel)

end VivadoTest.Generator
