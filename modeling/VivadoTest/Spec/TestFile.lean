import VivadoTest.Generator.TestSection

/-!
# `VivadoTest.Spec.TestFile`: the sections of a test file

A `.test` file is a sequence of sections. The header of a section is a line with ten dashes and
its name, and no line of its body has ten dashes in a row.

A section has a header and a body (`TestSection`), and its fields say what such a file may look
like: neither a header nor a line of a body contains a newline, and the name in a header is that of
its own section and no other. `fileLines` puts the sections together, in any order.
-/

set_option autoImplicit false

namespace VivadoTest.Generator

open VivadoTest.Lib

/-- The four kinds of sections. -/
inductive SectionName
  | initialState
  | testCode
  | expectedStateUpdates
  | timeoutCycleCount
  deriving DecidableEq, Repr

/-- The text of a section's name. -/
def SectionName.text : SectionName → List Char
  | initialState => "Initial state".toList
  | testCode => "Test code".toList
  | expectedStateUpdates => "Expected state updates".toList
  | timeoutCycleCount => "Timeout cycle count".toList

/-- A section. -/
structure TestSection where
  name : SectionName
  header : List Char
  body : List (List Char)
  header_dashes : tenDashes <:+: header
  header_name : ∀ n : SectionName, n.text <:+: header ↔ n = name
  body_dashes : ∀ line ∈ body, ¬ tenDashes <:+: line
  noNewline : ∀ line ∈ header :: body, '\n' ∉ line

namespace TestSection

/-- The lines of some sections. -/
def fileLines (sections : List TestSection) : List (List Char) :=
  sections.flatMap fun s => s.header :: s.body

/-- The file. -/
def testFile (sections : List TestSection) : List Char := unlines (fileLines sections)

/-- The lines that are not empty. -/
def nonEmpty (lines : List (List Char)) : List (List Char) := lines.filter fun line => line ≠ []

/-- The body lines behind the first one that has the name in it. -/
def behindName (name : List Char) (lines : List (List Char)) : List (List Char) :=
  (lines.dropWhile fun line => !decide (name <:+: line)).drop 1

/-- The body of a section that is used once. -/
def bodyOf (name : SectionName) (sections : List TestSection) : List (List Char) :=
  (sections.filter fun s => s.name = name).flatMap TestSection.body

end TestSection

end VivadoTest.Generator
