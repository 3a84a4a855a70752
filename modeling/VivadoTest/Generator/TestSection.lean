import VivadoTest.Lib.PyText
import Mathlib.Data.List.Infix

/-!
# `VivadoTest.Generator.TestSection`: `get_test_section.sh`

The `awk` program that cuts a section out of a `.test` file. Its three rules fire one after the
other on each line and share the flag `active`. The patterns `/----------/` and
`/${section_name}/` match anywhere in a line; the names of sections are letters and blanks, so
they stand for themselves.
-/

set_option autoImplicit false

namespace VivadoTest.Generator

open VivadoTest.Lib

/-- `----------`. -/
def tenDashes : List Char := List.replicate 10 '-'

/-- The lines that the program prints. -/
def sectionLines (sectionName : List Char) : Bool → List (List Char) → List (List Char)
  | _, [] => []
  | active, line :: lines =>
    let active := if tenDashes <:+: line then false else active
    let printed := if line ≠ [] ∧ active = true then [line] else []
    let active := if sectionName <:+: line then true else active
    printed ++ sectionLines sectionName active lines

/-- `get_test_section.sh`. -/
def getTestSection (testFile sectionName : List Char) : List Char :=
  unlines (sectionLines sectionName false (textLines testFile))

end VivadoTest.Generator
