import VivadoTest.Generator.TestNames
import VivadoTest.Host.TestNames

/-!
# `VivadoTest.Spec.TestPath`: the paths of tests, and names that keep them apart

The paths below a directory of tests, and what it means that the names made from them belong to one
test each and are the names that the test programs look up.

A path is kept as its directories and the base name of its file. `Alike` is what the replacement of
characters does not tell apart, and `TestPath.Plain` what a shell takes as it is written.
-/

set_option autoImplicit false

namespace VivadoTest.Spec

open VivadoTest.Lib VivadoTest.Lib.Shell

/-- The path `groups/base.test` of a test. The first group does not read as an option. -/
structure TestPath where
  groups : List (List Char)
  base : List Char
  groups_ne : groups ≠ []
  entries : ∀ g ∈ groups, IsEntryName g ∧ g ≠ ['.', '.']
  noOption : ∀ g ∈ groups.head?, g.head? ≠ some '-'
  base_slash : '/' ∉ base

namespace TestPath

/-- The directory of the test. -/
def dir (t : TestPath) : List Char := ['/'].intercalate t.groups

/-- The path without its suffix. -/
def stem (t : TestPath) : List Char := t.dir ++ '/' :: t.base

/-- The path of the test file. -/
def path (t : TestPath) : List Char := t.stem ++ ".test".toList

end TestPath

/-- Two characters that only a letter or a digit would tell apart. -/
def Alike (c c' : Char) : Prop := c = c' ∨ (c.isAlphanum = false ∧ c'.isAlphanum = false)

/-- Every test of the set has a simulation configuration and resource directories of its own, and
the test programs look for exactly these. -/
structure KeepsApart (python : Host.IsAlnum) (glob : PathExpansion) (tests : Set TestPath) :
    Prop where
  cfgName : ∀ t ∈ tests, ∀ t' ∈ tests,
    Generator.tbCfgName t.path = Generator.tbCfgName t'.path → t = t'
  simDir : ∀ t ∈ tests, ∀ t' ∈ tests,
    Generator.simTestDir glob t.path = Generator.simTestDir glob t'.path → t = t'
  fpgaDir : ∀ t ∈ tests, ∀ t' ∈ tests,
    Generator.fpgaTestDir glob t.path = Generator.fpgaTestDir glob t'.path → t = t'
  simulation : ∀ t ∈ tests, Host.simulationTestName python t.path = Generator.tbCfgName t.path
  fpga : ∀ t ∈ tests, Host.fpgaTestdir python t.path = Generator.fpgaTestDir glob t.path

/-- The path of the test reaches the names as it is: the shell's words, expansions and options
and the characters of several bytes leave it alone, up to characters that are replaced anyway. -/
structure TestPath.Plain (glob : PathExpansion) (t : TestPath) : Prop where
  ascii : ∀ c ∈ t.stem, c.utf8Size = 1
  dirEnd : t.dir.getLast? ≠ some '\n'
  base_ne : t.base ≠ []
  noOption : isEchoOption (firstArgument glob t.base) = false
  word : List.Forall₂ Alike (bytes (firstArgument glob t.base)) t.base

end VivadoTest.Spec
