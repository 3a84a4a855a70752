import VivadoTest.Lib.ShellWords

/-!
# `VivadoTest.Generator.TestNames`: the names that `gen_test_files.sh` makes

The name of the simulation configuration of a test, and the directories of its files, from the path
of the test.

`normalize` replaces by an underscore what is neither a letter nor a digit. The name of a
configuration is the normalized path without its extension. A directory keeps the groups of the
test as they are, and normalizes the base name only.
-/

set_option autoImplicit false

namespace VivadoTest.Generator

open VivadoTest.Lib VivadoTest.Lib.Shell

/-- The characters `a-zA-Z0-9_`. -/
def isNameChar (c : Char) : Bool := c.isAlphanum || c = '_'

/-- `normalize`. -/
def normalize (text : List Char) : List Char := trComplement isNameChar (echo text)

def simTestBaseDir : List Char := "sim-tests/test-resources".toList

def fpgaTestBaseDir : List Char := "fpga-tests/test-resources".toList

/-- `$(dirname "${test_file}")/$(normalize $(basename "${test_file}" .test))` below a base
directory. The argument of `normalize` is not quoted. -/
def testDir (glob : PathExpansion) (baseDir testFile : List Char) : List Char :=
  baseDir ++ '/' :: substitution (dirname testFile) ++
    '/' :: normalize (firstArgument glob (basename testFile ".test".toList))

/-- `sim_test_dir`. -/
def simTestDir (glob : PathExpansion) (testFile : List Char) : List Char :=
  testDir glob simTestBaseDir testFile

/-- `fpga_test_dir`. -/
def fpgaTestDir (glob : PathExpansion) (testFile : List Char) : List Char :=
  testDir glob fpgaTestBaseDir testFile

/-- `tb_cfg_name`. -/
def tbCfgName (testFile : List Char) : List Char :=
  normalize (stripSuffix ".test".toList testFile)

end VivadoTest.Generator
