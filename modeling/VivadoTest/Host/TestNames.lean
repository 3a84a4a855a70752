import VivadoTest.Lib.ShellWords

/-!
# `VivadoTest.Host.TestNames`: the names that `process_tests.py` looks up

The name of the simulation configuration that `simulation_test` runs, and the directory from which
`fpga_test` reads the files of a test.

Both programs start from the path of the test file as the traversal has it. The names have to be
those that the generator has made (`VivadoTest.Generator.TestNames`).
-/

set_option autoImplicit false

namespace VivadoTest.Host

open VivadoTest.Lib VivadoTest.Lib.Shell

/-- `str.isalnum` of one character. Below 128 these are the letters and the digits. -/
structure IsAlnum where
  isalnum : Char → Bool
  ascii : ∀ c : Char, c.utf8Size = 1 → isalnum c = c.isAlphanum

variable (python : IsAlnum)

/-- `''.join([ x if x.isalnum() or x == '_' else '_' for x in text ])`. -/
def withoutSpecialChars (text : List Char) : List Char :=
  text.map (replaced fun x => python.isalnum x || x = '_')

/-- `test_wo_special_chars` of `simulation_test`, from `test[:-5]`. -/
def simulationTestName (test : List Char) : List Char := withoutSpecialChars python (test.rdrop 5)

/-- `fpga_testdir` of `fpga_test`. -/
def fpgaTestdir (test : List Char) : List Char :=
  "fpga-tests/test-resources".toList ++ '/' :: directory test ++
    '/' :: withoutSpecialChars python ((lastField test).rdrop 5)

end VivadoTest.Host
