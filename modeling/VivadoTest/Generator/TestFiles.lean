import VivadoTest.Generator.ExpectedUpdates
import VivadoTest.Generator.FpgaInit

/-!
# `VivadoTest.Generator.TestFiles`: the files of a test

`gen_test_files.sh`: from the sections of a `.test` file to the files that the simulation
reads, the generics of its configuration and the files that the host sends to the board.

The number of expected updates is the number of lines of the generated file. The timeout is the
text of its section: the generators never look at it as a number.
-/

set_option autoImplicit false

namespace VivadoTest.Generator

open VivadoTest.Lib

/-- A `.test` file: the text of its sections, the test code as the assembler's words. -/
structure Test where
  initialState : List Char
  testCode : List (BitVec 32)
  expectedStateUpdates : List Char
  timeoutCycleCount : List Char

/-- The files in `sim_test_dir` and the two numeric generics of the simulation configuration. -/
structure SimFiles where
  initDmem : List Char
  initRegs : List Char
  initExpUpd : List Char
  initImem : List Char
  NUM_EXPECTED_UPDATES : List Char
  TEST_TIMEOUT_CYCLES : List Char

/-- The files in `fpga_test_dir`. -/
structure FpgaFiles where
  initDmem : List Char
  initRegs : List Char
  initExpUpd : List Char
  initImem : List Char
  testConfig : List Char

/-- `wc -l`. -/
def wcLines (file : List Char) : Nat := file.count '\n'

/-- `fpga_test_config_file`. -/
def testConfigFile (numExpUpdates timeoutCycles : List Char) : List Char :=
  unlines ["num_expected_updates = ".toList ++ numExpUpdates, "timeout = ".toList ++ timeoutCycles]

/-- `gen_test_files.sh`. -/
def genTestFiles (dmemDepth : Int) (test : Test) : Option (SimFiles × FpgaFiles) := do
  let (simInitRegs, simInitDmem) ← genInitDataStateFiles dmemDepth test.initialState
  let simInitExpUpd ← genExpectedUpdatesFile dmemDepth test.expectedStateUpdates
  let simInitImem := genInitImemFile test.testCode
  guard (test.timeoutCycleCount ≠ [])
  let numExpUpdates := Nat.toDigits 10 (wcLines simInitExpUpd)
  let fpgaInitExpUpd ← genFpgaExpupdFile simInitExpUpd
  return ({ initDmem := simInitDmem
            initRegs := simInitRegs
            initExpUpd := simInitExpUpd
            initImem := simInitImem
            NUM_EXPECTED_UPDATES := numExpUpdates
            TEST_TIMEOUT_CYCLES := test.timeoutCycleCount },
          { initDmem := genFpgaInitDmem simInitDmem
            initRegs := genFpgaInitRegfile simInitRegs
            initExpUpd := fpgaInitExpUpd
            initImem := genFpgaInitImem simInitImem
            testConfig := testConfigFile numExpUpdates test.timeoutCycleCount })

end VivadoTest.Generator
