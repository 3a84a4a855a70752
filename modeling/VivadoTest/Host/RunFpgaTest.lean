import VivadoTest.Host.HostcommProxy

/-!
# `VivadoTest.Host.RunFpgaTest`: the other host program

The class `HostcommProxy` of `run_fpga_test.py`. It writes the same commands as the class of
`process_tests.py` and controls the processor and loads the memories in the same words, so
`_writeByte` and the types are those of `Host.HostcommProxy`. Three things it does in its own way:

* the order of the bytes of a number, in `_writeBytes`, `read_cycle_count` and `read_update_pair`;
* the messages about a malformed test configuration. Both programs print them to `sys.stderr`, but
  this one never imports `sys`, so that a message raises a `NameError`, and nothing of the
  configuration is sent (`parseTestConfigLine`, `parseTestConfig`);
* what `_readByte` does with an answer of fewer than four characters. Neither program gets one from
  a board that answers, so the reads are again over the monad of the line.
-/

set_option autoImplicit false

namespace VivadoTest.Host.RunFpgaTest

open VivadoTest.Lib
open VivadoTest.Host.HostcommProxy (writeByte TestConfig)

/-- `_writeBytes`. -/
def writeBytes (addr val : Int) (numBytes : Nat) : List Char :=
  (List.range numBytes).flatMap fun i : Nat =>
    writeByte (addr + (i : Int)) ((val >>> (8 * i)) % 256)

/-- The loop of `_parse_test_config`. The message about a field of another name is a
`NameError`. -/
def parseTestConfigLine (config : TestConfig) (line : List Char) : Option TestConfig :=
  match splitText " = ".toList 0 line with
  | [name, val] =>
    if name = "num_expected_updates".toList then do
      return { config with numExpUpdates := some (← pyInt 0 val) }
    else if name = "timeout".toList then do return { config with timeout := some (← pyInt 0 val) }
    else none
  | _ => none

/-- `_parse_test_config`. So are the messages about a missing field. -/
def parseTestConfig (testConfigFile : List Char) : Option TestConfig := do
  let config ← (textLines testConfigFile).foldlM parseTestConfigLine ⟨none, none⟩
  if config.numExpUpdates = none then none
  else if config.timeout = none then none
  else return config

/-- `init_test_config`. The file is parsed before the first command, so an exception in it is an
exception before anything is sent. -/
def initTestConfig (testConfigFile : List Char) : Option (List Char) := do
  let testConfig ← parseTestConfig testConfigFile
  let numExpUpdates ← testConfig.numExpUpdates
  let timeout ← testConfig.timeout
  return writeBytes 5 numExpUpdates 2 ++ writeBytes 7 timeout 2

/-- What `init_test_config` has sent when it returns, or when it has raised an exception. -/
def sentByInitTestConfig (testConfigFile : List Char) : List Char :=
  (initTestConfig testConfigFile).getD []

section
variable {m : Type → Type} [Monad m] (readByte : Nat → m Nat)

/-- `read_cycle_count`. -/
def readCycleCount : m Nat := do
  let cyclesLo ← readByte 3
  let cyclesHi ← readByte 4
  return cyclesLo + cyclesHi <<< 8

/-- `read_update_pair`. -/
def readUpdatePair : m (StateUpdate × StateUpdate) := do
  let expType ← readByte 0x9
  let expAddrLo ← readByte 0xA
  let expAddrHi ← readByte 0xB
  let expVal0 ← readByte 0xC
  let expVal1 ← readByte 0xD
  let expVal2 ← readByte 0xE
  let expVal3 ← readByte 0xF
  let actualType ← readByte 0x10
  let actualAddrLo ← readByte 0x11
  let actualAddrHi ← readByte 0x12
  let actualVal0 ← readByte 0x13
  let actualVal1 ← readByte 0x14
  let actualVal2 ← readByte 0x15
  let actualVal3 ← readByte 0x16
  return (⟨expType, expAddrLo + expAddrHi <<< 8,
      expVal0 + expVal1 <<< 8 + expVal2 <<< 16 + expVal3 <<< 24⟩,
    ⟨actualType, actualAddrLo + actualAddrHi <<< 8,
      actualVal0 + actualVal1 <<< 8 + actualVal2 <<< 16 + actualVal3 <<< 24⟩)

end

end VivadoTest.Host.RunFpgaTest
