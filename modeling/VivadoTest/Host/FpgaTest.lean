import VivadoTest.Host.HostcommProxy
import VivadoTest.Generator.TestFiles

/-!
# `VivadoTest.Host.FpgaTest`: loading a test

The commands with which `fpga_test` of `process_tests.py` loads a test, up to
`start_processor`.

The order is that of the source: the processor is stopped and reset, then come the program, the
data memory, the registers, the expected updates and the configuration.
-/

set_option autoImplicit false

namespace VivadoTest.Host

open VivadoTest.Generator

/-- What follows `stop_processor` in the load sequence. -/
def FpgaTest.loadStopped (files : FpgaFiles) : Option (List Char) := do
  return HostcommProxy.resetProcessor ++
    (← HostcommProxy.initImem files.initImem) ++
    (← HostcommProxy.initDmem files.initDmem) ++
    (← HostcommProxy.initRegfile files.initRegs) ++
    (← HostcommProxy.initExpectedUpdates files.initExpUpd) ++
    (← HostcommProxy.initTestConfig files.testConfig)

/-- The load sequence of `fpga_test`. -/
def FpgaTest.load (files : FpgaFiles) : Option (List Char) := do
  return HostcommProxy.stopProcessor ++ (← FpgaTest.loadStopped files)

end VivadoTest.Host
