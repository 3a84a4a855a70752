import VivadoTest.Framework.HostComm
import VivadoTest.Framework.TestMonitor

/-!
# `VivadoTest.Framework.MIPSSystem`: the board

`MIPSSystem.vhd`: host communication, data memory, instruction memory, register file and
test monitor, wired together. The pipeline of the processor is not part of the framework:
its outputs in each cycle are inputs of the board (`BoardIn.proc`). Its register file, which
the framework supplies, is part of the board.

A cycle of the board has the reset, the bus and the processor's outputs as inputs. The processor is
free to do anything: what is proved of the board holds for every processor. Its reset and its
enable come from `HostComm` (`processorReset`, `processorEnable`), and what it does while it is
disabled is restricted only where a result says so.
-/

set_option autoImplicit false

namespace VivadoTest.Framework

variable {N : Nat}

/-- The state elements of the board. -/
structure Board (N : Nat) where
  hostComm : HostComm
  dataMemory : DataMemory
  instructionMemory : InstructionMemory
  regfile : Regfile
  testMonitor : TestMonitorState N

/-- The inputs of one cycle: the reset, the host's bus and the outputs of the processor. -/
structure BoardIn (N : Nat) where
  reset : Bool
  bus : HostBus
  proc : ProcOut N

namespace Board

variable (b : Board N)

/-- The processor's enable, from `HostComm`. -/
def processorEnable : Bool := b.hostComm.procEnableSignal

/-- The processor's reset, from `HostComm`. -/
def processorReset : Bool := b.hostComm.procResetSignal

/-- `test_monitor_in`. -/
def testMonitorIn (input : BoardIn N) : TestMonitorIn N where
  reset := input.reset
  numExpUpdatesWeMask :=
    BitVec.ofBool input.bus.tmNumExpupdHiWe ++ BitVec.ofBool input.bus.tmNumExpupdLoWe
  numExpUpdates := input.bus.regWriteData.extractLsb' 0 1 ++ input.bus.regWriteData
  expupdWe := input.bus.tmExpupdWe
  expupdByteWriteAddr := input.bus.tmExpupdByteWriteAddr
  expupdWriteValue := input.bus.regWriteData
  procEnable := b.processorEnable
  updates := input.proc.updates
  updateWes := input.proc.updateWes
  maxWaitTime := input.bus.regWriteData ++ input.bus.regWriteData
  maxWaitTimeWeMask :=
    BitVec.ofBool input.bus.tmMaxWaitTimeHiWe ++ BitVec.ofBool input.bus.tmMaxWaitTimeLoWe
  readExpUpdEn := input.bus.tmExpupdRe

/-- The inputs of data memory. -/
def dataMemoryIn (input : BoardIn N) : DataMemoryIn where
  processorEnable := b.processorEnable
  hostcommWen := input.bus.dmemWrEn b.hostComm.procEnableSignal
  hostcommDataIn := input.bus.regWriteData
  hostcommAddr := input.bus.memAddr
  procWen := input.proc.dmemWriteEnable
  procDataIn := input.proc.dmemData
  procAddr := input.proc.dmemAddress

/-- The inputs of instruction memory. -/
def instructionMemoryIn (input : BoardIn N) : InstructionMemoryIn where
  processorEnable := b.processorEnable
  hostcommWen := input.bus.imemWrEn b.hostComm.procEnableSignal
  hostcommDataIn := input.bus.regWriteData
  hostcommAddr := input.bus.memAddr
  procAddr := input.proc.imemAddress

/-- What the host can read in the cycle. -/
def hostCommIn (input : BoardIn N) : HostCommIn where
  dmemDataIn := b.dataMemory.hostcommDataOut input.bus.memAddr
  imemDataIn := b.instructionMemory.hostcommDataOut input.bus.memAddr
  regfileReadValue := input.bus.regfileDebugIn.byteRead b.regfile
  expupdReadValue := b.testMonitor.expUpdByte (b.testMonitorIn input)
  tmTestStatus := b.testMonitor.output.testStatus
  tmTestCycleCounter := b.testMonitor.output.testCycleCount
  unmatchedExpected := b.testMonitor.output.unmatchedExpected
  badActual := b.testMonitor.output.badActual
  tmNumExpupd := b.testMonitor.numExpUpdates
  tmMaxWaitTime := b.testMonitor.maxWaitTime

/-- The data that the host sees on the bus in the cycle. -/
def regReadData (input : BoardIn N) : Byte :=
  b.hostComm.regReadData (b.hostCommIn input) input.bus

/-- One rising edge. -/
def step (input : BoardIn N) : Board N where
  hostComm := b.hostComm.step input.reset input.bus
  dataMemory := b.dataMemory.step (b.dataMemoryIn input)
  instructionMemory := b.instructionMemory.step (b.instructionMemoryIn input)
  regfile := b.regfile.step b.processorReset input.proc.writePorts input.bus.regfileDebugIn
  testMonitor := b.testMonitor.step (b.testMonitorIn input)

end Board

end VivadoTest.Framework
