import VivadoTest.Framework.Memories

/-!
# `VivadoTest.Framework.HostComm`: the host's registers and address map

`HostComm.vhd` behind the UART: the bus that `uart2BusTop` drives (`HostBus`), the address
decoding, the register read mux and the control registers.

The region of an address is decided by its top bits: two of them for the data memory and the
instruction memory, four for the registers and the expected updates. A control register is named by
the whole address. One that is wider than a byte has one address for each of its bytes. An address
without a register reads as zero.
-/

set_option autoImplicit false

namespace VivadoTest.Framework

open VivadoTest.Lib

/-! ### Addresses -/

def REG_ADDR_PROC_EN : BitVec 16 := 0x0000
def REG_ADDR_PROC_RESET : BitVec 16 := 0x0001
def REG_ADDR_TEST_STATUS : BitVec 16 := 0x0002
def REG_ADDR_TEST_CYCLE_COUNTER_HI : BitVec 16 := 0x0003
def REG_ADDR_TEST_CYCLE_COUNTER_LO : BitVec 16 := 0x0004
def REG_ADDR_NUM_EXPECTED_UPDATES_HI : BitVec 16 := 0x0005
def REG_ADDR_NUM_EXPECTED_UPDATES_LO : BitVec 16 := 0x0006
def REG_ADDR_MAX_WAIT_TIME_HI : BitVec 16 := 0x0007
def REG_ADDR_MAX_WAIT_TIME_LO : BitVec 16 := 0x0008
def REG_ADDR_EXPECTED_TYPE : BitVec 16 := 0x0009
def REG_ADDR_EXPECTED_ADDR_HI : BitVec 16 := 0x000A
def REG_ADDR_EXPECTED_ADDR_LO : BitVec 16 := 0x000B
def REG_ADDR_EXPECTED_VALUE0 : BitVec 16 := 0x000C
def REG_ADDR_EXPECTED_VALUE1 : BitVec 16 := 0x000D
def REG_ADDR_EXPECTED_VALUE2 : BitVec 16 := 0x000E
def REG_ADDR_EXPECTED_VALUE3 : BitVec 16 := 0x000F
def REG_ADDR_ACTUAL_TYPE : BitVec 16 := 0x0010
def REG_ADDR_ACTUAL_ADDR_HI : BitVec 16 := 0x0011
def REG_ADDR_ACTUAL_ADDR_LO : BitVec 16 := 0x0012
def REG_ADDR_ACTUAL_VALUE0 : BitVec 16 := 0x0013
def REG_ADDR_ACTUAL_VALUE1 : BitVec 16 := 0x0014
def REG_ADDR_ACTUAL_VALUE2 : BitVec 16 := 0x0015
def REG_ADDR_ACTUAL_VALUE3 : BitVec 16 := 0x0016
def REG_ADDR_RESET_DURATION0 : BitVec 16 := 0x0017
def REG_ADDR_RESET_DURATION1 : BitVec 16 := 0x0018
def REG_ADDR_RESET_DURATION2 : BitVec 16 := 0x0019
def REG_ADDR_RESET_DURATION3 : BitVec 16 := 0x001A
def REG_ADDR_MAGIC0 : BitVec 16 := 0x4000
def REG_ADDR_MAGIC1 : BitVec 16 := 0x4001
def REG_ADDR_MAGIC2 : BitVec 16 := 0x4002
def REG_ADDR_MAGIC3 : BitVec 16 := 0x4003

def TDT4255_EX1_MAGIC : BitVec 32 := 0xCAFEC0DE

/-! ### The bus -/

/-- The UART register control interface signals, driven by the host. -/
structure HostBus where
  regAddress : BitVec 16
  regWriteData : Byte
  regWriteEnable : Bool
  regReadEnable : Bool
  deriving DecidableEq, Repr

/-- The bus while a byte is written, and while one is asked for. -/
def HostBus.write (address : BitVec 16) (v : Byte) : HostBus := ⟨address, v, true, false⟩

def HostBus.read (address : BitVec 16) : HostBus := ⟨address, 0, false, true⟩

/-- The bus between accesses: the address stays. -/
def HostBus.idle (address : BitVec 16) : HostBus := ⟨address, 0, false, false⟩

namespace HostBus

variable (bus : HostBus)

def isAccessToRf : Bool := bus.regAddress.extractLsb' 12 4 = 0x3

def isAccessToExpupd : Bool := bus.regAddress.extractLsb' 12 4 = 0x2

def imemWrEn (procEnableSignal : Bool) : Bool :=
  bus.regWriteEnable && (bus.regAddress.getLsbD 15 && bus.regAddress.getLsbD 14) &&
    !procEnableSignal

def dmemWrEn (procEnableSignal : Bool) : Bool :=
  bus.regWriteEnable && (bus.regAddress.getLsbD 15 && !bus.regAddress.getLsbD 14) &&
    !procEnableSignal

/-- `imem_addr` and `dmem_addr`. -/
def memAddr : ByteAddr := bus.regAddress.extractLsb' 0 12

/-- The connections to the debug port of the register file. -/
def regfileDebugIn : RegfileDebugIn where
  byteAddr := bus.regAddress.extractLsb' 0 7
  byte := bus.regWriteData
  we := bus.regWriteEnable && bus.isAccessToRf

def tmExpupdByteWriteAddr : BitVec 12 := bus.regAddress.extractLsb' 0 12

def tmExpupdWe : Bool := if bus.isAccessToExpupd then bus.regWriteEnable else false

def tmExpupdRe : Bool := bus.regReadEnable && bus.isAccessToExpupd

/-- The write enable of the configuration register at `address`. -/
def configWe (address : BitVec 16) : Bool :=
  if bus.regAddress = address then bus.regWriteEnable else false

def tmNumExpupdLoWe : Bool := bus.configWe REG_ADDR_NUM_EXPECTED_UPDATES_LO

def tmNumExpupdHiWe : Bool := bus.configWe REG_ADDR_NUM_EXPECTED_UPDATES_HI

def tmMaxWaitTimeLoWe : Bool := bus.configWe REG_ADDR_MAX_WAIT_TIME_LO

def tmMaxWaitTimeHiWe : Bool := bus.configWe REG_ADDR_MAX_WAIT_TIME_HI

end HostBus

/-! ### The registers -/

/-- The registers of `HostComm`. -/
structure HostComm where
  procResetSignal : Bool
  procEnableSignal : Bool
  wasReset : Bool
  resetDuration : BitVec 32
  deriving DecidableEq, Repr

/-- One rising edge. -/
def HostComm.step (h : HostComm) (reset : Bool) (bus : HostBus) : HostComm where
  procResetSignal :=
    if reset then false
    else if bus.regWriteEnable = true ∧ bus.regAddress = REG_ADDR_PROC_RESET then
      bus.regWriteData.getLsbD 0
    else h.procResetSignal
  procEnableSignal :=
    if reset then false
    else if bus.regWriteEnable = true ∧ bus.regAddress = REG_ADDR_PROC_EN then
      bus.regWriteData.getLsbD 0
    else h.procEnableSignal
  wasReset := reset
  -- Counted from the first cycle of a reset to the first one behind it, and kept until the next.
  resetDuration :=
    if reset = true ∧ h.wasReset = false then 0
    else if h.wasReset then h.resetDuration + 1
    else h.resetDuration

/-! ### The register read mux -/

/-- The inputs of `HostComm` that the host can read. -/
structure HostCommIn where
  dmemDataIn : Byte
  imemDataIn : Byte
  regfileReadValue : Byte
  expupdReadValue : Byte
  tmTestStatus : Byte
  tmTestCycleCounter : BitVec 16
  unmatchedExpected : ExpectedStateUpdate
  badActual : ExpectedStateUpdate
  tmNumExpupd : BitVec 9
  tmMaxWaitTime : BitVec 16

/-- `unmatched_expected_dest` and `bad_actual_dest`. -/
def destByte (u : ExpectedStateUpdate) : Byte :=
  match u.dest with
  | .dmemUpdate => 0x01
  | .regfileUpdate => 0x00

/-- `unmatched_expected_addr_hi` and `bad_actual_addr_hi`. -/
def addrHiByte (u : ExpectedStateUpdate) : Byte := (u.addr.extractLsb' 8 2).setWidth 8

/-- `unmatched_expected_addr_lo` and `bad_actual_addr_lo`. -/
def addrLoByte (u : ExpectedStateUpdate) : Byte := u.addr.extractLsb' 0 8

/-- `regReadData`. -/
def HostComm.regReadData (h : HostComm) (input : HostCommIn) (bus : HostBus) : Byte :=
  if bus.regAddress.extractLsb' 14 2 = 0b10 then input.dmemDataIn
  else if bus.regAddress.extractLsb' 14 2 = 0b11 then input.imemDataIn
  else if bus.isAccessToRf then input.regfileReadValue
  else if bus.isAccessToExpupd then input.expupdReadValue
  else if bus.regAddress = REG_ADDR_PROC_EN then (BitVec.ofBool h.procEnableSignal).setWidth 8
  else if bus.regAddress = REG_ADDR_PROC_RESET then (BitVec.ofBool h.procResetSignal).setWidth 8
  else if bus.regAddress = REG_ADDR_TEST_STATUS then input.tmTestStatus
  else if bus.regAddress = REG_ADDR_TEST_CYCLE_COUNTER_HI then
    input.tmTestCycleCounter.extractLsb' 8 8
  else if bus.regAddress = REG_ADDR_TEST_CYCLE_COUNTER_LO then
    input.tmTestCycleCounter.extractLsb' 0 8
  else if bus.regAddress = REG_ADDR_NUM_EXPECTED_UPDATES_HI then
    (input.tmNumExpupd.extractLsb' 8 1).setWidth 8
  else if bus.regAddress = REG_ADDR_NUM_EXPECTED_UPDATES_LO then input.tmNumExpupd.extractLsb' 0 8
  else if bus.regAddress = REG_ADDR_MAX_WAIT_TIME_HI then input.tmMaxWaitTime.extractLsb' 8 8
  else if bus.regAddress = REG_ADDR_MAX_WAIT_TIME_LO then input.tmMaxWaitTime.extractLsb' 0 8
  else if bus.regAddress = REG_ADDR_EXPECTED_TYPE then destByte input.unmatchedExpected
  else if bus.regAddress = REG_ADDR_EXPECTED_ADDR_HI then addrHiByte input.unmatchedExpected
  else if bus.regAddress = REG_ADDR_EXPECTED_ADDR_LO then addrLoByte input.unmatchedExpected
  else if bus.regAddress = REG_ADDR_EXPECTED_VALUE0 then
    bigEndianByte input.unmatchedExpected.value 0
  else if bus.regAddress = REG_ADDR_EXPECTED_VALUE1 then
    bigEndianByte input.unmatchedExpected.value 1
  else if bus.regAddress = REG_ADDR_EXPECTED_VALUE2 then
    bigEndianByte input.unmatchedExpected.value 2
  else if bus.regAddress = REG_ADDR_EXPECTED_VALUE3 then
    bigEndianByte input.unmatchedExpected.value 3
  else if bus.regAddress = REG_ADDR_ACTUAL_TYPE then destByte input.badActual
  else if bus.regAddress = REG_ADDR_ACTUAL_ADDR_HI then addrHiByte input.badActual
  else if bus.regAddress = REG_ADDR_ACTUAL_ADDR_LO then addrLoByte input.badActual
  else if bus.regAddress = REG_ADDR_ACTUAL_VALUE0 then bigEndianByte input.badActual.value 0
  else if bus.regAddress = REG_ADDR_ACTUAL_VALUE1 then bigEndianByte input.badActual.value 1
  else if bus.regAddress = REG_ADDR_ACTUAL_VALUE2 then bigEndianByte input.badActual.value 2
  else if bus.regAddress = REG_ADDR_ACTUAL_VALUE3 then bigEndianByte input.badActual.value 3
  else if bus.regAddress = REG_ADDR_MAGIC0 then bigEndianByte TDT4255_EX1_MAGIC 0
  else if bus.regAddress = REG_ADDR_MAGIC1 then bigEndianByte TDT4255_EX1_MAGIC 1
  else if bus.regAddress = REG_ADDR_MAGIC2 then bigEndianByte TDT4255_EX1_MAGIC 2
  else if bus.regAddress = REG_ADDR_MAGIC3 then bigEndianByte TDT4255_EX1_MAGIC 3
  else if bus.regAddress = REG_ADDR_RESET_DURATION0 then bigEndianByte h.resetDuration 0
  else if bus.regAddress = REG_ADDR_RESET_DURATION1 then bigEndianByte h.resetDuration 1
  else if bus.regAddress = REG_ADDR_RESET_DURATION2 then bigEndianByte h.resetDuration 2
  else if bus.regAddress = REG_ADDR_RESET_DURATION3 then bigEndianByte h.resetDuration 3
  else 0x00

end VivadoTest.Framework
