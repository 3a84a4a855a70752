import VivadoTest.Framework.Util
import Mathlib.Logic.Function.Basic

/-!
# `VivadoTest.InputTest.UlpiWrapper`: the UTMI to ULPI wrapper

`ulpi_wrapper.v` as a clocked machine. `UlpiWrapper` holds its registers, and each `always`
block is a definition; `UlpiWrapper.step` is one rising edge of `ulpi_clk60_i`. The blocks
use nonblocking assignments: every right side reads the registers before the edge, and of two
assignments to one register in a block the later one counts.

The reset is asynchronous. An edge while `ulpi_rst_i` is high finds every register at its
reset value.

The wrapper has a state machine for the bus with the PHY: idle, the command and the data of a
transmission or of a register write, and a register access that is over (`UlpiState`). While the
PHY drives the bus, received bytes and status bytes come in, told apart by `ulpi_nxt_i`. A change
of the mode is written to the PHY as soon as the bus is free.
-/

set_option autoImplicit false

namespace VivadoTest.InputTest

open VivadoTest.Framework

/-- `state_q`. -/
inductive UlpiState where
  | idle
  | cmd
  | data
  | reg
  deriving DecidableEq, Repr

def REG_FUNC_CTRL : Byte := 0x84
def REG_OTG_CTRL : Byte := 0x8A
def REG_TRANSMIT : Byte := 0x40
def REG_WRITE : Byte := 0x80
def REG_READ : Byte := 0xC0

def TX_START_DELAY : BitVec 3 := 7

/-- The inputs of `ulpi_wrapper`, without the clock. -/
structure UlpiWrapperIn where
  ulpiRstI : Bool
  ulpiDataI : Byte
  ulpiDirI : Bool
  ulpiNxtI : Bool
  regAddrI : Byte
  regStbI : Bool
  regWeI : Bool
  regDataI : Byte
  utmiTxvalidI : Bool
  utmiDataI : Byte
  utmiXcvrselectI : BitVec 2
  utmiTermselectI : Bool
  utmiOpmodeI : BitVec 2
  utmiDppulldownI : Bool
  utmiDmpulldownI : Bool

/-- The registers of `ulpi_wrapper`. -/
structure UlpiWrapper where
  stateQ : UlpiState
  modeUpdateQ : Bool
  xcvrselectQ : BitVec 2
  termselectQ : Bool
  opmodeQ : BitVec 2
  phyResetQ : Bool
  autoWrQ : Bool
  regWrQ : Bool
  otgUpdateQ : Bool
  dppulldownQ : Bool
  dmpulldownQ : Bool
  ulpiDirQ : Bool
  ulpiRxcmdQ : Bool
  regWrPendingQ : Bool
  regRdPendingQ : Bool
  regAddrQ : Byte
  regDataQ : Byte
  regAckQ : Bool
  txDelayQ : BitVec 3
  txBufferQ : BitVec 1 → Byte
  txValidQ : BitVec 1 → Bool
  txWrIdxQ : BitVec 1
  txRdIdxQ : BitVec 1
  ulpiDataQ : Byte
  ulpiStpQ : Bool
  dataQ : Byte
  utmiRxvalidQ : Bool
  utmiRxerrorQ : Bool
  utmiRxactiveQ : Bool
  utmiLinestateQ : BitVec 2
  utmiDataQ : Byte

namespace UlpiWrapper

/-- The registers while `ulpi_rst_i` is high. -/
def reset : UlpiWrapper where
  stateQ := .idle
  modeUpdateQ := false
  xcvrselectQ := 0
  termselectQ := false
  opmodeQ := 0b11
  phyResetQ := true
  autoWrQ := false
  regWrQ := false
  otgUpdateQ := false
  dppulldownQ := true
  dmpulldownQ := true
  ulpiDirQ := false
  ulpiRxcmdQ := false
  regWrPendingQ := false
  regRdPendingQ := false
  regAddrQ := 0
  regDataQ := 0
  regAckQ := false
  txDelayQ := 0
  txBufferQ := fun _ => 0
  txValidQ := fun _ => false
  txWrIdxQ := 0
  txRdIdxQ := 0
  ulpiDataQ := 0
  ulpiStpQ := false
  dataQ := 0
  utmiRxvalidQ := false
  utmiRxerrorQ := false
  utmiRxactiveQ := false
  utmiLinestateQ := 0
  utmiDataQ := 0

variable (s : UlpiWrapper) (input : UlpiWrapperIn)

/-! ### The wires -/

/-- `turnaround_w`. -/
def turnaroundW : Bool := s.ulpiDirQ ^^ input.ulpiDirI

/-- `reg_ready_w`. -/
def regReadyW : Bool :=
  (s.regWrPendingQ && s.stateQ = .reg && input.ulpiNxtI && s.regWrQ) ||
    (s.regRdPendingQ && !s.turnaroundW input && input.ulpiDirI && !s.ulpiRxcmdQ)

/-- `utmi_txready_o`. -/
def utmiTxreadyO : Bool := !s.txValidQ s.txWrIdxQ && s.txDelayQ = 0

/-- `utmi_tx_ready_w`. -/
def utmiTxReadyW : Bool := s.txValidQ s.txRdIdxQ

/-- `utmi_tx_data_w`. -/
def utmiTxDataW : Byte := s.txBufferQ s.txRdIdxQ

/-- `utmi_tx_accept_w`. -/
def utmiTxAcceptW : Bool :=
  (s.stateQ = .idle &&
    !(s.modeUpdateQ || s.otgUpdateQ || s.turnaroundW input || s.regWrPendingQ || s.regRdPendingQ) &&
    !input.ulpiDirI) ||
  (s.stateQ = .data && input.ulpiNxtI && !input.ulpiDirI)

/-! ### The blocks -/

/-- "UTMI Mode Select". -/
def modeSelect (next : UlpiWrapper) : UlpiWrapper :=
  let written := s.modeUpdateQ && s.stateQ = .cmd && s.ulpiDataQ = REG_FUNC_CTRL
  { next with
    xcvrselectQ := input.utmiXcvrselectI
    termselectQ := input.utmiTermselectI
    opmodeQ := input.utmiOpmodeI
    modeUpdateQ :=
      if written then false
      else if s.opmodeQ ≠ input.utmiOpmodeI ∨ s.termselectQ ≠ input.utmiTermselectI ∨
        s.xcvrselectQ ≠ input.utmiXcvrselectI then true
      else s.modeUpdateQ
    phyResetQ := if written then false else s.phyResetQ }

/-- "UTMI OTG Control". -/
def otgControl (next : UlpiWrapper) : UlpiWrapper :=
  { next with
    dppulldownQ := input.utmiDppulldownI
    dmpulldownQ := input.utmiDmpulldownI
    otgUpdateQ :=
      if s.otgUpdateQ && s.stateQ = .cmd && s.ulpiDataQ = REG_OTG_CTRL then false
      else if s.dppulldownQ ≠ input.utmiDppulldownI ∨ s.dmpulldownQ ≠ input.utmiDmpulldownI then
        true
      else s.otgUpdateQ }

/-- "Bus turnaround detect". -/
def turnaroundDetect (next : UlpiWrapper) : UlpiWrapper :=
  { next with
    ulpiDirQ := input.ulpiDirI
    ulpiRxcmdQ :=
      if !s.ulpiDirQ && input.ulpiDirI && input.ulpiNxtI then true
      else if s.ulpiDirQ && !input.ulpiDirI then false
      else s.ulpiRxcmdQ }

/-- "Register Access". -/
def registerAccess (next : UlpiWrapper) : UlpiWrapper :=
  { next with
    regAddrQ := if input.regStbI then input.regAddrI else s.regAddrQ
    regWrPendingQ :=
      if input.regStbI then input.regWeI else if s.regReadyW input then false else s.regWrPendingQ
    regRdPendingQ :=
      if input.regStbI then !input.regWeI else if s.regReadyW input then false else s.regRdPendingQ
    regDataQ := if input.regStbI && input.regWeI then input.regDataI else s.regDataQ
    regAckQ := s.regReadyW input }

/-- "Rx - Tx delay". -/
def rxTxDelay (next : UlpiWrapper) : UlpiWrapper :=
  { next with
    txDelayQ :=
      if s.utmiRxactiveQ then TX_START_DELAY
      else if s.txDelayQ ≠ 0 then s.txDelayQ - 1
      else s.txDelayQ }

/-- "Tx Buffer": push, then pop. -/
def txBuffer (next : UlpiWrapper) : UlpiWrapper :=
  let push := input.utmiTxvalidI && s.utmiTxreadyO
  let pop := s.utmiTxReadyW && s.utmiTxAcceptW input
  let pushed := if push then Function.update s.txValidQ s.txWrIdxQ true else s.txValidQ
  { next with
    txBufferQ := if push then Function.update s.txBufferQ s.txWrIdxQ input.utmiDataI
      else s.txBufferQ
    txValidQ := if pop then Function.update pushed s.txRdIdxQ false else pushed
    txWrIdxQ := if push then s.txWrIdxQ + 1 else s.txWrIdxQ
    txRdIdxQ := if pop then s.txRdIdxQ + 1 else s.txRdIdxQ }

/-- "Input: RX_DATA". A byte without `ulpi_nxt_i` carries the status of the PHY. -/
def rxData (next : UlpiWrapper) : UlpiWrapper :=
  let next := { next with utmiRxvalidQ := input.ulpiNxtI, utmiDataQ := input.ulpiDataI }
  if input.ulpiNxtI then { next with utmiRxactiveQ := true }
  else
    let next := { next with utmiLinestateQ := input.ulpiDataI.extractLsb' 0 2 }
    if input.ulpiDataI.extractLsb' 4 2 = 0b00 then
      { next with utmiRxactiveQ := false, utmiRxerrorQ := false }
    else if input.ulpiDataI.extractLsb' 4 2 = 0b01 then
      { next with utmiRxactiveQ := true, utmiRxerrorQ := false }
    else if input.ulpiDataI.extractLsb' 4 2 = 0b11 then
      { next with utmiRxactiveQ := true, utmiRxerrorQ := true }
    else next

/-- "Output". -/
def txOutput (next : UlpiWrapper) : UlpiWrapper :=
  if s.stateQ = .idle ∧ s.modeUpdateQ = true then
    { next with
      dataQ :=
        0#1 ++ 1#1 ++ BitVec.ofBool s.phyResetQ ++ s.opmodeQ ++ BitVec.ofBool s.termselectQ ++
        s.xcvrselectQ
      ulpiDataQ := REG_FUNC_CTRL
      stateQ := .cmd
      autoWrQ := true
      regWrQ := false }
  else if s.stateQ = .idle ∧ s.otgUpdateQ = true then
    { next with
      dataQ := 0#5 ++ BitVec.ofBool s.dmpulldownQ ++ BitVec.ofBool s.dppulldownQ ++ 0#1
      ulpiDataQ := REG_OTG_CTRL
      stateQ := .cmd
      autoWrQ := true
      regWrQ := false }
  else if s.stateQ = .idle ∧ (s.regWrPendingQ = true ∨ s.regRdPendingQ = true) then
    { next with
      dataQ := s.regDataQ
      ulpiDataQ :=
        if s.regWrPendingQ then REG_WRITE ||| (0#2 ++ s.regAddrQ.extractLsb' 0 6)
        else REG_READ ||| (0#2 ++ s.regAddrQ.extractLsb' 0 6)
      stateQ := .cmd
      autoWrQ := false
      regWrQ := s.regWrPendingQ }
  else if s.stateQ = .idle ∧ s.utmiTxReadyW = true then
    { next with
      ulpiDataQ := REG_TRANSMIT ||| (0#4 ++ s.utmiTxDataW.extractLsb' 0 4)
      stateQ := .data
      autoWrQ := false
      regWrQ := false }
  -- The PHY has taken the command: a register read is done, a write goes on with its data.
  else if s.stateQ = .cmd ∧ input.ulpiNxtI = true then
    if s.regWrQ = false ∧ s.autoWrQ = false then
      { next with stateQ := .idle, ulpiDataQ := 0 }
    else { next with stateQ := .reg, ulpiDataQ := s.dataQ }
  else if s.stateQ = .reg ∧ input.ulpiNxtI = true then
    { next with
      stateQ := .idle
      ulpiDataQ := 0
      ulpiStpQ := true
      autoWrQ := false
      regWrQ := false }
  -- A transmission stops when the buffer is empty.
  else if s.stateQ = .data ∧ input.ulpiNxtI = true then
    if s.utmiTxReadyW = false then
      { next with stateQ := .idle, ulpiDataQ := 0, ulpiStpQ := true }
    else { next with stateQ := .data, ulpiDataQ := s.utmiTxDataW }
  else next

/-- "Implementation": the bus state machine. -/
def implementation (next : UlpiWrapper) : UlpiWrapper :=
  let next := { next with ulpiStpQ := false, utmiRxvalidQ := false }
  if s.turnaroundW input then next
  else if input.ulpiDirI && s.ulpiRxcmdQ then rxData input next
  else if input.ulpiDirI then
    { next with utmiRxvalidQ := false, utmiDataQ := input.ulpiDataI }
  else s.txOutput input next

/-- One rising edge. Each block writes its own registers. -/
def step : UlpiWrapper :=
  if input.ulpiRstI then reset
  else
    s.implementation input <| s.txBuffer input <| s.rxTxDelay <| s.registerAccess input <|
      s.turnaroundDetect input <| s.otgControl input <| s.modeSelect input s

end UlpiWrapper

end VivadoTest.InputTest
