import VivadoTest.Framework.UartParser

/-!
# `VivadoTest.Framework.UartCycle`: the serial parser clock by clock

`uartParser.vhd` with all its registers, the binary extension included. Each process of the
entity is a definition here, and `UartRegs.step` is one rising edge. `UartParser` is the view
of it that takes one character at a time.

A cycle chains the processes. Each of them writes registers of its own and reads the registers
before the edge, so the order in the chain does not matter.
-/

set_option autoImplicit false

namespace VivadoTest.Framework

/-- `mainSm`. -/
inductive MainState
  | mainIdle
  | mainWhite1
  | mainData
  | mainWhite2
  | mainAddr
  | mainEol
  | mainBinCmd
  | mainBinAdrh
  | mainBinAdrl
  | mainBinLen
  | mainBinData
  deriving DecidableEq, Repr

/-- `txSm`. -/
inductive TxState
  | txIdle
  | txHiNib
  | txLoNib
  | txCharCR
  | txCharLF
  deriving DecidableEq, Repr

def binCmdNop : BitVec 2 := 0b00
def binCmdRead : BitVec 2 := 0b01
def binCmdWrite : BitVec 2 := 0b10

/-- The inputs of `uartParser`, without the clock. -/
structure UartIn where
  clr : Bool
  txBusy : Bool
  rxData : Byte
  newRxData : Bool
  intRdData : Byte
  intGnt : Bool

/-- The registers of `uartParser`. -/
structure UartRegs where
  mainSm : MainState
  readOp : Bool
  writeOp : Bool
  binReadOp : Bool
  binWriteOp : Bool
  sendStatFlag : Bool
  addrAutoInc : Bool
  dataParam : Byte
  addrParam : BitVec 16
  binByteCount : Byte
  iReadReq : Bool
  iIntRead : Bool
  iWriteReq : Bool
  iIntWrite : Bool
  intWrData : Byte
  iIntAddress : BitVec 16
  readDone : Bool
  readDoneS : Bool
  readDataS : Byte
  txSm : TxState
  txData : Byte
  newTxData : Bool
  sTxBusy : Bool

namespace UartRegs

/-- The registers after an edge with `clr`. -/
def cleared : UartRegs where
  mainSm := .mainIdle
  readOp := false
  writeOp := false
  binReadOp := false
  binWriteOp := false
  sendStatFlag := false
  addrAutoInc := false
  dataParam := 0
  addrParam := 0
  binByteCount := 0
  iReadReq := false
  iIntRead := false
  iWriteReq := false
  iIntWrite := false
  intWrData := 0
  iIntAddress := 0
  readDone := false
  readDoneS := false
  readDataS := 0
  txSm := .txIdle
  txData := 0
  newTxData := false
  sTxBusy := true

variable (r : UartRegs) (input : UartIn)

/-! ### Signals -/

/-- `intReq`. -/
def intReq : Bool := r.iReadReq || r.iWriteReq

/-- What the parser shows on the internal bus. -/
def bus : HostBus := ⟨r.iIntAddress, r.intWrData, r.iIntWrite, r.iIntRead⟩

/-- The last byte of a binary command. -/
def binLastByte : Bool := r.binByteCount = 0x01

/-- The transmitter has just finished a byte. -/
def txEndP : Bool := !input.txBusy && r.sTxBusy

/-- The nibble that is sent next. -/
def txNibble : BitVec 4 :=
  if r.txSm = .txHiNib then r.readDataS.extractLsb' 0 4 else r.readDataS.extractLsb' 4 4

/-- `txChar`, as a character code. -/
def txCharCode : Byte := BitVec.ofNat 8 (txChar r.txNibble).toNat

/-- A text command ends with the character of this cycle. -/
def endsCommand : Bool := r.mainSm = .mainAddr && input.newRxData && !dataInHexRange input.rxData

/-! ### The processes -/

/-- The main state machine, on a received character. -/
def mainSmNext (rxData : Byte) : MainState :=
  match r.mainSm with
  | .mainIdle =>
    -- an all zeros byte enters binary mode
    if rxData = 0x00 then .mainBinCmd
    else if isRead rxData then .mainWhite2
    else if isWrite rxData then .mainWhite1
    else if isEol rxData then .mainIdle
    -- any other character: wait for the end of the line
    else .mainEol
  | .mainWhite1 =>
    if isWhite rxData then .mainWhite1
    else if dataInHexRange rxData then .mainData
    else if isEol rxData then .mainIdle
    else .mainEol
  | .mainData =>
    if dataInHexRange rxData then .mainData
    else if isWhite rxData then .mainWhite2
    else if isEol rxData then .mainIdle
    else .mainEol
  | .mainWhite2 =>
    if isWhite rxData then .mainWhite2
    else if dataInHexRange rxData then .mainAddr
    else if isEol rxData then .mainIdle
    else .mainEol
  | .mainAddr =>
    if dataInHexRange rxData then .mainAddr
    else if isEol rxData then .mainIdle
    else .mainEol
  | .mainEol => if isEol rxData then .mainIdle else .mainEol
  -- binary extension: the command, two address bytes, the length, and the data of a write
  | .mainBinCmd => if rxData.extractLsb' 4 2 = binCmdNop then .mainIdle else .mainBinAdrh
  | .mainBinAdrh => .mainBinAdrl
  | .mainBinAdrl => .mainBinLen
  | .mainBinLen => if r.binWriteOp then .mainBinData else .mainIdle
  | .mainBinData => if r.binLastByte then .mainIdle else .mainBinData

/-- The operation flags of text commands. -/
def textFlags (next : UartRegs) : UartRegs :=
  if r.mainSm = .mainIdle ∧ input.newRxData = true then
    { next with readOp := isRead input.rxData, writeOp := isWrite input.rxData }
  else next

/-- The operation flags of binary commands, and the flags that a binary command carries. -/
def binFlags (next : UartRegs) : UartRegs :=
  { next with
    -- A read ends when its last byte has been sent, a write when its last byte arrives.
    binReadOp :=
      if r.mainSm = .mainBinCmd ∧ input.newRxData = true ∧
        input.rxData.extractLsb' 4 2 = binCmdRead then true
      else if r.binReadOp && r.txEndP input && r.binLastByte then false
      else r.binReadOp
    binWriteOp :=
      if r.mainSm = .mainBinCmd ∧ input.newRxData = true ∧
        input.rxData.extractLsb' 4 2 = binCmdWrite then true
      else if r.mainSm = .mainBinData ∧ input.newRxData = true ∧ r.binLastByte = true then false
      else r.binWriteOp
    sendStatFlag :=
      if r.mainSm = .mainBinCmd ∧ input.newRxData = true then input.rxData.getLsbD 0
      else r.sendStatFlag
    addrAutoInc :=
      if r.mainSm = .mainBinCmd ∧ input.newRxData = true then !input.rxData.getLsbD 1
      else r.addrAutoInc }

/-- `dataParam`, `addrParam` and `binByteCount`. -/
def params (next : UartRegs) : UartRegs :=
  { next with
    dataParam :=
      if r.mainSm = .mainWhite1 ∧ input.newRxData = true ∧ dataInHexRange input.rxData = true then
        (0x0 : BitVec 4) ++ dataNibble input.rxData
      else if r.mainSm = .mainData ∧ input.newRxData = true ∧
        dataInHexRange input.rxData = true then
        r.dataParam.extractLsb' 0 4 ++ dataNibble input.rxData
      else r.dataParam
    addrParam :=
      if r.mainSm = .mainWhite2 ∧ input.newRxData = true ∧ dataInHexRange input.rxData = true then
        (0x000 : BitVec 12) ++ dataNibble input.rxData
      else if r.mainSm = .mainAddr ∧ input.newRxData = true ∧
        dataInHexRange input.rxData = true then
        r.addrParam.extractLsb' 0 12 ++ dataNibble input.rxData
      -- The binary address follows `rxData` in every cycle of its two states.
      else if r.mainSm = .mainBinAdrh then input.rxData ++ r.addrParam.extractLsb' 0 8
      else if r.mainSm = .mainBinAdrl then r.addrParam.extractLsb' 8 8 ++ input.rxData
      else r.addrParam
    binByteCount :=
      if r.mainSm = .mainBinLen ∧ input.newRxData = true then input.rxData
      else if (r.mainSm = .mainBinData ∧ r.binWriteOp = true ∧ input.newRxData = true) ∨
        (r.binReadOp = true ∧ r.txEndP input = true) then r.binByteCount - 1
      else r.binByteCount }

/-- The internal write control and data. -/
def writeControl (next : UartRegs) : UartRegs :=
  if r.endsCommand input && r.writeOp then
    { next with iWriteReq := true, intWrData := r.dataParam }
  else if r.mainSm = .mainBinData ∧ r.binWriteOp = true ∧ input.newRxData = true then
    { next with iWriteReq := true, intWrData := input.rxData }
  -- granted: a pulse on the bus
  else if input.intGnt && r.iWriteReq then { next with iWriteReq := false, iIntWrite := true }
  else { next with iIntWrite := false }

/-- The internal read control. -/
def readControl (next : UartRegs) : UartRegs :=
  if r.endsCommand input && r.readOp then { next with iReadReq := true }
  -- the first byte of a binary read, then each next one behind the end of a transmission
  else if r.mainSm = .mainBinLen ∧ r.binReadOp = true ∧ input.newRxData = true then
    { next with iReadReq := true }
  else if r.binReadOp = true ∧ r.txEndP input = true ∧ r.binLastByte = false then
    { next with iReadReq := true }
  else if input.intGnt && r.iReadReq then { next with iReadReq := false, iIntRead := true }
  else { next with iIntRead := false }

/-- The internal address. -/
def address (next : UartRegs) : UartRegs :=
  { next with
    iIntAddress :=
      if r.endsCommand input then r.addrParam
      -- The length byte ends the parameters of a binary command, which may count up from there.
      else if r.mainSm = .mainBinLen ∧ input.newRxData = true then r.addrParam
      else if r.addrAutoInc = true ∧
        ((r.binReadOp = true ∧ r.txEndP input = true ∧ r.binLastByte = false) ∨
          (r.binWriteOp = true ∧ r.iIntWrite = true)) then r.iIntAddress + 1
      else r.iIntAddress }

/-- The read done flags and the sampled data. -/
def sample (next : UartRegs) : UartRegs :=
  { next with
    readDone := r.iIntRead
    readDoneS := r.readDone
    readDataS := if r.readDone then input.intRdData else r.readDataS
    sTxBusy := input.txBusy }

/-- `txIdle` sends a status byte behind a binary command. -/
def sendsStatus : Bool :=
  (r.sendStatFlag && r.binReadOp && r.txEndP input && r.binLastByte) ||
    (r.sendStatFlag && r.binWriteOp && input.newRxData && r.binLastByte) ||
    (r.mainSm = .mainBinCmd && input.newRxData && input.rxData.extractLsb' 4 2 = binCmdNop)

/-- The transmit state machine. -/
def transmit (next : UartRegs) : UartRegs :=
  match r.txSm with
  | .txIdle =>
    if r.readDoneS then
      -- A binary read sends the byte itself, a text read its two digits and a line end.
      if r.binReadOp then { next with txData := r.readDataS, newTxData := true }
      else { next with txSm := .txHiNib, txData := r.txCharCode, newTxData := true }
    else if r.sendsStatus input then { next with txData := 0x5A, newTxData := true }
    else { next with newTxData := false }
  | .txHiNib =>
    if r.txEndP input then
      { next with txSm := .txLoNib, txData := r.txCharCode, newTxData := true }
    else { next with newTxData := false }
  | .txLoNib =>
    if r.txEndP input then { next with txSm := .txCharCR, txData := 0x0D, newTxData := true }
    else { next with newTxData := false }
  | .txCharCR =>
    if r.txEndP input then { next with txSm := .txCharLF, txData := 0x0A, newTxData := true }
    else { next with newTxData := false }
  | .txCharLF =>
    if r.txEndP input then { next with txSm := .txIdle, newTxData := false }
    else { next with newTxData := false }

/-- One rising edge. Each process writes its own registers. -/
def step : UartRegs :=
  if input.clr then cleared
  else
    r.transmit input <| r.sample input <| r.address input <| r.readControl input <|
      r.writeControl input <| r.params input <| r.binFlags input <| r.textFlags input
        { r with mainSm := if input.newRxData then r.mainSmNext input.rxData else r.mainSm }

end UartRegs

end VivadoTest.Framework
