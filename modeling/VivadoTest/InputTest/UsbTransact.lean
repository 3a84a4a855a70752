import VivadoTest.InputTest.UsbPacket

/-!
# `VivadoTest.InputTest.UsbTransact`: USB transactions

`usb_transact.vhdl` as a clocked machine, with the generic `HSSUPPORT` as a parameter. The case
distinction of the source is over `s_state`, and each of its longer branches is a definition here.
`UsbDevice` is the entity on top of `usb_packet`, as `usb_serial.vhdl` connects the two.

The transactions that it takes part in begin with a token to its own address, IN, OUT, SETUP or
PING. It then receives or sends data, sends or awaits a handshake, and says `T_FIN` when the
transaction is over. What it is to send is up to the application (`TransactIn`).
-/

set_option autoImplicit false

namespace VivadoTest.InputTest

open VivadoTest.Framework

/-- `t_state`. -/
inductive TransactState where
  | idle
  | skip
  | gettoken1
  | gettoken2
  | gettoken3
  | gottoken
  | sendshake
  | getdata
  | gotdata
  | senddata
  | sending
  | waitack
  | waitskip
  | getack
  deriving DecidableEq, Repr

def pidOut : BitVec 4 := 0b0001
def pidIn : BitVec 4 := 0b1001
def pidSetup : BitVec 4 := 0b1101
def pidAck : BitVec 4 := 0b0010
def pidNak : BitVec 4 := 0b1010
def pidStall : BitVec 4 := 0b1110
def pidNyet : BitVec 4 := 0b0110
def pidPing : BitVec 4 := 0b0100
def pidData : BitVec 3 := 0b011

/-- `pid_mirror`. -/
def pidMirror (v : BitVec 4) : Byte := ~~~v ++ v

def waitTimeoutFs : BitVec 9 := 0b111111111
def waitTimeoutHs : BitVec 9 := 0b001111111
def waitSendFs : BitVec 9 := 0b000001110
def waitSendHs : BitVec 9 := 0b000000010

/-- The inputs of `usb_transact` from the application and from `usb_init`. -/
structure TransactIn where
  reset : Bool
  tAddr : BitVec 7
  tNak : Bool
  tStall : Bool
  tNyet : Bool
  tSend : Bool
  tIsync : Bool
  tTxdat : Byte
  iHighspeed : Bool

/-- The inputs of `usb_transact` from `usb_packet`. -/
structure PacketOut where
  pRxact : Bool
  pRxrdy : Bool
  pRxfin : Bool
  pRxdat : Byte
  pTxrdy : Bool

/-- The registers of `usb_transact`. -/
structure UsbTransact where
  sState : TransactState
  sIn : Bool
  sOut : Bool
  sSetup : Bool
  sPing : Bool
  sFinished : Bool
  sPrevrxact : Bool
  sSendpid : BitVec 4
  sEndpt : BitVec 4
  sOsync : Bool
  waitCount : BitVec 9

namespace UsbTransact

variable (hssupport : Bool) (s : UsbTransact) (input : TransactIn) (p : PacketOut)

/-! ### The outputs -/

/-- A transaction is going on. -/
def sActive : Bool :=
  match s.sState with
  | .skip | .gettoken1 | .gettoken2 | .gettoken3 => false
  | _ => true

def tIn : Bool := s.sIn && s.sActive
def tOut : Bool := s.sOut && s.sActive
def tSetup : Bool := s.sSetup && s.sActive
def tPing : Bool := s.sPing && s.sActive

/-- `T_FIN`. -/
def tFin : Bool := s.sFinished

def tRxrdy : Bool := s.sState = .getdata && p.pRxrdy
def tTxrdy : Bool := s.sState = .sending && p.pTxrdy

/-- `P_TXACT`. -/
def pTxact : Bool :=
  s.sState = .sendshake || s.sState = .senddata || (s.sState = .sending && input.tSend)

/-- `P_TXDAT`. -/
def pTxdat : Byte :=
  if s.sState = .sendshake ∨ s.sState = .senddata then pidMirror s.sSendpid else input.tTxdat

/-! ### The process -/

/-- The flags of a transaction, all low. -/
def clearFlags : UsbTransact :=
  { s with sIn := false, sOut := false, sSetup := false, sPing := false }

/-- The PID of a packet that may start a transaction. -/
def startToken : UsbTransact :=
  let pid := p.pRxdat.extractLsb' 0 4
  if pid = pidOut then { s with sOut := true, sState := .gettoken1 }
  else if pid = pidIn then { s with sIn := true, sState := .gettoken1 }
  else if pid = pidSetup then { s with sSetup := true, sState := .gettoken1 }
  else if pid = pidPing then
    -- no PINGing for full speed devices
    if hssupport then { s with sPing := true, sState := .gettoken1 }
    else { s with sState := .skip }
  else { s with sState := .skip }

/-- The wait counter one lower. -/
def countDown : UsbTransact := { s with waitCount := s.waitCount - 1 }

/-- The waiting time `hs` in high speed mode, else `fs`. -/
def waitFor (fs hs : BitVec 9) : BitVec 9 := if hssupport && input.iHighspeed then hs else fs

/-- `ST_GOTTOKEN`. -/
def gottoken (next : UsbTransact) : UsbTransact :=
  if p.pRxact then
    if p.pRxrdy then
      if (s.sOut || s.sSetup) && p.pRxdat.extractLsb' 0 3 = pidData then
        { next with sOsync := p.pRxdat.getLsbD 3, sState := .getdata }
      else next.clearFlags.startToken hssupport p
    else next
  -- got bad packet
  else if s.sPrevrxact then { next with sState := .idle }
  else if s.waitCount = 0 then
    if s.sIn then
      if input.tStall then { next with sState := .sendshake, sSendpid := pidStall }
      else if input.tNak then { next with sState := .sendshake, sSendpid := pidNak }
      else { next with
        sState := .senddata, sSendpid := BitVec.ofBool input.tIsync ++ pidData }
    else if hssupport && s.sPing then
      { next with
        sState := .sendshake
        sSendpid := if input.tStall then pidStall else if input.tNak then pidNak else pidAck }
    -- timeout while waiting for DATA packet
    else { next with sState := .idle }
  else next

/-- `ST_WAITACK`. -/
def waitack (next : UsbTransact) : UsbTransact :=
  if p.pRxact then
    if p.pRxrdy then
      let pid := p.pRxdat.extractLsb' 0 4
      if pid = pidAck then { next with sState := .getack }
      else if pid = pidOut then { next with sIn := false, sOut := true, sState := .gettoken1 }
      else if pid = pidIn then { next with sIn := true, sState := .gettoken1 }
      else if pid = pidSetup then
        { next with sIn := false, sSetup := true, sState := .gettoken1 }
      else if pid = pidPing then
        if hssupport then { next with sIn := false, sPing := true, sState := .gettoken1 }
        else { next with sState := .skip }
      -- this could be our own transmitted packet
      else { next with sState := .waitskip }
    else next
  -- got bad packet
  else if s.sPrevrxact then { next with sState := .idle }
  -- timeout while waiting for ACK
  else if s.waitCount = 0 then { next with sState := .idle }
  else next

/-- The case distinction. -/
def stateMachine (next : UsbTransact) : UsbTransact :=
  match s.sState with
  | .idle =>
    let next := { next.clearFlags with sFinished := false }
    if p.pRxrdy then next.startToken hssupport p else next
  | .skip => if !p.pRxact then { next with sState := .idle } else next
  | .gettoken1 =>
    if !p.pRxact then { next with sState := .idle }
    else if p.pRxrdy then
      { next with
        sEndpt := s.sEndpt.extractLsb' 1 3 ++ p.pRxdat.extractLsb' 7 1
        sState := if p.pRxdat.extractLsb' 0 7 = input.tAddr then .gettoken2 else .skip }
    else next
  | .gettoken2 =>
    if !p.pRxact then { next with sState := .idle }
    else if p.pRxrdy then
      { next with
        sEndpt := p.pRxdat.extractLsb' 0 3 ++ s.sEndpt.extractLsb' 0 1
        sState := .gettoken3 }
    else next
  | .gettoken3 =>
    { next with
      sState := if p.pRxfin then .gottoken else if !p.pRxact then .idle else .gettoken3
      waitCount :=
        if s.sIn || (hssupport && s.sPing) then waitFor hssupport input waitSendFs waitSendHs
        else waitFor hssupport input waitTimeoutFs waitTimeoutHs }
  | .gottoken => (s.gottoken hssupport input p next).countDown
  | .sendshake =>
    if p.pTxrdy then { next with sFinished := true, sState := .idle } else next
  | .getdata =>
    { next with
      sState := if p.pRxfin then .gotdata else if !p.pRxact then .idle else .getdata
      waitCount := waitFor hssupport input waitSendFs waitSendHs }
  | .gotdata =>
    if s.waitCount = 0 then
      { next.countDown with
        sState := .sendshake
        sSendpid :=
          if input.tStall then pidStall
          else if input.tNak then pidNak
          else if hssupport && input.iHighspeed && input.tNyet then pidNyet
          else pidAck }
    else next.countDown
  | .senddata => if p.pTxrdy then { next with sState := .sending } else next
  | .sending =>
    { next with
      sState :=
        if !input.tSend then
          -- perhaps an echo of our outgoing packet
          if p.pRxact then .waitskip else .waitack
        else .sending
      waitCount := waitFor hssupport input waitTimeoutFs waitTimeoutHs }
  | .waitack => (s.waitack hssupport p next).countDown
  | .waitskip =>
    { next.countDown with
      sState :=
        if s.waitCount = 0 then .skip else if !p.pRxact then .waitack else .waitskip }
  | .getack =>
    if p.pRxfin then { next with sFinished := true, sState := .idle }
    else if !p.pRxact then { next with sState := .idle }
    else next

/-- One rising edge of `CLK`. -/
def step : UsbTransact :=
  let next := { s with sPrevrxact := p.pRxact }
  if input.reset then { next.clearFlags with sState := .idle, sFinished := false }
  else s.stateMachine hssupport input p next

end UsbTransact

/-! ### The two entities together -/

/-- The PHY in one cycle. -/
structure PhyOut where
  phyDatain : Byte
  phyTxready : Bool
  phyRxactive : Bool
  phyRxvalid : Bool
  phyRxerror : Bool

/-- The inputs of a cycle: `reset` goes to both entities. -/
structure UsbDeviceIn where
  app : TransactIn
  pChirpk : Bool
  phy : PhyOut

/-- The two entities `usb_packet` and `usb_transact`. -/
structure UsbDevice where
  packet : UsbPacket
  transact : UsbTransact

namespace UsbDevice

variable (hssupport : Bool) (s : UsbDevice) (input : UsbDeviceIn)

/-- What `usb_packet` takes in. -/
def packetIn : UsbPacketIn where
  reset := input.app.reset
  pChirpk := input.pChirpk
  pTxact := s.transact.pTxact input.app
  pTxdat := s.transact.pTxdat input.app
  phyDatain := input.phy.phyDatain
  phyTxready := input.phy.phyTxready
  phyRxactive := input.phy.phyRxactive
  phyRxvalid := input.phy.phyRxvalid
  phyRxerror := input.phy.phyRxerror

/-- What `usb_packet` gives out, to `usb_transact` and to the PHY. -/
def packetOut : PacketOut where
  pRxact := s.packet.pRxact
  pRxrdy := s.packet.pRxrdy
  pRxfin := s.packet.pRxfin
  pRxdat := s.packet.pRxdat
  pTxrdy := s.packet.pTxrdy

/-- One rising edge of `CLK`. -/
def step : UsbDevice where
  packet := s.packet.step (s.packetIn input)
  transact := s.transact.step hssupport input.app s.packetOut

end UsbDevice

end VivadoTest.InputTest
