import VivadoTest.Framework.Util
import VivadoTest.Lib.Crc

/-!
# `VivadoTest.InputTest.UsbPacket`: USB packets

`usb_packet.vhdl` as a clocked machine. `UsbPacket` holds its registers, `UsbPacket.step` is one
rising edge of `CLK`. The process of the source computes some variables on the way (`Vars`). Its
parts are the state machine (`stateMachine`), the update of the CRC (`crcUpdate`) and the outputs
to the PHY (`driveOutputs`). Every right side reads the registers before the edge.

A token goes through five bits of CRC and data through sixteen; both registers are updated byte by
byte with the formulae of `crc5_upd` and `crc16_upd`, which are the source's, term by term. A byte
of the line is looked at one edge after it was there, because the receiving side is registered.
-/

set_option autoImplicit false

namespace VivadoTest.InputTest

open VivadoTest.Framework
open VivadoTest.Lib.Crc (ofMsbs)

/-- `t_state`. -/
inductive PacketState where
  | none
  | chirpk
  | rwait
  | rtoken
  | rdata
  | rshake
  | tstart
  | tdata
  | tcrc1
  | tcrc2
  deriving DecidableEq, Repr

/-- What the token's register holds after a good token. -/
def crc5Res : BitVec 5 := 0b01100
/-- What the data register holds after good data. -/
def crc16Res : BitVec 16 := 0b1000000000001101

/-- The variable `t` of `crc5_upd`. The aggregates of the source list the highest bit first. -/
def crc5UpdT (crc : BitVec 5) (b : Byte) : BitVec 5 :=
  ofMsbs [
    b[0] ^^ crc[4],
    b[1] ^^ crc[3],
    b[2] ^^ crc[2],
    b[3] ^^ crc[1],
    b[4] ^^ crc[0]]

/-- The variable `y` of `crc5_upd`. -/
def crc5UpdY (b : Byte) (t : BitVec 5) : BitVec 5 :=
  ofMsbs [
    b[5] ^^ t[1] ^^ t[2],
    b[6] ^^ t[0] ^^ t[1] ^^ t[4],
    b[5] ^^ b[7] ^^ t[0] ^^ t[3] ^^ t[4],
    b[6] ^^ t[1] ^^ t[3] ^^ t[4],
    b[7] ^^ t[0] ^^ t[2] ^^ t[3]]

/-- `crc5_upd`. -/
def crc5Upd (crc : BitVec 5) (b : Byte) : BitVec 5 := crc5UpdY b (crc5UpdT crc b)

/-- The variable `t` of `crc16_upd`. -/
def crc16UpdT (crc : BitVec 16) (b : Byte) : BitVec 8 :=
  ofMsbs [
    b[0] ^^ crc[15],
    b[1] ^^ crc[14],
    b[2] ^^ crc[13],
    b[3] ^^ crc[12],
    b[4] ^^ crc[11],
    b[5] ^^ crc[10],
    b[6] ^^ crc[9],
    b[7] ^^ crc[8]]

/-- The variable `y` of `crc16_upd`. -/
def crc16UpdY (crc : BitVec 16) (t : BitVec 8) : BitVec 16 :=
  ofMsbs [
    crc[7] ^^ t[0] ^^ t[1] ^^ t[2] ^^ t[3] ^^ t[4] ^^ t[5] ^^ t[6] ^^ t[7],
    crc[6], crc[5], crc[4], crc[3], crc[2],
    crc[1] ^^ t[7],
    crc[0] ^^ t[6] ^^ t[7],
    t[5] ^^ t[6],
    t[4] ^^ t[5],
    t[3] ^^ t[4],
    t[2] ^^ t[3],
    t[1] ^^ t[2],
    t[0] ^^ t[1],
    t[1] ^^ t[2] ^^ t[3] ^^ t[4] ^^ t[5] ^^ t[6] ^^ t[7],
    t[0] ^^ t[1] ^^ t[2] ^^ t[3] ^^ t[4] ^^ t[5] ^^ t[6] ^^ t[7]]

/-- `crc16_upd`. -/
def crc16Upd (crc : BitVec 16) (b : Byte) : BitVec 16 := crc16UpdY crc (crc16UpdT crc b)

/-- The two bytes of the CRC in the order in which they are sent, each with its lowest bit first.
Bit `i` of the first is `not crc16_buf(15-i)`, of the second `not crc16_buf(7-i)`. -/
def crc16First (crc : BitVec 16) : Byte :=
  ofMsbs [!crc[8], !crc[9], !crc[10], !crc[11], !crc[12], !crc[13], !crc[14], !crc[15]]

/-- The second byte of the checksum of data. -/
def crc16Second (crc : BitVec 16) : Byte :=
  ofMsbs [!crc[0], !crc[1], !crc[2], !crc[3], !crc[4], !crc[5], !crc[6], !crc[7]]

/-- The inputs of `usb_packet`, without the clock. -/
structure UsbPacketIn where
  reset : Bool
  pChirpk : Bool
  pTxact : Bool
  pTxdat : Byte
  phyDatain : Byte
  phyTxready : Bool
  phyRxactive : Bool
  phyRxvalid : Bool
  phyRxerror : Bool

/-- The registers of `usb_packet`. -/
structure UsbPacket where
  sState : PacketState
  sTxfirst : Bool
  sRxactive : Bool
  sRxvalid : Bool
  sRxerror : Bool
  sDatain : Byte
  sTxready : Bool
  sDataout : Byte
  sRxgoodpacket : Bool
  crc5Buf : BitVec 5
  crc16Buf : BitVec 16
  phyTxvalid : Bool
  phyDataout : Byte

/-- "Got PID byte": the upper half of the byte is the complement of the lower. -/
def pidState (b : Byte) : PacketState × Bool :=
  if b.extractLsb' 0 4 = ~~~(b.extractLsb' 4 4) then
    if b.extractLsb' 0 2 = 0b01 then (.rtoken, false)
    else if b.extractLsb' 0 2 = 0b11 then (.rdata, false)
    else if b.extractLsb' 0 2 = 0b10 then (.rshake, true)
    else (.rtoken, false)
  else (.rwait, false)

namespace UsbPacket

/-- The variables of the process. `v_crc5_new` and `v_crc16_new` are local to their branches. -/
structure Vars where
  vDataout : Byte
  vTxvalid : Bool
  vCrcUpd : Bool
  vCrcData : Byte

variable (s : UsbPacket) (input : UsbPacketIn)

/-! ### The outputs to the application -/

/-- `P_RXACT`. -/
def pRxact : Bool := s.sRxactive

/-- `P_RXFIN`. -/
def pRxfin : Bool := !s.sRxactive && !s.sRxerror && s.sRxgoodpacket

/-- `P_RXRDY`. -/
def pRxrdy : Bool := s.sRxactive && s.sRxvalid

/-- `P_RXDAT`. -/
def pRxdat : Byte := s.sDatain

/-- `P_TXRDY`. -/
def pTxrdy : Bool :=
  if s.sState = .tstart then true
  else if s.sState = .tdata then s.sTxfirst || s.sTxready
  else false

/-! ### The process -/

/-- What an edge does whatever the state is: the inputs are registered. -/
def registered : UsbPacket :=
  { s with
    sTxfirst := false
    sRxactive := input.phyRxactive
    sRxvalid := input.phyRxvalid
    sRxerror := input.phyRxerror
    sDatain := input.phyDatain
    sTxready := input.phyTxready }

/-- The variables at the start of the process. -/
def vars : Vars where
  vDataout := s.sDataout
  vTxvalid := false
  vCrcUpd := false
  vCrcData := 0

/-- The state machine. -/
def stateMachine : UsbPacket × Vars :=
  let next := s.registered input
  let v := s.vars
  if input.reset then ({ next with sState := .none, sRxgoodpacket := false }, v)
  else
    match s.sState with
    | .none =>
      let next := { next with crc5Buf := 0b11111, crc16Buf := 0xFFFF, sRxgoodpacket := false }
      if input.pChirpk then ({ next with sState := .chirpk }, v)
      else if s.sRxactive then
        if s.sRxerror then ({ next with sState := .rwait }, v)
        else if s.sRxvalid then
          ({ next with sState := (pidState s.sDatain).1, sRxgoodpacket := (pidState s.sDatain).2 },
            v)
        else (next, v)
      else if input.pTxact then
        ({ next with sState := .tstart }, { v with vTxvalid := true, vDataout := input.pTxdat })
      else (next, v)
    | .chirpk => if input.pChirpk then (next, v) else ({ next with sState := .none }, v)
    | .rtoken =>
      if !s.sRxactive then ({ next with sRxgoodpacket := false, sState := .none }, v)
      else if s.sRxerror then ({ next with sRxgoodpacket := false, sState := .rwait }, v)
      else if s.sRxvalid then
        let vCrc5New := crc5Upd s.crc5Buf s.sDatain
        ({ next with crc5Buf := vCrc5New, sRxgoodpacket := vCrc5New = crc5Res }, v)
      else (next, v)
    | .rdata =>
      if !s.sRxactive then ({ next with sRxgoodpacket := false, sState := .none }, v)
      else if s.sRxerror then ({ next with sRxgoodpacket := false, sState := .rwait }, v)
      else if s.sRxvalid then (next, { v with vCrcUpd := true, vCrcData := s.sDatain })
      else (next, v)
    | .rwait => if !s.sRxactive then ({ next with sState := .none }, v) else (next, v)
    | .rshake =>
      if !s.sRxactive then ({ next with sRxgoodpacket := false, sState := .none }, v)
      else if s.sRxerror || s.sRxvalid then
        ({ next with sRxgoodpacket := false, sState := .rwait }, v)
      else (next, v)
    | .tstart =>
      let v := { v with vTxvalid := true }
      if input.pTxdat.extractLsb' 0 2 = 0b11 then
        ({ next with sState := .tdata, sTxfirst := true }, v)
      else if input.pTxdat.extractLsb' 0 2 = 0b10 then ({ next with sState := .rwait }, v)
      else (next, v)
    | .tdata =>
      let v := { v with vTxvalid := true }
      if s.sTxready || s.sTxfirst then
        if !input.pTxact then
          ({ next with sState := .tcrc1 }, { v with vDataout := crc16First s.crc16Buf })
        else
          (next, { v with vDataout := input.pTxdat, vCrcUpd := true, vCrcData := input.pTxdat })
      else (next, v)
    | .tcrc1 =>
      let v := { v with vTxvalid := true }
      if s.sTxready then
        ({ next with sState := .tcrc2 }, { v with vDataout := crc16Second s.crc16Buf })
      else (next, v)
    | .tcrc2 =>
      if s.sTxready then ({ next with sState := .rwait }, v)
      else (next, { v with vTxvalid := true })

/-- "CRC-16 update". -/
def crcUpdate (v : Vars) (next : UsbPacket) : UsbPacket :=
  if v.vCrcUpd then
    let vCrc16New := crc16Upd s.crc16Buf v.vCrcData
    { next with
      crc16Buf := vCrc16New
      sRxgoodpacket := s.sState = .rdata && vCrc16New = crc16Res }
  else next

/-- "Drive data output to PHY", and the register of the pending byte. -/
def driveOutputs (v : Vars) (next : UsbPacket) : UsbPacket :=
  let next := { next with sDataout := v.vDataout }
  if input.reset then { next with phyTxvalid := false, phyDataout := 0 }
  else if s.sState = .chirpk then { next with phyTxvalid := input.pChirpk, phyDataout := 0 }
  else if input.phyTxready || (s.sState = .none && input.pTxact) then
    { next with phyTxvalid := v.vTxvalid, phyDataout := v.vDataout }
  else next

/-- One rising edge of `CLK`. -/
def step : UsbPacket :=
  let (next, v) := s.stateMachine input
  s.driveOutputs input v (s.crcUpdate v next)

end UsbPacket

end VivadoTest.InputTest
