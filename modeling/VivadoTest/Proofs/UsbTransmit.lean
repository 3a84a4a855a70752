import VivadoTest.Proofs.UsbReceive

/-!
# `VivadoTest.Proofs.UsbTransmit`: the packets that are sent

An application hands a packet identifier and a payload to `usb_packet`, which runs one byte ahead
of the PHY and adds the CRC. Whenever the PHY is ready, it takes the next byte of the packet, and
`PHY_TXVALID` falls after the last one (`sent_eq_take`). The packet is good, so another
instance of the entity that hears these bytes at any pace confirms it (`sent_confirmed`).

`Sends` relates the registers and what the application still holds to the bytes that are left for
the PHY. Up to two of them are in registers.

## Ahead by a byte

The entity drives a byte in the cycle in which it decides about the next one. So when the PHY takes
a byte, the one behind it is in a register already, and the CRC has been updated with it:
`decision` is what is driven in an edge, and `dataRest` what will be driven later, as a function of
the payload that the application still holds. `Sends` ties the two to the list of bytes that are
left.

There is one step lemma for each state (`sends_step_tstart`, `sends_step_tdata`,
`sends_step_tcrc1`, `sends_step_tcrc2`, `sends_step_resting`). A cycle in which the PHY is not
ready leaves the list as it is, so the pace of the PHY does not matter.

`Sendable` says what an application may ask for: a data packet with any payload, or a handshake
without one. A token is never sent by a device, and the entity has no way out of its start state
for one.
-/

set_option autoImplicit false

namespace VivadoTest.InputTest

open VivadoTest.Framework
open VivadoTest.Lib.Crc
open VivadoTest.Spec

/-- The rest of a data packet: what is left of the payload, and the CRC. -/
def dataRest (c : BitVec 16) (queue : List Byte) : List Byte :=
  queue ++ [crc16First (queue.foldl crc16Upd c), crc16Second (queue.foldl crc16Upd c)]

/-- The packet that is sent for an identifier and a payload. -/
def packetBytes (pid : BitVec 4) (payload : List Byte) : List Byte :=
  if packetKind pid = .data then pidByte pid :: dataRest 0xFFFF payload else [pidByte pid]

/-- What is to be sent is a good packet. -/
theorem goodPacket_packetBytes (pid : BitVec 4) (payload : List Byte)
    (hkind : packetKind pid ≠ .token) : GoodPacket (packetBytes pid payload) := by
  cases hk : packetKind pid with
  | token => exact absurd hk hkind
  | handshake =>
    simp only [packetBytes, hk]
    exact .handshake pid hk
  | data =>
    have hones : (0xFFFF : BitVec 16) = BitVec.allOnes 16 := by decide
    simp only [packetBytes, hk, if_true]
    refine .data pid hk payload _ ?_
    rw [wireBits_crc16, foldl_crc16Upd, hones]
    rfl

namespace UsbPacket

variable (s : UsbPacket) (input : UsbPacketIn)

/-- What the state machine decides for the transmitter: the next state, whether it is the first
cycle of `ST_TDATA`, the CRC, and the variables for the outputs. -/
def decision : PacketState × Bool × BitVec 16 × Bool × Byte :=
  ((s.step input).sState, (s.step input).sTxfirst, (s.step input).crc16Buf,
    (s.stateMachine input).2.vTxvalid, (s.stateMachine input).2.vDataout)

variable {s input}

/-- The ready signal of the PHY is registered, as its line is. -/
@[simp] theorem step_sTxready : (s.step input).sTxready = input.phyTxready := by
  have hreg : (s.stateMachine input).1.sTxready = input.phyTxready := by
    simp only [stateMachine]
    repeat' split
    all_goals rfl
  have hcrc : ∀ v next, (s.crcUpdate v next).sTxready = next.sTxready := by
    intro v next
    simp only [crcUpdate]
    split <;> rfl
  have hout : ∀ v next, (s.driveOutputs input v next).sTxready = next.sTxready := by
    intro v next
    simp only [driveOutputs]
    repeat' split
    all_goals rfl
  simp only [step, hout, hcrc, hreg]

/-- The data register holds what was driven in the edge. -/
@[simp] theorem step_sDataout :
    (s.step input).sDataout = (s.stateMachine input).2.vDataout := by
  simp only [step, driveOutputs]
  repeat' split
  all_goals rfl

/-- Where the machine is not about to start, the PHY is given the next byte when it is ready. -/
theorem step_phy (hr : input.reset = false) (hc : s.sState ≠ .chirpk)
    (hs : s.sState ≠ .none ∨ input.pTxact = false) :
    (s.step input).phyTxvalid =
        (if input.phyTxready then (s.stateMachine input).2.vTxvalid else s.phyTxvalid) ∧
      (s.step input).phyDataout =
        (if input.phyTxready then (s.stateMachine input).2.vDataout else s.phyDataout) := by
  have hkeep : (s.stateMachine input).1.phyTxvalid = s.phyTxvalid ∧
      (s.stateMachine input).1.phyDataout = s.phyDataout := by
    simp only [stateMachine]
    repeat' split
    all_goals exact ⟨rfl, rfl⟩
  have hcrc : ∀ v next, (s.crcUpdate v next).phyTxvalid = next.phyTxvalid ∧
      (s.crcUpdate v next).phyDataout = next.phyDataout := by
    intro v next
    simp only [crcUpdate]
    split <;> exact ⟨rfl, rfl⟩
  have hstart : (decide (s.sState = .none) && input.pTxact) = false := by
    rcases hs with h | h <;> simp [h]
  simp only [step, driveOutputs, hr, hc, hstart, Bool.or_false, Bool.false_eq_true, if_false]
  cases input.phyTxready <;> simp [hkeep, hcrc]

variable (input)

/-- What the transmitter decides in an edge, read off the state machine and the CRC. -/
theorem decision_eq :
    s.decision input =
      (let next := s.crcUpdate (s.stateMachine input).2 (s.stateMachine input).1
       (next.sState, next.sTxfirst, next.crc16Buf, (s.stateMachine input).2.vTxvalid,
         (s.stateMachine input).2.vDataout)) := by
  have hout : ∀ v next, (s.driveOutputs input v next).sState = next.sState ∧
      (s.driveOutputs input v next).sTxfirst = next.sTxfirst ∧
      (s.driveOutputs input v next).crc16Buf = next.crc16Buf := by
    intro v next
    simp only [driveOutputs]
    repeat' split
    all_goals exact ⟨rfl, rfl, rfl⟩
  simp only [decision, step, hout]

/-- A packet starts: the identifier is driven, and the CRC is set to ones. -/
theorem decision_none (hs : s.sState = .none) (hr : input.reset = false)
    (hc : input.pChirpk = false) (hrx : s.sRxactive = false) (htx : input.pTxact = true) :
    s.decision input = (.tstart, false, 0xFFFF, true, input.pTxdat) := by
  rw [decision_eq]
  simp [stateMachine, crcUpdate, vars, registered, hs, hr, hc, hrx, htx]

/-- The first byte is given to the PHY at once. -/
theorem step_phy_none (hs : s.sState = .none) (hr : input.reset = false)
    (hc : input.pChirpk = false) (hrx : s.sRxactive = false) (htx : input.pTxact = true) :
    (s.step input).phyTxvalid = true ∧ (s.step input).phyDataout = input.pTxdat := by
  simp [step, stateMachine, driveOutputs, crcUpdate, vars, hs, hr, hc, hrx, htx]

/-- The identifier decides by its two low bits what follows it. A data packet goes on, a handshake
is over; with any other identifier the machine stays where it is. -/
theorem decision_tstart (hs : s.sState = .tstart) (hr : input.reset = false) :
    s.decision input =
      if input.pTxdat.extractLsb' 0 2 = 0b11 then (.tdata, true, s.crc16Buf, true, s.sDataout)
      else if input.pTxdat.extractLsb' 0 2 = 0b10 then
        (.rwait, false, s.crc16Buf, true, s.sDataout)
      else (.tstart, false, s.crc16Buf, true, s.sDataout) := by
  rw [decision_eq]
  simp only [stateMachine, hs, hr, Bool.false_eq_true, if_false]
  split
  · rfl
  · split
    · rfl
    · simp [crcUpdate, vars, registered, hs]

/-- A byte goes on when the PHY has taken the one before. When the application has no more, the
first byte of the CRC follows. -/
theorem decision_tdata (hs : s.sState = .tdata) (hr : input.reset = false) :
    s.decision input =
      if s.sTxready || s.sTxfirst then
        if !input.pTxact then (.tcrc1, false, s.crc16Buf, true, crc16First s.crc16Buf)
        else (.tdata, false, crc16Upd s.crc16Buf input.pTxdat, true, input.pTxdat)
      else (.tdata, false, s.crc16Buf, true, s.sDataout) := by
  rw [decision_eq]
  simp only [stateMachine, hs, hr, crcUpdate, vars, registered]
  cases s.sTxready <;> cases s.sTxfirst <;> cases input.pTxact <;> simp

/-- The second byte of the CRC follows the first. -/
theorem decision_tcrc1 (hs : s.sState = .tcrc1) (hr : input.reset = false) :
    s.decision input =
      if s.sTxready then (.tcrc2, false, s.crc16Buf, true, crc16Second s.crc16Buf)
      else (.tcrc1, false, s.crc16Buf, true, s.sDataout) := by
  rw [decision_eq]
  simp only [stateMachine, hs, hr, crcUpdate, vars, registered]
  cases s.sTxready <;> simp

/-- Behind it the packet is over. -/
theorem decision_tcrc2 (hs : s.sState = .tcrc2) (hr : input.reset = false) :
    s.decision input =
      if s.sTxready then (.rwait, false, s.crc16Buf, false, s.sDataout)
      else (.tcrc2, false, s.crc16Buf, true, s.sDataout) := by
  rw [decision_eq]
  simp only [stateMachine, hs, hr, crcUpdate, vars, registered]
  cases s.sTxready <;> simp

/-- The states in which nothing is sent. -/
def Resting (s : UsbPacket) : Prop :=
  s.sState = .none ∨ s.sState = .rwait ∨ s.sState = .rtoken ∨ s.sState = .rdata ∨
    s.sState = .rshake

/-- A machine that is not sending drives nothing. -/
theorem resting_step (hs : s.Resting) (hr : input.reset = false) (hc : input.pChirpk = false)
    (htx : input.pTxact = false) :
    (s.step input).Resting ∧ (s.stateMachine input).2.vTxvalid = false := by
  have hstate : (s.step input).sState = (s.stateMachine input).1.sState := by
    have hout : ∀ v next, (s.driveOutputs input v next).sState = next.sState := by
      intro v next
      simp only [driveOutputs]
      repeat' split
      all_goals rfl
    have hcrc : ∀ v next, (s.crcUpdate v next).sState = next.sState := by
      intro v next
      simp only [crcUpdate]
      split <;> rfl
    simp only [step, hout, hcrc]
  rw [Resting, hstate]
  rcases hs with hs | hs | hs | hs | hs
  · simp only [stateMachine, hs, hr, hc, htx, vars, registered, pidState, Bool.false_eq_true,
      if_false]
    repeat' split
    all_goals simp
  all_goals
    simp only [stateMachine, hs, hr, vars, registered, Bool.false_eq_true, if_false]
    repeat' split
    all_goals simp

end UsbPacket

namespace Sender

/-- What is left for the PHY. The byte on `PHY_DATAOUT` is the first of it. The machine runs one
byte ahead: unless the PHY has just been ready, the next byte is in `s_dataout` already. -/
def Sends (s : Sender) (rest : List Byte) : Prop :=
  match s.packet.sState with
  | .tstart => s.packet.phyTxvalid = true ∧ ∃ pid payload,
      s.queue = pidByte pid :: payload ∧
      (packetKind pid = .data ∨ packetKind pid = .handshake ∧ payload = []) ∧
      s.packet.phyDataout = pidByte pid ∧ s.packet.sDataout = pidByte pid ∧
      s.packet.crc16Buf = 0xFFFF ∧ rest = packetBytes pid payload
  | .tdata => s.packet.phyTxvalid = true ∧
      rest = s.packet.phyDataout ::
        ((if s.packet.sTxready || s.packet.sTxfirst then [] else [s.packet.sDataout]) ++
          dataRest s.packet.crc16Buf s.queue)
  | .tcrc1 => s.packet.phyTxvalid = true ∧ s.queue = [] ∧
      rest = s.packet.phyDataout ::
        ((if s.packet.sTxready then [] else [s.packet.sDataout]) ++
          [crc16Second s.packet.crc16Buf])
  | .tcrc2 => s.packet.phyTxvalid = true ∧ s.queue = [] ∧
      rest = s.packet.phyDataout :: (if s.packet.sTxready then [] else [s.packet.sDataout])
  | .chirpk => False
  | _ => s.queue = [] ∧ rest = if s.packet.phyTxvalid then [s.packet.phyDataout] else []

/-- Something is left as long as `PHY_TXVALID` is high. -/
theorem Sends.txvalid {s : Sender} {rest : List Byte} (h : s.Sends rest) :
    s.packet.phyTxvalid = !rest.isEmpty := by
  unfold Sends at h
  split at h
  case h_1 =>
    obtain ⟨hv, pid, payload, -, -, -, -, -, hrest⟩ := h
    simp only [hv, hrest, packetBytes]
    split <;> rfl
  case h_2 => simp [h.1, h.2]
  case h_3 => simp [h.1, h.2]
  case h_4 => simp [h.1, h.2]
  case h_5 => exact h.elim
  case h_6 =>
    rw [h.2]
    cases s.packet.phyTxvalid <;> simp

variable {s : Sender}

/-- The outputs to the PHY after an edge while a packet is sent. -/
theorem step_phy (phy : PhyIn) (hs : s.packet.sState ≠ .none ∨ s.queue = [])
    (hc : s.packet.sState ≠ .chirpk) :
    (s.step phy).packet.phyTxvalid =
        (if phy.txready then (s.packet.stateMachine (s.input phy)).2.vTxvalid
          else s.packet.phyTxvalid) ∧
      (s.step phy).packet.phyDataout =
        (if phy.txready then (s.packet.stateMachine (s.input phy)).2.vDataout
          else s.packet.phyDataout) :=
  UsbPacket.step_phy rfl hc (hs.imp_right fun h => by simp [input, h])

variable (phy : PhyIn)

/-- The two low bits of the identifier of a data packet. -/
theorem extractLsb'_pidByte_of_data {pid : BitVec 4} (hkind : packetKind pid = .data) :
    (pidByte pid).extractLsb' 0 2 = 0b11 := by
  revert pid
  decide

/-- The two low bits of the identifier of a handshake. -/
theorem extractLsb'_pidByte_of_handshake {pid : BitVec 4} (hkind : packetKind pid = .handshake) :
    (pidByte pid).extractLsb' 0 2 = 0b10 := by
  revert pid
  decide

/-- The PHY sees the first byte for the first time. -/
theorem sends_step_tstart {rest : List Byte} (h : s.Sends rest)
    (hs : s.packet.sState = .tstart) :
    (s.step phy).Sends rest ∧ (s.step phy).packet.sState ≠ .tstart ∧ s.taken phy = none := by
  simp only [Sends, hs] at h
  obtain ⟨hv, pid, payload, hq, hkind, hout, hpend, hcrc, hrest⟩ := h
  obtain ⟨hvalid, hdata⟩ := step_phy (s := s) phy (by simp [hs]) (by simp [hs])
  have hdec := UsbPacket.decision_tstart (s.input phy) hs rfl
  have hqueue : (s.step phy).queue = payload := by simp [step, UsbPacket.pTxrdy, hs, hq]
  have hdat : (s.input phy).pTxdat = pidByte pid := by simp [input, hq]
  rcases hkind with hkind | ⟨hkind, hpayload⟩
  · simp only [UsbPacket.decision, hdat, extractLsb'_pidByte_of_data hkind, if_true,
      Prod.mk.injEq] at hdec
    obtain ⟨hst, hfirst, hcrc', hvv, hvd⟩ := hdec
    have hst' : (s.step phy).packet.sState = .tdata := hst
    refine ⟨?_, by simp [hst'], by simp [taken, hs]⟩
    simp only [Sends, hst']
    refine ⟨by simp [hvalid, hvv, hv], ?_⟩
    rw [hdata, hvd, hqueue, hrest]
    simp only [step, hfirst, hcrc', hcrc, packetBytes, hkind, hout, hpend]
    simp
  · rw [hdat, extractLsb'_pidByte_of_handshake hkind, if_neg (by decide), if_pos rfl] at hdec
    simp only [UsbPacket.decision, Prod.mk.injEq] at hdec
    obtain ⟨hst, hfirst, hcrc', hvv, hvd⟩ := hdec
    have hst' : (s.step phy).packet.sState = .rwait := hst
    refine ⟨?_, by simp [hst'], by simp [taken, hs]⟩
    simp only [Sends, hst']
    refine ⟨by rw [hqueue, hpayload], ?_⟩
    rw [hvalid, hdata, hvv, hvd, hrest, hv, hout, hpend]
    simp [packetBytes, hkind]

/-- A byte of the payload, or the end of it. -/
theorem sends_step_tdata {rest : List Byte} (h : s.Sends rest) (hs : s.packet.sState = .tdata) :
    (s.step phy).Sends (if phy.txready then rest.tail else rest) ∧
      (s.step phy).packet.sState ≠ .tstart := by
  simp only [Sends, hs] at h
  obtain ⟨hv, hrest⟩ := h
  obtain ⟨hvalid, hdata⟩ := step_phy (s := s) phy (by simp [hs]) (by simp [hs])
  have hready : (s.step phy).packet.sTxready = phy.txready := UsbPacket.step_sTxready
  have hpend : (s.step phy).packet.sDataout = (s.packet.stateMachine (s.input phy)).2.vDataout :=
    UsbPacket.step_sDataout
  have hdec := UsbPacket.decision_tdata (s.input phy) hs rfl
  cases hneed : s.packet.sTxready || s.packet.sTxfirst with
  | false =>
    -- The next byte is in the registers already.
    have hqueue : (s.step phy).queue = s.queue := by
      simp only [Bool.or_eq_false_iff] at hneed
      simp [step, UsbPacket.pTxrdy, hs, hneed]
    simp only [UsbPacket.decision, hneed, Bool.false_eq_true, if_false, Prod.mk.injEq] at hdec
    obtain ⟨hst, hfirst, hcrc, hvv, hvd⟩ := hdec
    change (s.step phy).packet.sState = .tdata at hst
    change (s.step phy).packet.sTxfirst = false at hfirst
    change (s.step phy).packet.crc16Buf = s.packet.crc16Buf at hcrc
    refine ⟨?_, by simp [hst]⟩
    simp only [Sends, hst, hvalid, hdata, hready, hpend, hfirst, hcrc, hqueue, hvv, hvd, hv, hrest,
      hneed]
    cases phy.txready <;> simp
  | true =>
    cases hq : s.queue with
    | nil =>
      -- "No more data; send first CRC byte".
      have htx : (s.input phy).pTxact = false := by simp [input, hq]
      have hqueue : (s.step phy).queue = [] := by simp [step, hq]
      simp only [UsbPacket.decision, hneed, htx, Bool.not_false, if_true, Prod.mk.injEq] at hdec
      obtain ⟨hst, -, hcrc, hvv, hvd⟩ := hdec
      change (s.step phy).packet.sState = .tcrc1 at hst
      change (s.step phy).packet.crc16Buf = s.packet.crc16Buf at hcrc
      refine ⟨?_, by simp [hst]⟩
      simp only [Sends, hst, hvalid, hdata, hready, hpend, hcrc, hqueue, hvv, hvd, hv, hrest,
        hneed, hq, dataRest]
      cases phy.txready <;> simp
    | cons b queue =>
      have htx : (s.input phy).pTxact = true := by simp [input, hq]
      have hdat : (s.input phy).pTxdat = b := by simp [input, hq]
      have hrdy : s.packet.pTxrdy = true := by
        simpa [UsbPacket.pTxrdy, hs, Or.comm] using hneed
      have hqueue : (s.step phy).queue = queue := by simp [step, hrdy, hq]
      simp only [UsbPacket.decision, hneed, htx, hdat, Bool.not_true, Bool.false_eq_true, if_false,
        if_true, Prod.mk.injEq] at hdec
      obtain ⟨hst, hfirst, hcrc, hvv, hvd⟩ := hdec
      change (s.step phy).packet.sState = .tdata at hst
      change (s.step phy).packet.sTxfirst = false at hfirst
      change (s.step phy).packet.crc16Buf = crc16Upd s.packet.crc16Buf b at hcrc
      refine ⟨?_, by simp [hst]⟩
      simp only [Sends, hst, hvalid, hdata, hready, hpend, hfirst, hcrc, hqueue, hvv, hvd, hv,
        hrest, hneed, hq, dataRest]
      cases phy.txready <;> simp

/-- One edge behind the payload: the first byte of the CRC is under way. -/
theorem sends_step_tcrc1 {rest : List Byte} (h : s.Sends rest) (hs : s.packet.sState = .tcrc1) :
    (s.step phy).Sends (if phy.txready then rest.tail else rest) ∧
      (s.step phy).packet.sState ≠ .tstart := by
  simp only [Sends, hs] at h
  obtain ⟨hv, hq, hrest⟩ := h
  obtain ⟨hvalid, hdata⟩ := step_phy (s := s) phy (by simp [hs]) (by simp [hs])
  have hready : (s.step phy).packet.sTxready = phy.txready := UsbPacket.step_sTxready
  have hpend : (s.step phy).packet.sDataout = (s.packet.stateMachine (s.input phy)).2.vDataout :=
    UsbPacket.step_sDataout
  have hqueue : (s.step phy).queue = [] := by simp [step, hq]
  have hdec := UsbPacket.decision_tcrc1 (s.input phy) hs rfl
  cases htaken : s.packet.sTxready with
  | false =>
    simp only [UsbPacket.decision, htaken, Bool.false_eq_true, if_false, Prod.mk.injEq] at hdec
    obtain ⟨hst, -, hcrc, hvv, hvd⟩ := hdec
    change (s.step phy).packet.sState = .tcrc1 at hst
    change (s.step phy).packet.crc16Buf = s.packet.crc16Buf at hcrc
    refine ⟨?_, by simp [hst]⟩
    simp only [Sends, hst, hvalid, hdata, hready, hpend, hcrc, hqueue, hvv, hvd, hv, hrest, htaken]
    cases phy.txready <;> simp
  | true =>
    simp only [UsbPacket.decision, htaken, if_true, Prod.mk.injEq] at hdec
    obtain ⟨hst, -, -, hvv, hvd⟩ := hdec
    change (s.step phy).packet.sState = .tcrc2 at hst
    refine ⟨?_, by simp [hst]⟩
    simp only [Sends, hst, hvalid, hdata, hready, hpend, hqueue, hvv, hvd, hv, hrest, htaken]
    cases phy.txready <;> simp

/-- One edge behind it: the second one is. -/
theorem sends_step_tcrc2 {rest : List Byte} (h : s.Sends rest) (hs : s.packet.sState = .tcrc2) :
    (s.step phy).Sends (if phy.txready then rest.tail else rest) ∧
      (s.step phy).packet.sState ≠ .tstart := by
  simp only [Sends, hs] at h
  obtain ⟨hv, hq, hrest⟩ := h
  obtain ⟨hvalid, hdata⟩ := step_phy (s := s) phy (by simp [hs]) (by simp [hs])
  have hready : (s.step phy).packet.sTxready = phy.txready := UsbPacket.step_sTxready
  have hpend : (s.step phy).packet.sDataout = (s.packet.stateMachine (s.input phy)).2.vDataout :=
    UsbPacket.step_sDataout
  have hqueue : (s.step phy).queue = [] := by simp [step, hq]
  have hdec := UsbPacket.decision_tcrc2 (s.input phy) hs rfl
  cases htaken : s.packet.sTxready with
  | false =>
    simp only [UsbPacket.decision, htaken, Bool.false_eq_true, if_false, Prod.mk.injEq] at hdec
    obtain ⟨hst, -, -, hvv, hvd⟩ := hdec
    change (s.step phy).packet.sState = .tcrc2 at hst
    refine ⟨?_, by simp [hst]⟩
    simp only [Sends, hst, hvalid, hdata, hready, hpend, hqueue, hvv, hvd, hv, hrest, htaken]
    cases phy.txready <;> simp
  | true =>
    simp only [UsbPacket.decision, htaken, if_true, Prod.mk.injEq] at hdec
    obtain ⟨hst, -, -, hvv, hvd⟩ := hdec
    change (s.step phy).packet.sState = .rwait at hst
    refine ⟨?_, by simp [hst]⟩
    simp only [Sends, hst, hvalid, hdata, hqueue, hvv, hvd, hv, hrest, htaken]
    cases phy.txready <;> simp

/-- In a state in which no packet is sent, only the byte that is still driven is left to be taken.
-/
theorem sends_resting {rest : List Byte} (hs : s.packet.Resting) :
    s.Sends rest ↔
      s.queue = [] ∧ rest = if s.packet.phyTxvalid then [s.packet.phyDataout] else [] := by
  unfold Sends
  rcases hs with hs | hs | hs | hs | hs <;> rw [hs]

/-- The last byte waits on the lines until the PHY is ready for it. -/
theorem sends_step_resting {rest : List Byte} (h : s.Sends rest) (hs : s.packet.Resting) :
    (s.step phy).Sends (if phy.txready then rest.tail else rest) ∧
      (s.step phy).packet.sState ≠ .tstart := by
  obtain ⟨hq, hrest⟩ := (sends_resting hs).mp h
  have hqueue : (s.step phy).queue = [] := by simp [step, hq]
  have hchirp : s.packet.sState ≠ .chirpk := by
    intro hc
    rcases hs with hs | hs | hs | hs | hs <;> simp [hs] at hc
  obtain ⟨hvalid, hdata⟩ := step_phy (s := s) phy (Or.inr hq) hchirp
  obtain ⟨hrest', hvv⟩ := UsbPacket.resting_step (s.input phy) hs rfl rfl
    (by simp [input, hq])
  refine ⟨(sends_resting hrest').mpr ⟨hqueue, ?_⟩, ?_⟩
  · rw [hvalid, hdata, hvv, hrest]
    cases phy.txready <;> cases s.packet.phyTxvalid <;> simp
  · intro hc
    rcases hrest' with hst | hst | hst | hst | hst <;>
      exact absurd (hst.symm.trans hc) (by simp)

/-- The PHY takes the next byte when it is ready, in every state but the first. -/
theorem sends_step {rest : List Byte} (h : s.Sends rest) (hs : s.packet.sState ≠ .tstart) :
    (s.step phy).Sends (if phy.txready then rest.tail else rest) ∧
      (s.step phy).packet.sState ≠ .tstart := by
  cases hst : s.packet.sState with
  | tstart => exact absurd hst hs
  | chirpk => simp [Sends, hst] at h
  | tdata => exact sends_step_tdata phy h hst
  | tcrc1 => exact sends_step_tcrc1 phy h hst
  | tcrc2 => exact sends_step_tcrc2 phy h hst
  | none => exact sends_step_resting phy h (by simp [UsbPacket.Resting, hst])
  | rwait => exact sends_step_resting phy h (by simp [UsbPacket.Resting, hst])
  | rtoken => exact sends_step_resting phy h (by simp [UsbPacket.Resting, hst])
  | rdata => exact sends_step_resting phy h (by simp [UsbPacket.Resting, hst])
  | rshake => exact sends_step_resting phy h (by simp [UsbPacket.Resting, hst])

/-- The byte that waits on the lines is the first of the rest. -/
theorem Sends.head {rest : List Byte} (h : s.Sends rest) (hne : rest ≠ []) :
    rest.head? = some s.packet.phyDataout := by
  unfold Sends at h
  split at h
  case h_1 =>
    obtain ⟨-, pid, payload, -, -, hout, -, -, hrest⟩ := h
    rw [hrest, hout, packetBytes]
    split <;> rfl
  case h_2 => simp [h.2]
  case h_3 => simp [h.2]
  case h_4 => simp [h.2]
  case h_5 => exact h.elim
  case h_6 =>
    cases hv : s.packet.phyTxvalid
    · simp [hv] at h
      exact absurd h.2 hne
    · simp [h.2, hv]

/-- What the PHY takes in a cycle is the first of the bytes that are left, if it is ready. -/
theorem Sends.taken {rest : List Byte} (h : s.Sends rest) (hs : s.packet.sState ≠ .tstart) :
    (s.taken phy).toList = if phy.txready then rest.take 1 else [] := by
  have hv := h.txvalid
  cases rest with
  | nil => simp [Sender.taken, hv]
  | cons b rest =>
    have hout : b = s.packet.phyDataout := by simpa using h.head (by simp)
    cases hrdy : phy.txready <;> simp [Sender.taken, hv, hs, hrdy, hout]

/-- From the second cycle of `PHY_TXVALID` on every ready cycle takes one byte. -/
theorem sent_of_sends {rest : List Byte} (h : s.Sends rest) (hs : s.packet.sState ≠ .tstart)
    (phys : List PhyIn) :
    sent s phys = rest.take (phys.countP PhyIn.txready) ∧
      (phys.foldl step s).Sends (rest.drop (phys.countP PhyIn.txready)) := by
  induction phys generalizing s rest with
  | nil => simpa [sent] using h
  | cons phy phys ih =>
    obtain ⟨hstep, hs'⟩ := sends_step phy h hs
    obtain ⟨hsent, hfinal⟩ := ih hstep hs'
    rw [sent, h.taken phy hs, hsent, List.foldl_cons]
    cases hrdy : phy.txready with
    | false =>
      simp only [hrdy, Bool.false_eq_true, if_false] at hfinal ⊢
      simpa [hrdy] using hfinal
    | true =>
      simp only [hrdy, if_true] at hfinal ⊢
      rw [List.countP_cons_of_pos hrdy]
      cases rest with
      | nil => simpa using hfinal
      | cons b rest => simpa using hfinal

/-- The entity has nothing to do, and the line is silent. -/
structure Idle (s : Sender) : Prop where
  state : s.packet.sState = .none
  line : s.packet.sRxactive = false
  txvalid : s.packet.phyTxvalid = false

/-- What an application may send: data with any payload, or a handshake alone. -/
def Sendable (pid : BitVec 4) (payload : List Byte) : Prop :=
  packetKind pid = .data ∨ packetKind pid = .handshake ∧ payload = []

/-- The first edge of a packet: the identifier is driven, and everything is left to be sent. -/
theorem sends_of_idle (hs : s.Idle) {pid : BitVec 4} {payload : List Byte}
    (hq : s.queue = pidByte pid :: payload) (hkind : Sendable pid payload) :
    (s.step phy).Sends (packetBytes pid payload) ∧ (s.step phy).packet.sState = .tstart ∧
      s.taken phy = none := by
  have htx : (s.input phy).pTxact = true := by simp [input, hq]
  have hdat : (s.input phy).pTxdat = pidByte pid := by simp [input, hq]
  have hdec := UsbPacket.decision_none (s.input phy) hs.state rfl rfl hs.line htx
  simp only [UsbPacket.decision, hdat, Prod.mk.injEq] at hdec
  obtain ⟨hst, -, hcrc, -, hvd⟩ := hdec
  change (s.step phy).packet.sState = .tstart at hst
  change (s.step phy).packet.crc16Buf = 0xFFFF at hcrc
  have hqueue : (s.step phy).queue = pidByte pid :: payload := by
    simp [step, UsbPacket.pTxrdy, hs.state, hq]
  have hpend : (s.step phy).packet.sDataout = pidByte pid := UsbPacket.step_sDataout.trans hvd
  have hphy := UsbPacket.step_phy_none (s.input phy) hs.state rfl rfl hs.line htx
  refine ⟨?_, hst, by simp [taken, hs.txvalid]⟩
  simp only [Sends, hst]
  exact ⟨hphy.1, pid, payload, hqueue, hkind, hphy.2.trans hdat, hpend, hcrc, rfl⟩

/-- The bytes that the PHY has taken, after any number of cycles, are the first ones of the
packet: as many of them as there were cycles in which it was ready. -/
theorem sent_of_idle (hs : s.Idle) {pid : BitVec 4} {payload : List Byte}
    (hq : s.queue = pidByte pid :: payload) (hkind : Sendable pid payload) (phy₀ phy₁ : PhyIn)
    (phys : List PhyIn) :
    sent s (phy₀ :: phy₁ :: phys) =
        (packetBytes pid payload).take (phys.countP PhyIn.txready) ∧
      ((phy₀ :: phy₁ :: phys).foldl step s).Sends
        ((packetBytes pid payload).drop (phys.countP PhyIn.txready)) := by
  obtain ⟨hsends, hst, htaken⟩ := sends_of_idle phy₀ hs hq hkind
  obtain ⟨hsends', hst', htaken'⟩ := sends_step_tstart phy₁ hsends hst
  obtain ⟨hsent, hfinal⟩ := sent_of_sends hsends' hst' phys
  exact ⟨by simp [sent, htaken, htaken', hsent], hfinal⟩

/-- The PHY takes the packet byte by byte, one in every cycle in which it is ready, and after the
last one `PHY_TXVALID` falls. -/
theorem sent_eq_take (hs : s.Idle) {pid : BitVec 4} {payload : List Byte}
    (hq : s.queue = pidByte pid :: payload) (hkind : Sendable pid payload) (phy₀ phy₁ : PhyIn)
    (phys : List PhyIn) :
    sent s (phy₀ :: phy₁ :: phys) =
        (packetBytes pid payload).take (phys.countP PhyIn.txready) ∧
      ((phy₀ :: phy₁ :: phys).foldl step s).packet.phyTxvalid =
        decide (phys.countP PhyIn.txready < (packetBytes pid payload).length) := by
  obtain ⟨hsent, hfinal⟩ := sent_of_idle hs hq hkind phy₀ phy₁ phys
  refine ⟨hsent, ?_⟩
  rw [hfinal.txvalid]
  by_cases h : phys.countP PhyIn.txready < (packetBytes pid payload).length
  · simp [h]
  · simp [h, Nat.le_of_not_lt h]

/-- Three ready cycles take the first three of the four bytes. -/
theorem sent_eq_take_three :
    let s : Sender := ⟨.initial, [pidByte 0x3, 0x11]⟩
    let ready : PhyIn := ⟨true, ⟨false, false, false, 0⟩⟩
    sent s [ready, ready, ready, ready, ready] = (packetBytes 0x3 [0x11]).take 3 ∧
      ([ready, ready, ready, ready, ready].foldl step s).packet.phyTxvalid = true :=
  sent_eq_take ⟨rfl, rfl, rfl⟩ rfl (Or.inl (by decide)) _ _ [_, _, _]

end Sender

/-! ### There and back -/

/-- A cycle of a receiver that is left alone by its application. -/
structure UsbPacketIn.Quiet (i : UsbPacketIn) : Prop where
  reset : i.reset = false
  chirp : i.pChirpk = false
  txact : i.pTxact = false
  error : i.phyRxerror = false

/-- The bytes that the PHY announces as valid. -/
def validBytes (ins : List UsbPacketIn) : List Byte :=
  ins.filterMap fun i => if i.phyRxvalid then some i.phyDatain else none

/-- One interval without errors: its bytes are the ones that are announced as valid. -/
theorem heard_of_active (ins : List UsbPacketIn) (hquiet : ∀ i ∈ ins, i.Quiet)
    (hact : ∀ i ∈ ins, i.phyRxactive = true) (hne : ins ≠ []) :
    heard ins = ⟨true, validBytes ins, false⟩ := by
  induction ins using List.reverseRecOn with
  | nil => exact absurd rfl hne
  | append_singleton ins i ih =>
    have hi : i.phyRxactive = true := hact i (by simp)
    have herr : i.phyRxerror = false := (hquiet i (by simp)).error
    have hbefore : (ins = [] ∧ heard ins = Heard.start) ∨
        heard ins = ⟨true, validBytes ins, false⟩ := by
      by_cases hins : ins = []
      · exact Or.inl ⟨hins, by rw [hins]; rfl⟩
      · exact Or.inr (ih (fun j hj => hquiet j (List.mem_append_left _ hj))
          (fun j hj => hact j (List.mem_append_left _ hj)) hins)
    have hnext : heard (ins ++ [i]) = (heard ins).next i.rxLine := by simp [heard]
    rw [hnext]
    rcases hbefore with ⟨hins, hheard⟩ | hheard
    · rw [hheard, hins]
      cases hv : i.phyRxvalid <;>
        simp [Heard.next, Heard.start, UsbPacketIn.rxLine, hi, herr, hv, validBytes]
    · rw [hheard]
      cases hv : i.phyRxvalid <;>
        simp [Heard.next, UsbPacketIn.rxLine, hi, herr, hv, validBytes]

/-- The application is told the bytes of the line in their order, each of them once. -/
theorem announced_eq (s : UsbPacket) (ins : List UsbPacketIn) :
    s.announced ins =
      ins.filterMap fun i => if i.phyRxactive && i.phyRxvalid then some i.phyDatain else none := by
  induction ins generalizing s with
  | nil => rfl
  | cons i ins ih =>
    have hline := UsbPacket.step_rxLine s i
    have hact : (s.step i).sRxactive = i.phyRxactive := congrArg RxLine.active hline
    have hvalid : (s.step i).sRxvalid = i.phyRxvalid := congrArg RxLine.valid hline
    have hdata : (s.step i).sDatain = i.phyDatain := congrArg RxLine.data hline
    rw [UsbPacket.announced, ih]
    simp only [UsbPacket.pRxrdy, UsbPacket.pRxdat, hact, hvalid, hdata, List.filterMap_cons]
    cases i.phyRxactive <;> cases i.phyRxvalid <;> simp

/-- What one entity has sent, whatever the pace of its PHY, another one that hears it, whatever
the pace of its own, hands on to its application and confirms. -/
theorem sent_confirmed {s : Sender} (hs : s.Idle) {pid : BitVec 4} {payload : List Byte}
    (hq : s.queue = pidByte pid :: payload) (hkind : Sender.Sendable pid payload)
    (phy₀ phy₁ : PhyIn) (phys : List PhyIn)
    (hdone : ((phy₀ :: phy₁ :: phys).foldl Sender.step s).packet.phyTxvalid = false)
    {r : UsbPacket} (hr : r.Started) (ins : List UsbPacketIn) (last : UsbPacketIn)
    (hquiet : ∀ i ∈ ins ++ [last], i.Quiet) (hact : ∀ i ∈ ins, i.phyRxactive = true)
    (hover : last.phyRxactive = false)
    (hbytes : validBytes ins = Sender.sent s (phy₀ :: phy₁ :: phys)) :
    r.announced (ins ++ [last]) = packetBytes pid payload ∧
      ((ins ++ [last]).foldl UsbPacket.step r).pRxfin = true := by
  obtain ⟨hsent, hfinal⟩ := Sender.sent_of_idle hs hq hkind phy₀ phy₁ phys
  have hall : Sender.sent s (phy₀ :: phy₁ :: phys) = packetBytes pid payload := by
    have hrest := hfinal.txvalid.symm.trans hdone
    simp only [Bool.not_eq_false', List.isEmpty_iff, List.drop_eq_nil_iff] at hrest
    rw [hsent, List.take_of_length_le hrest]
  rw [hall] at hbytes
  have hquiet' : ∀ i ∈ ins, i.Quiet := fun i hi => hquiet i (List.mem_append_left _ hi)
  -- a packet has at least its identifier, so the line was active
  have hne : ins ≠ [] := by
    rintro rfl
    simp only [validBytes, List.filterMap_nil, packetBytes] at hbytes
    split at hbytes <;> simp at hbytes
  constructor
  · rw [announced_eq, List.filterMap_append, ← hbytes, validBytes]
    simp only [List.filterMap_cons, hover, Bool.false_and, Bool.false_eq_true, if_false,
      List.filterMap_nil, List.append_nil]
    exact List.filterMap_congr fun i hi => by simp [hact i hi]
  · have hheard := heard_of_active ins hquiet' hact hne
    refine UsbPacket.pRxfin_of_ends hr ?_ (fun i hi => (hquiet i hi).txact) ?_
    · exact fun i hi => ⟨(hquiet i hi).reset, (hquiet i hi).chirp⟩
    · refine ⟨by rw [hheard], hover, by rw [hheard], (hquiet last (by simp)).error, ?_⟩
      rw [hheard, hbytes]
      refine goodPacket_packetBytes pid payload ?_
      rcases hkind with h | ⟨h, -⟩ <;> simp [h]

/-- A data packet with two bytes of payload. The PHY of the sender is not ready in every third
cycle, and the one of the receiver pauses inside the packet. -/
theorem sent_confirmed_dataPacket :
    UsbPacket.initial.announced (UsbPacket.dataPacketIns ++ [UsbPacketIn.hearing none])
        = packetBytes 0x3 [0x12, 0x34] ∧
      ((UsbPacket.dataPacketIns ++ [UsbPacketIn.hearing none]).foldl UsbPacket.step
        .initial).pRxfin = true := by
  let ready : PhyIn := ⟨true, ⟨false, false, false, 0⟩⟩
  let busy : PhyIn := ⟨false, ⟨false, false, false, 0⟩⟩
  let s : Sender := ⟨.initial, [pidByte 0x3, 0x12, 0x34]⟩
  have hs : s.Idle := ⟨rfl, rfl, rfl⟩
  have hquiet : ∀ i ∈ UsbPacket.dataPacketIns ++ [UsbPacketIn.hearing none], i.Quiet := by
    simp only [UsbPacket.dataPacketIns, List.cons_append, List.nil_append, List.forall_mem_cons]
    exact ⟨⟨rfl, rfl, rfl, rfl⟩, ⟨rfl, rfl, rfl, rfl⟩, ⟨rfl, rfl, rfl, rfl⟩, ⟨rfl, rfl, rfl, rfl⟩,
      ⟨rfl, rfl, rfl, rfl⟩, ⟨rfl, rfl, rfl, rfl⟩, ⟨rfl, rfl, rfl, rfl⟩, by simp⟩
  exact sent_confirmed hs rfl (Or.inl (by decide)) ready busy
    [ready, ready, busy, ready, ready, busy, ready, ready, busy] (by decide)
    UsbPacket.started_initial UsbPacket.dataPacketIns _ hquiet (by decide) rfl (by decide)

end VivadoTest.InputTest
