import VivadoTest.Proofs.UsbCrc
import VivadoTest.Spec.UsbLine
import VivadoTest.Lib.Clocked

/-!
# `VivadoTest.Proofs.UsbReceive`: the packets that are confirmed

`P_RXFIN` confirms a packet. In a run in which nothing is sent it is high in the cycle after the
end of every good packet and in no other (`pRxfin_iff`). When the application sends as
well, a packet may be missed, but what is confirmed has still been heard from its first byte to
its last and is good (`ends_of_pRxfin`).

Both rest on one invariant (`Receiving`). It relates the state machine to what has been heard up
to the line that is in the registers, which the state machine has not looked at yet.

## One case for each state

The process has a state for the first byte of a packet, three for its kinds, and one in which a
packet that is lost is waited for. `BodyRead` is what the three states of a packet have in common:
the identifier and the bytes heard so far have gone through the CRC. `Receiving.step` is the case
split over the states, with a lemma for each.

* `goodPacket_token_iff`, `goodPacket_data_iff`, `goodPacket_handshake_iff`: what a good packet is
  in terms of the registers that the state machine compares.
* `pRxfin_eq`: the confirmation is combinational in the registers.
* `ends_of_pRxfin`, `pRxfin_of_ends`: the two directions of `pRxfin_iff`.

A chirp or a reset in the middle of a packet makes the machine forget it; both are excluded.
-/

set_option autoImplicit false

namespace VivadoTest.InputTest

open VivadoTest.Framework
open VivadoTest.Lib
open VivadoTest.Spec

/-! ### The first byte -/

/-- A byte that is no identifier with its complement is not looked at any further. -/
theorem pidState_cases (b : Byte) :
    pidState b = (.rwait, false) ∧ (∀ pid, b ≠ pidByte pid) ∨
      ∃ pid, b = pidByte pid ∧
        (packetKind pid = .token ∧ pidState b = (.rtoken, false) ∨
          packetKind pid = .data ∧ pidState b = (.rdata, false) ∨
          packetKind pid = .handshake ∧ pidState b = (.rshake, true)) := by
  have hkind : ∀ pid : BitVec 4,
      packetKind pid = .token ∧ pidState (pidByte pid) = (.rtoken, false) ∨
        packetKind pid = .data ∧ pidState (pidByte pid) = (.rdata, false) ∨
        packetKind pid = .handshake ∧ pidState (pidByte pid) = (.rshake, true) := by decide
  by_cases hcheck : b.extractLsb' 0 4 = ~~~(b.extractLsb' 4 4)
  · obtain ⟨pid, hpid⟩ : ∃ pid, pid = b.extractLsb' 0 4 := ⟨_, rfl⟩
    have hb : b = pidByte pid := by
      apply BitVec.eq_of_getLsbD_eq
      intro i hi
      rw [pidByte, hpid, hcheck, BitVec.not_not, ← hcheck, BitVec.getLsbD_append]
      by_cases h4 : i < 4
      · simp [h4]
      · simp [h4, show i - 4 < 4 by omega, show 4 + (i - 4) = i by omega]
    exact Or.inr ⟨pid, hb, hb ▸ hkind pid⟩
  · refine Or.inl ⟨by simp [pidState, hcheck], fun pid hb => hcheck ?_⟩
    subst hb
    revert pid
    decide

/-- An identifier can be read off its byte. -/
theorem pidByte_injective : Function.Injective pidByte := by
  intro a b h
  revert a b
  decide

/-- A token is good exactly when the byte formula of the receiver ends in the residue, behind at
least one byte. This is what the state `ST_RTOKEN` compares. -/
theorem goodPacket_token_iff {pid : BitVec 4} (hkind : packetKind pid = .token)
    (body : List Byte) :
    GoodPacket (pidByte pid :: body) ↔ body ≠ [] ∧ body.foldl crc5Upd 0b11111 = crc5Res := by
  rw [token_residue_iff]
  constructor
  · intro h
    generalize hbytes : pidByte pid :: body = bytes at h
    cases h with
    | handshake pid' hkind' =>
      simp only [List.cons.injEq] at hbytes
      simp [pidByte_injective hbytes.1, hkind'] at hkind
    | token pid' hkind' body' field hbody =>
      simp only [List.cons.injEq] at hbytes
      exact ⟨field, hbytes.2 ▸ hbody⟩
    | data pid' hkind' payload crc hcrc =>
      simp only [List.cons.injEq] at hbytes
      simp [pidByte_injective hbytes.1, hkind'] at hkind
  · rintro ⟨field, hbody⟩
    exact .token pid hkind body field hbody

/-- The same for a data packet, with the longer CRC. -/
theorem goodPacket_data_iff {pid : BitVec 4} (hkind : packetKind pid = .data)
    (body : List Byte) :
    GoodPacket (pidByte pid :: body) ↔ body ≠ [] ∧ body.foldl crc16Upd 0xFFFF = crc16Res := by
  rw [data_residue_iff]
  constructor
  · intro h
    generalize hbytes : pidByte pid :: body = bytes at h
    cases h with
    | handshake pid' hkind' =>
      simp only [List.cons.injEq] at hbytes
      simp [pidByte_injective hbytes.1, hkind'] at hkind
    | token pid' hkind' body' field hbody =>
      simp only [List.cons.injEq] at hbytes
      simp [pidByte_injective hbytes.1, hkind'] at hkind
    | data pid' hkind' payload crc hcrc =>
      simp only [List.cons.injEq] at hbytes
      exact ⟨payload, crc, hbytes.2, hcrc⟩
  · rintro ⟨payload, crc, rfl, hcrc⟩
    exact .data pid hkind payload crc hcrc

/-- A handshake is its identifier and nothing else. -/
theorem goodPacket_handshake_iff {pid : BitVec 4} (hkind : packetKind pid = .handshake)
    (body : List Byte) : GoodPacket (pidByte pid :: body) ↔ body = [] := by
  constructor
  · intro h
    generalize hbytes : pidByte pid :: body = bytes at h
    cases h with
    | handshake pid' hkind' =>
      simp only [List.cons.injEq] at hbytes
      exact hbytes.2
    | token pid' hkind' body' field hbody =>
      simp only [List.cons.injEq] at hbytes
      simp [pidByte_injective hbytes.1, hkind'] at hkind
    | data pid' hkind' payload crc hcrc =>
      simp only [List.cons.injEq] at hbytes
      simp [pidByte_injective hbytes.1, hkind'] at hkind
  · rintro rfl
    exact .handshake pid hkind

/-- No packet is empty. -/
theorem not_goodPacket_nil : ¬ GoodPacket [] := by
  intro h
  generalize hbytes : ([] : List Byte) = bytes at h
  cases h <;> simp at hbytes

/-- No packet starts with a byte that is not an identifier and its complement. -/
theorem not_goodPacket_of_first {b : Byte} (hb : ∀ pid, b ≠ pidByte pid) (body : List Byte) :
    ¬ GoodPacket (b :: body) := by
  intro h
  generalize hbytes : b :: body = bytes at h
  cases h with
  | handshake pid _ => exact hb pid (List.cons.inj hbytes).1
  | token pid _ _ _ _ => exact hb pid (List.cons.inj hbytes).1
  | data pid _ _ _ _ => exact hb pid (List.cons.inj hbytes).1

/-! ### One edge -/

namespace UsbPacket

variable (s : UsbPacket) (input : UsbPacketIn)

/-- What the receiver keeps of an edge: the state, the verdict so far and the two CRCs. -/
def receiver : PacketState × Bool × BitVec 5 × BitVec 16 :=
  (s.sState, s.sRxgoodpacket, s.crc5Buf, s.crc16Buf)

/-- The line is registered before the machine looks at it: after an edge the registers hold the
line of that edge. -/
@[simp] theorem step_rxLine : (s.step input).rxLine = input.rxLine := by
  have hreg : (s.stateMachine input).1.rxLine = input.rxLine := by
    simp only [stateMachine]
    repeat' split
    all_goals rfl
  have hcrc : ∀ v next, (s.crcUpdate v next).rxLine = next.rxLine := by
    intro v next
    simp only [crcUpdate]
    split <;> rfl
  have hout : ∀ v next, (s.driveOutputs input v next).rxLine = next.rxLine := by
    intro v next
    simp only [driveOutputs]
    repeat' split
    all_goals rfl
  simp only [step, hout, hcrc, hreg]

/-- The outputs to the PHY do not concern the receiver. -/
@[simp] theorem receiver_driveOutputs (v : Vars) (next : UsbPacket) :
    (s.driveOutputs input v next).receiver = next.receiver := by
  simp only [driveOutputs]
  repeat' split
  all_goals rfl

/-- The receiver after an edge is that of the state machine and the CRC. -/
theorem receiver_step :
    (s.step input).receiver =
      (s.crcUpdate (s.stateMachine input).2 (s.stateMachine input).1).receiver := by
  simp only [step, receiver_driveOutputs]

variable {s input}

/-- One edge before a packet, in either direction. The CRCs are set to ones. -/
theorem receiver_step_none (hs : s.sState = .none) (hr : input.reset = false)
    (hc : input.pChirpk = false) :
    (s.step input).receiver =
      if s.sRxactive then
        if s.sRxerror then (.rwait, false, 0b11111, 0xFFFF)
        else if s.sRxvalid then
          ((pidState s.sDatain).1, (pidState s.sDatain).2, 0b11111, 0xFFFF)
        else (.none, false, 0b11111, 0xFFFF)
      else if input.pTxact then (.tstart, false, 0b11111, 0xFFFF)
      else (.none, false, 0b11111, 0xFFFF) := by
  rw [receiver_step]
  simp only [stateMachine, hs, hr, hc, crcUpdate, receiver, vars, registered]
  cases s.sRxactive <;> cases s.sRxerror <;> cases s.sRxvalid <;> cases input.pTxact <;> simp

/-- One edge inside a token: every byte goes through the CRC and is compared at once. -/
theorem receiver_step_rtoken (hs : s.sState = .rtoken) (hr : input.reset = false) :
    (s.step input).receiver =
      if !s.sRxactive then (.none, false, s.crc5Buf, s.crc16Buf)
      else if s.sRxerror then (.rwait, false, s.crc5Buf, s.crc16Buf)
      else if s.sRxvalid then
        (.rtoken, crc5Upd s.crc5Buf s.sDatain = crc5Res, crc5Upd s.crc5Buf s.sDatain, s.crc16Buf)
      else s.receiver := by
  rw [receiver_step]
  simp only [stateMachine, hs, hr, crcUpdate, receiver, vars, registered]
  cases s.sRxactive <;> cases s.sRxerror <;> cases s.sRxvalid <;> simp

/-- One edge inside a data packet. -/
theorem receiver_step_rdata (hs : s.sState = .rdata) (hr : input.reset = false) :
    (s.step input).receiver =
      if !s.sRxactive then (.none, false, s.crc5Buf, s.crc16Buf)
      else if s.sRxerror then (.rwait, false, s.crc5Buf, s.crc16Buf)
      else if s.sRxvalid then
        (.rdata, crc16Upd s.crc16Buf s.sDatain = crc16Res, s.crc5Buf,
          crc16Upd s.crc16Buf s.sDatain)
      else s.receiver := by
  rw [receiver_step]
  simp only [stateMachine, hs, hr, crcUpdate, receiver, vars, registered]
  cases s.sRxactive <;> cases s.sRxerror <;> cases s.sRxvalid <;> simp

/-- One edge behind the byte of a handshake: a second byte is one too many. -/
theorem receiver_step_rshake (hs : s.sState = .rshake) (hr : input.reset = false) :
    (s.step input).receiver =
      if !s.sRxactive then (.none, false, s.crc5Buf, s.crc16Buf)
      else if s.sRxerror then (.rwait, false, s.crc5Buf, s.crc16Buf)
      else if s.sRxvalid then (.rwait, false, s.crc5Buf, s.crc16Buf)
      else s.receiver := by
  rw [receiver_step]
  simp only [stateMachine, hs, hr, crcUpdate, receiver, vars, registered]
  cases s.sRxactive <;> cases s.sRxerror <;> cases s.sRxvalid <;> simp

/-- One edge while the rest of a packet is waited for. The verdict and the CRCs are not touched
any more. -/
theorem receiver_step_rwait (hs : s.sState = .rwait) (hr : input.reset = false) :
    (s.step input).receiver =
      if !s.sRxactive then (.none, s.sRxgoodpacket, s.crc5Buf, s.crc16Buf) else s.receiver := by
  rw [receiver_step]
  simp only [stateMachine, hs, hr, crcUpdate, receiver, vars, registered]
  cases s.sRxactive <;> simp

/-- While a packet is sent, nothing is confirmed. -/
theorem receiver_step_sending
    (hs : s.sState = .tstart ∨ s.sState = .tdata ∨ s.sState = .tcrc1 ∨ s.sState = .tcrc2)
    (hr : input.reset = false) (hgood : s.sRxgoodpacket = false) :
    (s.step input).sRxgoodpacket = false ∧
      ((s.step input).sState = .tstart ∨ (s.step input).sState = .tdata ∨
        (s.step input).sState = .tcrc1 ∨ (s.step input).sState = .tcrc2 ∨
        (s.step input).sState = .rwait) := by
  have hstep := receiver_step s input
  simp only [receiver, Prod.mk.injEq] at hstep
  rw [hstep.1, hstep.2.1]
  rcases hs with hs | hs | hs | hs
  · simp only [stateMachine, hs, hr, crcUpdate, vars, registered, Bool.false_eq_true, if_false]
    split
    · simp [hgood]
    · split
      · simp [hgood]
      · simp [hgood]
  · simp only [stateMachine, hs, hr, crcUpdate, vars, registered]
    cases s.sTxready <;> cases s.sTxfirst <;> cases input.pTxact <;> simp [hgood]
  · simp only [stateMachine, hs, hr, crcUpdate, vars, registered]
    cases s.sTxready <;> simp [hgood]
  · simp only [stateMachine, hs, hr, crcUpdate, vars, registered]
    cases s.sTxready <;> simp [hgood]

/-! ### The invariant -/

/-- What is heard will not be good any more, however it goes on. -/
def Lost (h : Heard) : Prop := h.error = true ∨ ∀ more, ¬ GoodPacket (h.bytes ++ more)

/-- The machine in the middle of a packet, of which it has read the bytes after the first. -/
structure InPacket (h : Heard) (kind : PacketKind) (pid : BitVec 4) (body : List Byte) : Prop where
  kind_eq : packetKind pid = kind
  active : h.active = true
  error : h.error = false
  bytes : h.bytes = pidByte pid :: body

/-- The bytes after the identifier have gone through the CRC `upd`, which starts with `init`. The
verdict so far is that of a receiver that compares with the residue `res` after each byte. -/
def BodyRead {w : Nat} (h : Heard) (kind : PacketKind) (upd : BitVec w → Byte → BitVec w)
    (init res crc : BitVec w) (good : Bool) : Prop :=
  ∃ pid body, InPacket h kind pid body ∧ crc = body.foldl upd init ∧
    good = decide (body ≠ [] ∧ crc = res)

/-- What the state of the machine says about what has been heard. If the run is `quiet` the
machine hears every packet from its first byte. -/
def Receiving (quiet : Prop) (s : UsbPacket) (h : Heard) : Prop :=
  match s.sState with
  | .none => s.sRxgoodpacket = false ∧ (h.active = true → h.bytes = [] ∧ h.error = false)
  | .rtoken => BodyRead h .token crc5Upd 0b11111 crc5Res s.crc5Buf s.sRxgoodpacket
  | .rdata => BodyRead h .data crc16Upd 0xFFFF crc16Res s.crc16Buf s.sRxgoodpacket
  | .rshake => ∃ pid, InPacket h .handshake pid [] ∧ s.sRxgoodpacket = true
  | .rwait => s.sRxgoodpacket = false ∧ (quiet → h.active = true ∧ Lost h)
  | .chirpk => False
  | _ => ¬ quiet ∧ s.sRxgoodpacket = false

/-- The verdict of the machine is the one of the format. -/
theorem Receiving.good {quiet : Prop} {h : Heard} (hinv : Receiving quiet s h) :
    (s.sRxgoodpacket = true → h.active = true ∧ h.error = false ∧ GoodPacket h.bytes) ∧
      (quiet → h.active = true → h.error = false → GoodPacket h.bytes →
        s.sRxgoodpacket = true) := by
  unfold Receiving at hinv
  split at hinv
  case h_1 =>
    refine ⟨fun hg => by simp [hg] at hinv, fun _ hact _ hwf => ?_⟩
    rw [(hinv.2 hact).1] at hwf
    exact absurd hwf not_goodPacket_nil
  case h_2 =>
    obtain ⟨pid, body, hp, hcrc, hgood⟩ := hinv
    have hiff := goodPacket_token_iff hp.kind_eq body
    rw [← hp.bytes, ← hcrc] at hiff
    simp only [hgood, decide_eq_true_eq, ← hiff]
    exact ⟨fun hwf => ⟨hp.active, hp.error, hwf⟩, fun _ _ _ hwf => hwf⟩
  case h_3 =>
    obtain ⟨pid, body, hp, hcrc, hgood⟩ := hinv
    have hiff := goodPacket_data_iff hp.kind_eq body
    rw [← hp.bytes, ← hcrc] at hiff
    simp only [hgood, decide_eq_true_eq, ← hiff]
    exact ⟨fun hwf => ⟨hp.active, hp.error, hwf⟩, fun _ _ _ hwf => hwf⟩
  case h_4 =>
    obtain ⟨pid, hp, hgood⟩ := hinv
    have hwf : GoodPacket h.bytes := by
      rw [hp.bytes]
      exact .handshake pid hp.kind_eq
    exact ⟨fun _ => ⟨hp.active, hp.error, hwf⟩, fun _ _ _ _ => hgood⟩
  case h_5 =>
    refine ⟨fun hg => by simp [hg] at hinv, fun hq _ herr hwf => ?_⟩
    -- what was given up is in error, or no continuation of it is a packet
    rcases (hinv.2 hq).2 with hlost | hlost
    · simp [herr] at hlost
    · exact absurd (by simpa using hwf) (hlost [])
  case h_6 => exact hinv.elim
  case h_7 => exact ⟨fun hg => by simp [hg] at hinv, fun hq => absurd hq hinv.1⟩

/-- A packet that is lost stays lost. -/
theorem Lost.next {h : Heard} (hlost : Lost h) (hact : h.active = true) {l : RxLine}
    (hl : l.active = true) : Lost (h.next l) := by
  simp only [Lost, Heard.next, hl, hact, if_true, Bool.true_and]
  rcases hlost with herr | hbytes
  · simp [herr]
  · exact Or.inr fun more => by simpa using hbytes (_ ++ more)

/-- The line goes inactive: the interval is over. -/
theorem next_of_not_active (h : Heard) (hact : s.sRxactive = false) :
    h.next s.rxLine = { h with active := false } := by simp [Heard.next, rxLine, hact]

/-- The packet goes on. -/
theorem InPacket.next {h : Heard} {kind : PacketKind} {pid : BitVec 4} {body : List Byte}
    (hp : InPacket h kind pid body) (hact : s.sRxactive = true) (herr : s.sRxerror = false) :
    InPacket (h.next s.rxLine) kind pid (body ++ if s.sRxvalid then [s.sDatain] else []) where
  kind_eq := hp.kind_eq
  active := by simp [rxLine, hact]
  error := by simp [Heard.next, rxLine, hact, hp.error, herr]
  bytes := by simp [Heard.next, rxLine, hact, hp.active, hp.bytes]

/-- A cycle of the packet without a byte changes nothing. -/
theorem BodyRead.wait {w : Nat} {upd : BitVec w → Byte → BitVec w} {init res crc : BitVec w}
    {h : Heard} {kind : PacketKind} {good : Bool} (hb : BodyRead h kind upd init res crc good)
    (hact : s.sRxactive = true) (herr : s.sRxerror = false) (hvalid : s.sRxvalid = false) :
    BodyRead (h.next s.rxLine) kind upd init res crc good := by
  obtain ⟨pid, body, hp, hcrc, hgood⟩ := hb
  have hp' := hp.next hact herr
  simp only [hvalid, Bool.false_eq_true, if_false, List.append_nil] at hp'
  exact ⟨pid, body, hp', hcrc, hgood⟩

/-- A byte goes through the CRC, and the verdict is the comparison after it. -/
theorem BodyRead.byte {w : Nat} {upd : BitVec w → Byte → BitVec w} {init res crc : BitVec w}
    {h : Heard} {kind : PacketKind} {good : Bool} (hb : BodyRead h kind upd init res crc good)
    (hact : s.sRxactive = true) (herr : s.sRxerror = false) (hvalid : s.sRxvalid = true) :
    BodyRead (h.next s.rxLine) kind upd init res (upd crc s.sDatain)
      (decide (upd crc s.sDatain = res)) := by
  obtain ⟨pid, body, hp, hcrc, -⟩ := hb
  have hp' := hp.next hact herr
  simp only [hvalid, if_true] at hp'
  refine ⟨pid, _, hp', ?_, by simp⟩
  rw [List.foldl_append, ← hcrc]
  rfl

/-- The registers of the line have their own name for the activity. -/
@[simp] theorem active_rxLine : s.rxLine.active = s.sRxactive := rfl

/-- An error of the PHY is an error of the packet. -/
theorem lost_of_error (h : Heard) (hact : s.sRxactive = true) (herr : s.sRxerror = true) :
    Lost (h.next s.rxLine) := Or.inl (by simp [Heard.next, rxLine, hact, herr])

/-- A packet has started, or is about to: what has been heard of it before is nothing. -/
theorem receiving_step_none {quiet : Prop} {h : Heard} (hs : s.sState = .none)
    (hr : input.reset = false) (hc : input.pChirpk = false)
    (hq : quiet → input.pTxact = false) (hinv : Receiving quiet s h) :
    Receiving quiet (s.step input) (h.next s.rxLine) := by
  simp only [Receiving, hs] at hinv
  have hstep := receiver_step_none hs hr hc
  cases hact : s.sRxactive with
  | false =>
    cases htx : input.pTxact with
    | false =>
      simp only [receiver, hact, htx, Bool.false_eq_true, if_false, Prod.mk.injEq] at hstep
      simp [Receiving, hstep, next_of_not_active h hact]
    | true =>
      simp only [receiver, hact, htx, Bool.false_eq_true, if_false, if_true,
        Prod.mk.injEq] at hstep
      have hnq : ¬ quiet := fun hquiet => by simp [hq hquiet] at htx
      simp [Receiving, hstep, hnq]
  | true =>
    have hbytes : (h.next s.rxLine).bytes = if s.sRxvalid then [s.sDatain] else [] := by
      cases hh : h.active
      · simp [Heard.next, rxLine, hact, hh]
      · simp [Heard.next, rxLine, hact, hh, (hinv.2 hh).1]
    cases herr : s.sRxerror with
    | true =>
      simp only [receiver, hact, herr, if_true, Prod.mk.injEq] at hstep
      simp [Receiving, hstep, hact, lost_of_error h hact herr]
    | false =>
      have herr' : (h.next s.rxLine).error = false := by
        cases hh : h.active
        · simp [Heard.next, rxLine, hact, herr, hh]
        · simp [Heard.next, rxLine, hact, herr, hh, (hinv.2 hh).2]
      cases hvalid : s.sRxvalid with
      | false =>
        simp only [receiver, hact, herr, hvalid, Bool.false_eq_true, if_false, if_true,
          Prod.mk.injEq] at hstep
        simp [Receiving, hstep, hbytes, hvalid, herr']
      | true =>
        simp only [receiver, hact, herr, hvalid, Bool.false_eq_true, if_false, if_true,
          Prod.mk.injEq] at hstep
        simp only [hvalid, if_true] at hbytes
        rcases pidState_cases s.sDatain with ⟨hpid, hno⟩ | ⟨pid, hb, hpid⟩
        · rw [hpid] at hstep
          have hlost : Lost (h.next s.rxLine) := by
            refine Or.inr fun more => ?_
            rw [hbytes]
            exact not_goodPacket_of_first hno more
          simp [Receiving, hstep, hact, hlost]
        · have hin : ∀ {kind}, packetKind pid = kind → InPacket (h.next s.rxLine) kind pid [] :=
            fun hkind => ⟨hkind, by simp [rxLine, hact], herr', by rw [hbytes, hb]⟩
          rcases hpid with ⟨hkind, hpid⟩ | ⟨hkind, hpid⟩ | ⟨hkind, hpid⟩
          · rw [hpid] at hstep
            simp only [Receiving, hstep]
            exact ⟨pid, [], hin hkind, rfl, by simp⟩
          · rw [hpid] at hstep
            simp only [Receiving, hstep]
            exact ⟨pid, [], hin hkind, rfl, by simp⟩
          · rw [hpid] at hstep
            simp only [Receiving, hstep]
            exact ⟨pid, hin hkind, trivial⟩

/-- One edge while a packet is sent. Nothing is confirmed, and a packet that comes in meanwhile is
missed. -/
theorem receiving_step_sending {quiet : Prop} {h : Heard}
    (hs : s.sState = .tstart ∨ s.sState = .tdata ∨ s.sState = .tcrc1 ∨ s.sState = .tcrc2)
    (hr : input.reset = false) (hinv : ¬ quiet ∧ s.sRxgoodpacket = false) :
    Receiving quiet (s.step input) h := by
  obtain ⟨hgood, hs' | hs' | hs' | hs' | hs'⟩ := receiver_step_sending hs hr hinv.2
  all_goals simp [Receiving, hs', hgood, hinv.1]

/-- What the states inside a packet have in common: the packet is over when the line goes inactive,
and lost with an error. -/
theorem receiving_step_inside {quiet : Prop} {h : Heard} {crc5 : BitVec 5} {crc16 : BitVec 16}
    {more : PacketState × Bool × BitVec 5 × BitVec 16}
    (hstep : (s.step input).receiver =
      if !s.sRxactive then (.none, false, crc5, crc16)
      else if s.sRxerror then (.rwait, false, crc5, crc16)
      else more)
    (hmore : s.sRxactive = true → s.sRxerror = false → (s.step input).receiver = more →
      Receiving quiet (s.step input) (h.next s.rxLine)) :
    Receiving quiet (s.step input) (h.next s.rxLine) := by
  cases hact : s.sRxactive with
  | false =>
    simp only [receiver, hact, Bool.not_false, if_true, Prod.mk.injEq] at hstep
    simp [Receiving, hstep, next_of_not_active h hact]
  | true =>
    cases herr : s.sRxerror with
    | true =>
      simp only [receiver, hact, herr, Bool.not_true, Bool.false_eq_true, if_false, if_true,
        Prod.mk.injEq] at hstep
      simp [Receiving, hstep, hact, lost_of_error h hact herr]
    | false =>
      simp only [hact, herr, Bool.not_true, Bool.false_eq_true, if_false] at hstep
      exact hmore hact herr hstep

/-- Inside a token. -/
theorem receiving_step_rtoken {quiet : Prop} {h : Heard} (hs : s.sState = .rtoken)
    (hr : input.reset = false) (hinv : Receiving quiet s h) :
    Receiving quiet (s.step input) (h.next s.rxLine) := by
  simp only [Receiving, hs] at hinv
  refine receiving_step_inside (receiver_step_rtoken hs hr) fun hact herr hmore => ?_
  cases hvalid : s.sRxvalid with
  | false =>
    simp only [receiver, hvalid, Bool.false_eq_true, if_false, hs, Prod.mk.injEq] at hmore
    simp only [Receiving, hmore]
    exact hinv.wait hact herr hvalid
  | true =>
    simp only [receiver, hvalid, if_true, Prod.mk.injEq] at hmore
    simp only [Receiving, hmore]
    exact hinv.byte hact herr hvalid

/-- Inside a data packet. -/
theorem receiving_step_rdata {quiet : Prop} {h : Heard} (hs : s.sState = .rdata)
    (hr : input.reset = false) (hinv : Receiving quiet s h) :
    Receiving quiet (s.step input) (h.next s.rxLine) := by
  simp only [Receiving, hs] at hinv
  refine receiving_step_inside (receiver_step_rdata hs hr) fun hact herr hmore => ?_
  cases hvalid : s.sRxvalid with
  | false =>
    simp only [receiver, hvalid, Bool.false_eq_true, if_false, hs, Prod.mk.injEq] at hmore
    simp only [Receiving, hmore]
    exact hinv.wait hact herr hvalid
  | true =>
    simp only [receiver, hvalid, if_true, Prod.mk.injEq] at hmore
    simp only [Receiving, hmore]
    exact hinv.byte hact herr hvalid

/-- After the first byte of a handshake, which is also its last. -/
theorem receiving_step_rshake {quiet : Prop} {h : Heard} (hs : s.sState = .rshake)
    (hr : input.reset = false) (hinv : Receiving quiet s h) :
    Receiving quiet (s.step input) (h.next s.rxLine) := by
  simp only [Receiving, hs] at hinv
  obtain ⟨pid, hp, hgood⟩ := hinv
  refine receiving_step_inside (receiver_step_rshake hs hr) fun hact herr hmore => ?_
  have hp' := hp.next hact herr
  cases hvalid : s.sRxvalid with
  | false =>
    simp only [receiver, hvalid, Bool.false_eq_true, if_false, hs, Prod.mk.injEq] at hmore
    simp only [hvalid, Bool.false_eq_true, if_false, List.append_nil] at hp'
    simp only [Receiving, hmore]
    exact ⟨pid, hp', hgood⟩
  | true =>
    simp only [receiver, hvalid, if_true, Prod.mk.injEq] at hmore
    simp only [hvalid, if_true] at hp'
    -- no handshake has a second byte
    have hlost : Lost (h.next s.rxLine) := by
      refine Or.inr fun more => ?_
      rw [hp'.bytes, List.cons_append, goodPacket_handshake_iff hp'.kind_eq]
      simp
    simp [Receiving, hmore, hact, hlost]

/-- The rest of a packet that is lost is waited for. -/
theorem receiving_step_rwait {quiet : Prop} {h : Heard} (hs : s.sState = .rwait)
    (hr : input.reset = false) (hinv : Receiving quiet s h) :
    Receiving quiet (s.step input) (h.next s.rxLine) := by
  simp only [Receiving, hs] at hinv
  have hstep := receiver_step_rwait hs hr
  cases hact : s.sRxactive with
  | false =>
    simp only [receiver, hact, Bool.not_false, if_true, Prod.mk.injEq] at hstep
    simp [Receiving, hstep, next_of_not_active h hact, hinv.1]
  | true =>
    simp only [receiver, hact, Bool.not_true, Bool.false_eq_true, if_false, hs,
      Prod.mk.injEq] at hstep
    simp only [Receiving, hstep]
    refine ⟨hinv.1, fun hquiet => ?_⟩
    obtain ⟨hheard, hlost⟩ := hinv.2 hquiet
    exact ⟨by simp [hact], hlost.next hheard hact⟩

/-- One edge with the line that is in the registers keeps the invariant. -/
theorem Receiving.step {quiet : Prop} {h : Heard} (hr : input.reset = false)
    (hc : input.pChirpk = false) (hq : quiet → input.pTxact = false)
    (hinv : Receiving quiet s h) : Receiving quiet (s.step input) (h.next s.rxLine) := by
  cases hs : s.sState with
  | none => exact receiving_step_none hs hr hc hq hinv
  | chirpk => simp [Receiving, hs] at hinv
  | rtoken => exact receiving_step_rtoken hs hr hinv
  | rdata => exact receiving_step_rdata hs hr hinv
  | rshake => exact receiving_step_rshake hs hr hinv
  | rwait => exact receiving_step_rwait hs hr hinv
  | tstart => exact receiving_step_sending (Or.inl hs) hr (by simpa [Receiving, hs] using hinv)
  | tdata =>
    exact receiving_step_sending (Or.inr (Or.inl hs)) hr (by simpa [Receiving, hs] using hinv)
  | tcrc1 =>
    exact receiving_step_sending (Or.inr (Or.inr (Or.inl hs))) hr
      (by simpa [Receiving, hs] using hinv)
  | tcrc2 =>
    exact receiving_step_sending (Or.inr (Or.inr (Or.inr hs))) hr
      (by simpa [Receiving, hs] using hinv)

/-! ### Whole runs -/

/-- The machine after a reset in a pause of the line. -/
structure Started (s : UsbPacket) : Prop where
  state : s.sState = .none
  good : s.sRxgoodpacket = false
  line : s.sRxactive = false

/-- The invariant along a run, by induction on the lines that have been looked at. The last line
is in the registers and has not been looked at yet. -/
theorem receiving_run (quiet : Prop) (hs : s.Started) (ins : List UsbPacketIn)
    (last : UsbPacketIn) (hctl : ∀ i ∈ ins ++ [last], i.reset = false ∧ i.pChirpk = false)
    (hquiet : quiet → ∀ i ∈ ins ++ [last], i.pTxact = false) :
    Receiving quiet ((ins ++ [last]).foldl step s) (heard ins) ∧
      ((ins ++ [last]).foldl step s).rxLine = last.rxLine := by
  rw [List.foldl_append]
  refine ⟨?_, step_rxLine _ _⟩
  have hlast := hctl last (by simp)
  induction ins using List.reverseRecOn generalizing last with
  | nil =>
    have hstart : Receiving quiet s Heard.start := by
      simp [Receiving, hs.state, hs.good, Heard.start]
    have hnext : Heard.start.next s.rxLine = Heard.start := next_of_not_active _ hs.line
    have := hstart.step (s := s) hlast.1 hlast.2 fun hq => hquiet hq last (by simp)
    rwa [hnext] at this
  | append_singleton ins i ih =>
    have hih := ih i (fun j hj => hctl j (List.mem_append_left _ hj))
      (fun hq j hj => hquiet hq j (List.mem_append_left _ hj)) (hctl i (by simp))
    -- The line of `i` is in the registers now, and the machine looks at it with `last`.
    have hline : ((ins ++ [i]).foldl step s).rxLine = i.rxLine := by
      rw [List.foldl_append]
      exact step_rxLine _ _
    rw [← List.foldl_append] at hih
    have := hih.step hlast.1 hlast.2 fun hq => hquiet hq last (by simp)
    rw [hline] at this
    simpa [heard] using this

/-- The line goes inactive after a good packet. -/
structure Ends (h : Heard) (last : UsbPacketIn) : Prop where
  active : h.active = true
  atEnd : last.phyRxactive = false
  error : h.error = false
  atEndError : last.phyRxerror = false
  goodPacket : GoodPacket h.bytes

/-- The confirmation is combinational in the registers: the line has gone inactive, without an
error, and the verdict is good. -/
theorem pRxfin_eq {last : UsbPacketIn} (hline : s.rxLine = last.rxLine) :
    s.pRxfin = (!last.phyRxactive && !last.phyRxerror && s.sRxgoodpacket) := by
  have hact := congrArg RxLine.active hline
  have herr := congrArg RxLine.error hline
  simp only [rxLine, UsbPacketIn.rxLine] at hact herr
  rw [pRxfin, hact, herr]

/-- What is confirmed has been heard as a whole and is good, whatever is sent in between. -/
theorem ends_of_pRxfin (hs : s.Started) {ins : List UsbPacketIn} {last : UsbPacketIn}
    (hctl : ∀ i ∈ ins ++ [last], i.reset = false ∧ i.pChirpk = false)
    (hfin : ((ins ++ [last]).foldl step s).pRxfin = true) : Ends (heard ins) last := by
  obtain ⟨hinv, hline⟩ := receiving_run False hs ins last hctl False.elim
  rw [pRxfin_eq hline] at hfin
  simp only [Bool.and_eq_true, Bool.not_eq_true'] at hfin
  obtain ⟨hact, herr, hwf⟩ := hinv.good.1 hfin.2
  exact ⟨hact, hfin.1.1, herr, hfin.1.2, hwf⟩

/-- When nothing is sent, every good packet is confirmed. -/
theorem pRxfin_of_ends (hs : s.Started) {ins : List UsbPacketIn} {last : UsbPacketIn}
    (hctl : ∀ i ∈ ins ++ [last], i.reset = false ∧ i.pChirpk = false)
    (hquiet : ∀ i ∈ ins ++ [last], i.pTxact = false) (hends : Ends (heard ins) last) :
    ((ins ++ [last]).foldl step s).pRxfin = true := by
  obtain ⟨hinv, hline⟩ := receiving_run True hs ins last hctl fun _ => hquiet
  rw [pRxfin_eq hline]
  simp only [Bool.and_eq_true, Bool.not_eq_true']
  exact ⟨⟨hends.atEnd, hends.atEndError⟩,
    hinv.good.2 trivial hends.active hends.error hends.goodPacket⟩

/-- `P_RXFIN` comes at the end of a good packet only, and at the end of each of them when nothing
is sent. -/
theorem pRxfin_iff (hs : s.Started) (ins : List UsbPacketIn) (last : UsbPacketIn)
    (hctl : ∀ i ∈ ins ++ [last], i.reset = false ∧ i.pChirpk = false) :
    (((ins ++ [last]).foldl step s).pRxfin = true → Ends (heard ins) last) ∧
      ((∀ i ∈ ins ++ [last], i.pTxact = false) →
        (((ins ++ [last]).foldl step s).pRxfin = true ↔ Ends (heard ins) last)) :=
  ⟨ends_of_pRxfin hs hctl, fun hquiet => ⟨ends_of_pRxfin hs hctl, pRxfin_of_ends hs hctl hquiet⟩⟩

/-- The registers after a reset are such a start. -/
theorem started_initial : initial.Started := ⟨rfl, rfl, rfl⟩

/-- A data packet as the PHY hands it on: identifier, two bytes of payload with a pause in which the
line stays active between them, the two bytes of the CRC, and the end. -/
def dataPacketIns : List UsbPacketIn :=
  [.hearing (some (pidByte 0x3)), .hearing (some 0x12),
    { UsbPacketIn.hearing (some 0) with phyRxvalid := false }, .hearing (some 0x34),
    .hearing (some 0xF3), .hearing (some 0x38)]

/-- It is confirmed. -/
theorem pRxfin_iff_dataPacket :
    ((dataPacketIns ++ [UsbPacketIn.hearing none]).foldl step initial).pRxfin = true := by
  have hgood : GoodPacket (pidByte 0x3 :: ([0x12, 0x34] ++ [0xF3, 0x38])) :=
    .data 0x3 (by decide) [0x12, 0x34] [0xF3, 0x38] (by decide +kernel)
  have hbytes : (heard dataPacketIns).bytes = pidByte 0x3 :: ([0x12, 0x34] ++ [0xF3, 0x38]) := by
    decide
  exact ((pRxfin_iff started_initial dataPacketIns (.hearing none) (by decide)).2 (by decide)).mpr
    ⟨by decide, rfl, by decide, rfl, hbytes ▸ hgood⟩

end UsbPacket

end VivadoTest.InputTest
