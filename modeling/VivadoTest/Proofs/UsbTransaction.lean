import VivadoTest.Proofs.UsbReceive
import VivadoTest.Spec.UsbTransaction

/-!
# `VivadoTest.Proofs.UsbTransaction`: a confirmed transaction has taken place

`usb_transact` follows the packets that `usb_packet` receives. It does not look at every byte, and
it may come to a packet in the middle. What keeps the two together is that `usb_packet` confirms a
packet only if it has heard it from its first byte, and that in these cases `usb_transact` has seen
the same bytes (`StateTracks`).

* `tFin_completed`: behind each `T_FIN` there is a transaction on the log.
* `pTxact_due`: the device is silent until it has been asked.

## Two layers

`usb_transact` sees of `usb_packet` a byte now and then, and whether a packet goes on or has been
confirmed. `PacketStep` is all of that for one cycle, and the only thing that the second half of
the module knows about the first machine.

`StateTracks` has one line for each state of the transaction machine. It speaks of the packet that
is being heard and of the end of the log: in the states behind a token the log ends with this
token, in those behind the data with the data as well. The step is one lemma for each state
(`stateTracks_idle` and so on), each with the packet's two cases: it goes on, or it is over.

The log is read off the line and off the outputs, so the two results say something about the device
as it is seen from outside.
-/

set_option autoImplicit false

namespace VivadoTest.InputTest

open VivadoTest.Framework VivadoTest.Spec VivadoTest.Lib

/-! ### What `usb_packet` does in a cycle -/

/-- `usb_packet` is in the middle of a packet that may still be good. -/
def UsbPacket.Hearing (s : UsbPacket) : Prop :=
  s.sState = .rtoken ∨ s.sState = .rdata ∨ s.sState = .rshake

/-- A cycle of `usb_packet` as `usb_transact` sees it: `idle` and `hearing` are about the state
before it, and `bytes` is the packet so far. -/
structure PacketStep (p : PacketOut) (idle idle' hearing hearing' : Prop)
    (bytes bytes' : List Byte) : Prop where
  rdy : p.pRxrdy = true → p.pRxact = true
  active : hearing' → p.pRxact = true
  fresh : hearing' → ¬ hearing →
    p.pRxrdy = true ∧ idle ∧ bytes' = [pidByte (p.pRxdat.extractLsb' 0 4)]
  goesOn : hearing' → hearing → bytes' = bytes ++ if p.pRxrdy then [p.pRxdat] else []
  fin : p.pRxfin = true → hearing ∧ p.pRxact = false ∧ GoodPacket bytes
  tx : p.pTxrdy = true → ¬ hearing' ∧ p.pRxfin = false
  busy : p.pRxact = true → p.pRxrdy = true ∨ ¬ idle → ¬ idle'

namespace UsbPacket

variable {s : UsbPacket} {input : UsbPacketIn}

/-- The state after an edge is the one that the state machine chooses; the CRC and the outputs to
the PHY leave it alone. -/
theorem sState_step : (s.step input).sState = (s.stateMachine input).1.sState := by
  have hcrc : ∀ v next, (s.crcUpdate v next).sState = next.sState := by
    intro v next
    simp only [crcUpdate]
    split <;> rfl
  have hout : ∀ v next, (s.driveOutputs input v next).sState = next.sState := by
    intro v next
    simp only [driveOutputs]
    repeat' split
    all_goals rfl
  simp only [step, hout, hcrc]

/-- A packet goes on, or its first byte is there. -/
theorem hearing_step (hr : input.reset = false) (h : (s.step input).Hearing) :
    s.sRxactive = true ∧ (s.Hearing ∨ s.sState = .none ∧ s.sRxvalid = true ∧
      ∃ pid, s.sDatain = pidByte pid) := by
  simp only [Hearing, sState_step, stateMachine, hr] at h
  cases hs : s.sState with
  | none =>
    simp only [hs] at h
    cases hact : s.sRxactive <;> cases herr : s.sRxerror <;> cases hval : s.sRxvalid <;>
      cases hc : input.pChirpk <;> cases htx : input.pTxact
    all_goals simp only [hact, herr, hval, hc, htx, registered, if_true, if_false,
      Bool.false_eq_true, hs, reduceCtorEq, or_self] at h
    all_goals
      refine ⟨rfl, .inr ⟨rfl, rfl, ?_⟩⟩
      rcases pidState_cases s.sDatain with ⟨hno, -⟩ | ⟨pid, hpid, -⟩
      · simp [hno] at h
      · exact ⟨pid, hpid⟩
  | rtoken | rdata | rshake =>
    refine ⟨?_, .inl (by simp [Hearing, hs])⟩
    cases hact : s.sRxactive with
    | false => simp [hs, hact] at h
    | true => rfl
  | _ =>
    simp only [hs, registered] at h
    exfalso
    revert h
    repeat' split
    all_goals simp

/-- Within a packet, and while it sends, the machine does not begin with another packet. -/
theorem not_none_step (hr : input.reset = false) (hc : input.pChirpk = false)
    (hchirp : s.sState ≠ .chirpk) (hact : s.sRxactive = true)
    (h : s.sRxvalid = true ∨ s.sState ≠ .none) : (s.step input).sState ≠ .none := by
  rw [sState_step, stateMachine, hr]
  cases hs : s.sState with
  | none =>
    have hval : s.sRxvalid = true := by simpa [hs] using h
    have hpid : (pidState s.sDatain).1 ≠ .none := by
      rcases pidState_cases s.sDatain with ⟨hp, -⟩ | ⟨pid, -, ⟨-, hp⟩ | ⟨-, hp⟩ | ⟨-, hp⟩⟩
      all_goals simp [hp]
    cases s.sRxerror <;> simp [hc, hact, hval, hpid]
  | chirpk => exact absurd hs hchirp
  | _ =>
    simp only [registered, hact]
    repeat' split
    all_goals simp_all

/-- The outputs to `usb_transact`. -/
def out (s : UsbPacket) : PacketOut := ⟨s.pRxact, s.pRxrdy, s.pRxfin, s.pRxdat, s.pTxrdy⟩

/-- What the machine is doing is a packet so far, or it will not confirm anything. -/
theorem Receiving.cases {h : Heard} (hinv : Receiving False s h) :
    s.sState ≠ .chirpk ∧ (s.Hearing → h.active = true) ∧
      (s.sState = .none → h.active = true → h.bytes = []) ∧
      (s.sRxgoodpacket = true → s.Hearing ∧ GoodPacket h.bytes) := by
  have hgood := hinv.good.1
  unfold Receiving at hinv
  cases hs : s.sState <;> simp only [hs] at hinv
  case none =>
    refine ⟨nofun, by simp [Hearing, hs], fun _ hact => (hinv.2 hact).1, fun hg => ?_⟩
    simp [hg] at hinv
  case rtoken =>
    obtain ⟨pid, body, hp, -⟩ := hinv
    exact ⟨nofun, fun _ => hp.active, nofun, fun hg => ⟨.inl hs, (hgood hg).2.2⟩⟩
  case rdata =>
    obtain ⟨pid, body, hp, -⟩ := hinv
    exact ⟨nofun, fun _ => hp.active, nofun, fun hg => ⟨.inr (.inl hs), (hgood hg).2.2⟩⟩
  case rshake =>
    obtain ⟨pid, hp, -⟩ := hinv
    exact ⟨nofun, fun _ => hp.active, nofun, fun hg => ⟨.inr (.inr hs), (hgood hg).2.2⟩⟩
  all_goals
    refine ⟨nofun, by simp [Hearing, hs], nofun, fun hg => ?_⟩
    simp [hg] at hinv

/-- What the packet layer shows of an edge to the transaction layer above it: when it starts to
hear, what it announces, and when it confirms. It comes from the invariant of the receiver. -/
theorem Receiving.packetStep {h : Heard} (hinv : Receiving False s h) (hr : input.reset = false)
    (hc : input.pChirpk = false) :
    PacketStep s.out (s.sState = .none) ((s.step input).sState = .none) s.Hearing
      (s.step input).Hearing h.bytes (h.next s.rxLine).bytes := by
  obtain ⟨hchirp, hact, hnone, hgood⟩ := hinv.cases
  have hnext : s.sRxactive = true → (h.next s.rxLine).bytes =
      (if h.active then h.bytes else []) ++ if s.out.pRxrdy then [s.out.pRxdat] else [] := by
    intro ha
    simp [Heard.next, rxLine, out, pRxrdy, pRxdat, ha]
  refine ⟨?_, fun hh => (hearing_step hr hh).1, fun hh hno => ?_, fun hh hyes => ?_, fun hfin => ?_,
    fun htx => ?_, fun ha hb => ?_⟩
  · simp only [out, pRxrdy, pRxact, Bool.and_eq_true]
    exact fun h => h.1
  · obtain ⟨ha, hyes | ⟨hs, hval, pid, hpid⟩⟩ := hearing_step hr hh
    · exact absurd hyes hno
    · have hrdy : s.out.pRxrdy = true := by simp [out, pRxrdy, ha, hval]
      refine ⟨hrdy, hs, ?_⟩
      have hempty : (if h.active then h.bytes else []) = [] := by
        cases hh : h.active
        · rfl
        · simpa using hnone hs hh
      have hlow : ∀ pid : BitVec 4, pidByte ((pidByte pid).extractLsb' 0 4) = pidByte pid := by
        decide
      rw [hnext ha, hempty, hrdy]
      simp [out, pRxdat, hpid, hlow]
  · rw [hnext (hearing_step hr hh).1, hact hyes]
    rfl
  · simp only [out, pRxfin, Bool.and_eq_true, Bool.not_eq_true'] at hfin
    obtain ⟨hhear, hwf⟩ := hgood hfin.2
    exact ⟨hhear, hfin.1.1, hwf⟩
  · have hs : s.sState = .tstart ∨ s.sState = .tdata := by
      by_contra hno
      simp only [not_or] at hno
      simp [out, pTxrdy, hno] at htx
    refine ⟨fun hh => ?_, ?_⟩
    · rcases hs with hs | hs <;> simpa [Hearing, hs] using (hearing_step hr hh).2
    · cases hg : s.sRxgoodpacket with
      | false => simp [out, pRxfin, hg]
      | true => rcases hs with hs | hs <;> simpa [Hearing, hs] using (hgood hg).1
  · refine not_none_step hr hc hchirp ha (hb.imp (fun h => ?_) id)
    simp only [out, pRxrdy, Bool.and_eq_true] at h
    exact h.2

end UsbPacket

/-! ### The relation -/

/-- A PID that starts a transaction. -/
def IsToken (pid : BitVec 4) : Prop := pid = pidIn ∨ pid = pidOut ∨ pid = pidSetup ∨ pid = pidPing

/-- A transaction of the kind `pid` waits for its handshake. -/
def Owes (s : UsbTransact) (log : List Event) (pid : BitVec 4) : Prop :=
  s.Flags pid ∧ ∃ pre a es, log = pre ++ es ∧ Due a s.sEndpt s.sOsync pid es

/-- What the state of `usb_transact` says about the packet and about the log. -/
def StateTracks (s : UsbTransact) (idle hearing : Prop) (bytes : List Byte)
    (log : List Event) : Prop :=
  match s.sState with
  | .idle => ¬ hearing ∧ (s.sFinished = true → ∃ pid, s.Flags pid ∧ ∃ pre a es,
      log = pre ++ es ∧ Completed a s.sEndpt s.sOsync pid es)
  | .skip => True
  | .gettoken1 => ¬ idle ∧ ∃ pid, s.Flags pid ∧ IsToken pid ∧ (hearing → bytes = [pidByte pid])
  | .gettoken2 => ¬ idle ∧ ∃ pid b₁ pre, s.Flags pid ∧ IsToken pid ∧
      log = pre ++ [.addressed (b₁.extractLsb' 0 7)] ∧
      s.sEndpt.extractLsb' 0 1 = b₁.extractLsb' 7 1 ∧
      (hearing → bytes = [pidByte pid, b₁])
  | .gettoken3 => ¬ idle ∧ ∃ pid b₁ b₂ pre, s.Flags pid ∧ IsToken pid ∧
      log = pre ++ [.addressed (b₁.extractLsb' 0 7)] ∧
      s.sEndpt = b₂.extractLsb' 0 3 ++ b₁.extractLsb' 7 1 ∧
      (hearing → ∃ more, bytes = pidByte pid :: b₁ :: b₂ :: more)
  | .gottoken => ¬ hearing ∧ ∃ pid, s.Flags pid ∧ IsToken pid ∧ ∃ pre a token,
      TokenTo pid a s.sEndpt token ∧ log = pre ++ [.addressed a, .heard token]
  | .getdata => ¬ idle ∧ ∃ pid, s.Flags pid ∧ (pid = pidOut ∨ pid = pidSetup) ∧
      ∃ pre a token data, TokenTo pid a s.sEndpt token ∧
        log = pre ++ .addressed a :: .heard token :: data.map .payload ∧
        (hearing → bytes = pidByte (BitVec.ofBool s.sOsync ++ pidData) :: data)
  | .gotdata => ∃ pid, Owes s log pid
  | .sendshake => ∃ pid, Owes s log pid
  | .senddata => Owes s log pidIn
  | .sending => Owes s log pidIn
  | .waitack => ¬ hearing ∧ Owes s log pidIn
  | .waitskip => Owes s log pidIn
  | .getack => ¬ idle ∧ Owes s log pidIn ∧ (hearing → bytes.head? = some (pidByte pidAck))

section
variable {hssupport : Bool} {s : UsbTransact} {input : TransactIn} {p : PacketOut}
  {idle idle' hearing hearing' : Prop} {bytes bytes' : List Byte} {log : List Event}

/-- An endpoint number that arrives in two bytes is put together from one bit of the first and
three of the second. -/
theorem extractLsb'_endpt (x : BitVec 3) (y : BitVec 1) :
    (x ++ y : BitVec 4).extractLsb' 0 1 = y := by
  revert x y
  decide

/-- The topmost bit of the identifier of a data packet is its toggle; DATA0 and DATA1 agree in the
other three. -/
theorem extractLsb'_pid (b : Byte) :
    b.extractLsb' 0 4 = BitVec.ofBool (b.getLsbD 3) ++ b.extractLsb' 0 3 := by
  revert b
  decide

/-- Once a packet is missed it stays so. -/
theorem PacketStep.not_hearing (h : PacketStep p idle idle' hearing hearing' bytes bytes')
    (hno : ¬ hearing) (hquiet : p.pRxrdy = false ∨ ¬ idle) : ¬ hearing' := by
  intro hh
  obtain ⟨hrdy, hidle, -⟩ := h.fresh hh hno
  rcases hquiet with hq | hq
  · simp [hq] at hrdy
  · exact hq hidle

/-- In the middle of a packet. -/
theorem PacketStep.append (h : PacketStep p idle idle' hearing hearing' bytes bytes')
    (hbusy : ¬ idle) (hh : hearing') :
    hearing ∧ bytes' = bytes ++ if p.pRxrdy then [p.pRxdat] else [] := by
  by_cases hhear : hearing
  · exact ⟨hhear, h.goesOn hh hhear⟩
  · exact absurd hh (h.not_hearing hhear (.inr hbusy))

/-- The line is inactive. -/
theorem PacketStep.ended (h : PacketStep p idle idle' hearing hearing' bytes bytes')
    (hact : p.pRxact = false) : ¬ hearing' := fun hh => by simp [h.active hh] at hact

/-- Only good packets are on the log of a cycle, as far as the state does not say more. -/
theorem events_eq (hs : s.sState ≠ .gettoken1 ∧ s.sState ≠ .getdata ∧ s.sState ≠ .sendshake) :
    s.events input p bytes = if p.pRxfin then [.heard bytes] else [] := by
  simp [UsbTransact.events, UsbTransact.tRxrdy, hs]

/-- One edge without a reset is the state machine, with the delayed copy of `P_RXACT` beside it.
-/
theorem step_eq (hr : input.reset = false) : s.step hssupport input p =
    s.stateMachine hssupport input p { s with sPrevrxact := p.pRxact } := by
  simp [UsbTransact.step, hr]

/-- The first byte of a packet, when no transaction is under way any more. -/
theorem stateTracks_startToken (h : PacketStep p idle idle' hearing hearing' bytes bytes')
    (hclear : s.sIn = false ∧ s.sOut = false ∧ s.sSetup = false ∧ s.sPing = false)
    (hno : ¬ hearing) (hrdy : p.pRxrdy = true) (log : List Event) :
    StateTracks (s.startToken hssupport p) idle' hearing' bytes' log := by
  obtain ⟨hin, hout, hsetup, hping⟩ := hclear
  have hbusy : ¬ idle' := h.busy (h.rdy hrdy) (.inl hrdy)
  have hbytes : hearing' → bytes' = [pidByte (p.pRxdat.extractLsb' 0 4)] :=
    fun hh => (h.fresh hh hno).2.2
  obtain ⟨pid, hpid⟩ : ∃ pid, pid = p.pRxdat.extractLsb' 0 4 := ⟨_, rfl⟩
  rw [← hpid] at hbytes
  simp only [UsbTransact.startToken, ← hpid]
  -- The kind of the transaction is the one whose PID the byte has.
  by_cases h1 : pid = pidOut
  · subst h1
    exact ⟨hbusy, pidOut, ⟨hin, rfl, hsetup, hping⟩, .inr (.inl rfl), hbytes⟩
  rw [if_neg h1]
  by_cases h2 : pid = pidIn
  · subst h2
    exact ⟨hbusy, pidIn, ⟨rfl, hout, hsetup, hping⟩, .inl rfl, hbytes⟩
  rw [if_neg h2]
  by_cases h3 : pid = pidSetup
  · subst h3
    exact ⟨hbusy, pidSetup, ⟨hin, hout, rfl, hping⟩, .inr (.inr (.inl rfl)), hbytes⟩
  rw [if_neg h3]
  by_cases h4 : pid = pidPing
  · subst h4
    rw [if_pos rfl]
    split
    · exact ⟨hbusy, pidPing, ⟨hin, hout, hsetup, rfl⟩, .inr (.inr (.inr rfl)), hbytes⟩
    · trivial
  rw [if_neg h4]
  trivial

/-- Nothing has happened that the log of a transaction does not allow. -/
theorem Owes.log_append {pid : BitVec 4} (ht : Owes s log pid) :
    Owes s (log ++ if p.pRxfin then [.heard bytes] else []) pid := by
  obtain ⟨hflags, pre, a, es, rfl, hdue⟩ := ht
  split
  · exact ⟨hflags, pre, a, _, by rw [List.append_assoc], hdue.heard bytes⟩
  · exact ⟨hflags, pre, a, es, by rw [List.append_nil], hdue⟩

section
variable (hr : input.reset = false)
include hr

/-- One edge after a confirmed data packet, while the device waits before it answers. -/
theorem stateTracks_gotdata (hs : s.sState = .gotdata)
    (ht : StateTracks s idle hearing bytes log) :
    StateTracks (s.step hssupport input p) idle' hearing' bytes'
      (log ++ s.events input p bytes) := by
  simp only [StateTracks, hs] at ht
  obtain ⟨pid, howes⟩ := ht
  rw [step_eq hr, events_eq (by simp [hs])]
  simp only [UsbTransact.stateMachine, hs]
  split
  · exact ⟨pid, howes.log_append⟩
  · exact ⟨pid, howes.log_append⟩

/-- One edge while the identifier of a data packet waits to be taken. -/
theorem stateTracks_senddata (hs : s.sState = .senddata)
    (ht : StateTracks s idle hearing bytes log) :
    StateTracks (s.step hssupport input p) idle' hearing' bytes'
      (log ++ s.events input p bytes) := by
  simp only [StateTracks, hs] at ht
  rw [step_eq hr, events_eq (by simp [hs])]
  simp only [UsbTransact.stateMachine, hs]
  split
  · exact ht.log_append
  · exact ht.log_append

variable (h : PacketStep p idle idle' hearing hearing' bytes bytes')
include h

/-- One edge while nothing is under way: a packet starts with a token of interest, or it is
skipped. -/
theorem stateTracks_idle (hs : s.sState = .idle) (ht : StateTracks s idle hearing bytes log) :
    StateTracks (s.step hssupport input p) idle' hearing' bytes'
      (log ++ s.events input p bytes) := by
  simp only [StateTracks, hs] at ht
  rw [step_eq hr]
  simp only [UsbTransact.stateMachine, hs]
  split
  · exact stateTracks_startToken h ⟨rfl, rfl, rfl, rfl⟩ ht.1 ‹_› _
  · rename_i hrdy
    have hno := h.not_hearing ht.1 (.inl (by simpa using hrdy))
    simp [StateTracks, UsbTransact.clearFlags, hno]

/-- One edge while the identifier of a handshake waits to be taken. When it is, the transaction is
over. -/
theorem stateTracks_sendshake (hs : s.sState = .sendshake)
    (ht : StateTracks s idle hearing bytes log) :
    StateTracks (s.step hssupport input p) idle' hearing' bytes'
      (log ++ s.events input p bytes) := by
  simp only [StateTracks, hs] at ht
  obtain ⟨pid, howes⟩ := ht
  rw [step_eq hr]
  simp only [UsbTransact.stateMachine, hs]
  cases htx : p.pTxrdy with
  | true =>
    obtain ⟨hno, hnofin⟩ := h.tx htx
    have hevents : s.events input p bytes = [.shake s.sSendpid] := by
      simp [UsbTransact.events, UsbTransact.tRxrdy, hs, htx, hnofin]
    rw [hevents]
    obtain ⟨hflags, pre, a, es, rfl, hdue⟩ := howes
    exact ⟨hno, fun _ => ⟨pid, hflags, pre, a, _, List.append_assoc _ _ _,
      .answered hdue s.sSendpid⟩⟩
  | false =>
    have hevents : s.events input p bytes = if p.pRxfin then [.heard bytes] else [] := by
      simp [UsbTransact.events, UsbTransact.tRxrdy, hs, htx]
    rw [hevents]
    exact ⟨pid, howes.log_append⟩

/-- One edge while the payload of a data packet goes out. -/
theorem stateTracks_sending (hs : s.sState = .sending)
    (ht : StateTracks s idle hearing bytes log) :
    StateTracks (s.step hssupport input p) idle' hearing' bytes'
      (log ++ s.events input p bytes) := by
  simp only [StateTracks, hs] at ht
  rw [step_eq hr, events_eq (by simp [hs])]
  simp only [UsbTransact.stateMachine, hs]
  cases input.tSend with
  | true => exact ht.log_append
  | false =>
    cases hact : p.pRxact with
    | true => exact ht.log_append
    | false => exact ⟨h.ended hact, ht.log_append⟩

/-- One edge in a packet that may be an echo of the one that the device has sent. -/
theorem stateTracks_waitskip (hs : s.sState = .waitskip)
    (ht : StateTracks s idle hearing bytes log) :
    StateTracks (s.step hssupport input p) idle' hearing' bytes'
      (log ++ s.events input p bytes) := by
  simp only [StateTracks, hs] at ht
  rw [step_eq hr, events_eq (by simp [hs])]
  simp only [UsbTransact.stateMachine, hs]
  by_cases hzero : s.waitCount = 0
  · simp [hzero, StateTracks]
  · rw [if_neg hzero]
    cases hact : p.pRxact with
    | true => exact ht.log_append
    | false => exact ⟨h.ended hact, ht.log_append⟩

variable (hfin : s.sFinished = false)
include hfin

/-- One edge in a packet of no interest. Nothing is known of the log here, and nothing has to be.
-/
theorem stateTracks_skip (hs : s.sState = .skip) :
    StateTracks (s.step hssupport input p) idle' hearing' bytes'
      (log ++ s.events input p bytes) := by
  rw [step_eq hr]
  simp only [UsbTransact.stateMachine, hs]
  cases hact : p.pRxact with
  | false => exact ⟨h.ended hact, fun hf => by simp [hfin] at hf⟩
  | true => simp [StateTracks]

/-- One edge before the second byte of a token, which has the device address and the lowest bit of
the endpoint in it. -/
theorem stateTracks_gettoken1 (hs : s.sState = .gettoken1)
    (ht : StateTracks s idle hearing bytes log) :
    StateTracks (s.step hssupport input p) idle' hearing' bytes'
      (log ++ s.events input p bytes) := by
  simp only [StateTracks, hs] at ht
  obtain ⟨hbusy, pid, hflags, hpid, hbytes⟩ := ht
  rw [step_eq hr]
  simp only [UsbTransact.stateMachine, hs]
  cases hact : p.pRxact with
  | false => exact ⟨h.ended hact, fun hf => by simp [hfin] at hf⟩
  | true =>
    have hnofin : p.pRxfin = false := by
      by_contra hf
      simpa [hact] using (h.fin (by simpa using hf)).2.1
    have hbusy' := h.busy hact (.inr hbusy)
    cases hrdy : p.pRxrdy with
    | false =>
      have hsame : hearing' → bytes' = [pidByte pid] := fun hh => by
        obtain ⟨hyes, hb⟩ := h.append hbusy hh
        simpa [hrdy, hbytes hyes] using hb
      simp only [Bool.not_true, Bool.false_eq_true, if_false, StateTracks]
      exact ⟨hbusy', pid, hflags, hpid, hsame⟩
    | true =>
      by_cases haddr : p.pRxdat.extractLsb' 0 7 = input.tAddr
      · -- The token is for this device.
        have hlog : s.events input p bytes = [.addressed (p.pRxdat.extractLsb' 0 7)] := by
          simp [UsbTransact.events, UsbTransact.tRxrdy, hs, hact, hrdy, haddr, hnofin]
        have hnext : hearing' → bytes' = [pidByte pid, p.pRxdat] := fun hh => by
          obtain ⟨hyes, hb⟩ := h.append hbusy hh
          simpa [hrdy, hbytes hyes] using hb
        rw [hlog]
        simp only [Bool.not_true, Bool.false_eq_true, if_false, if_true, haddr, StateTracks]
        refine ⟨hbusy', pid, p.pRxdat, log, hflags, hpid, by rw [haddr],
          extractLsb'_endpt _ _, hnext⟩
      · simp [haddr, StateTracks]

/-- One edge before its third byte, which has the other bits of the endpoint in it. -/
theorem stateTracks_gettoken2 (hs : s.sState = .gettoken2)
    (ht : StateTracks s idle hearing bytes log) :
    StateTracks (s.step hssupport input p) idle' hearing' bytes'
      (log ++ s.events input p bytes) := by
  simp only [StateTracks, hs] at ht
  obtain ⟨hbusy, pid, b₁, pre, hflags, hpid, hlog, hendpt, hbytes⟩ := ht
  rw [step_eq hr, events_eq (by simp [hs])]
  simp only [UsbTransact.stateMachine, hs]
  cases hact : p.pRxact with
  | false => exact ⟨h.ended hact, fun hf => by simp [hfin] at hf⟩
  | true =>
    have hnofin : p.pRxfin = false := by
      by_contra hf
      simpa [hact] using (h.fin (by simpa using hf)).2.1
    have hbusy' := h.busy hact (.inr hbusy)
    rw [hnofin, if_neg Bool.false_ne_true, List.append_nil]
    cases hrdy : p.pRxrdy with
    | false =>
      have hsame : hearing' → bytes' = [pidByte pid, b₁] := fun hh => by
        obtain ⟨hyes, hb⟩ := h.append hbusy hh
        simpa [hrdy, hbytes hyes] using hb
      simp only [Bool.not_true, Bool.false_eq_true, if_false, StateTracks]
      exact ⟨hbusy', pid, b₁, pre, hflags, hpid,
        hlog, hendpt, hsame⟩
    | true =>
      have hnext : hearing' → ∃ more, bytes' = pidByte pid :: b₁ :: p.pRxdat :: more := fun hh => by
        obtain ⟨hyes, hb⟩ := h.append hbusy hh
        exact ⟨[], by simpa [hrdy, hbytes hyes] using hb⟩
      simp only [Bool.not_true, Bool.false_eq_true, if_false, if_true, StateTracks]
      exact ⟨hbusy', pid, b₁, p.pRxdat, pre, hflags, hpid, hlog, by rw [hendpt], hnext⟩

/-- One edge after its third byte: the token is confirmed, or it is given up. -/
theorem stateTracks_gettoken3 (hs : s.sState = .gettoken3)
    (ht : StateTracks s idle hearing bytes log) :
    StateTracks (s.step hssupport input p) idle' hearing' bytes'
      (log ++ s.events input p bytes) := by
  simp only [StateTracks, hs] at ht
  obtain ⟨hbusy, pid, b₁, b₂, pre, hflags, hpid, hlog, hendpt, hbytes⟩ := ht
  rw [step_eq hr, events_eq (by simp [hs])]
  simp only [UsbTransact.stateMachine, hs]
  cases hf : p.pRxfin with
  | true =>
    -- The token was good, and the whole of it has been seen.
    obtain ⟨hyes, hact, hgood⟩ := h.fin hf
    obtain ⟨more, hb⟩ := hbytes hyes
    simp only [if_true, StateTracks]
    refine ⟨h.ended hact, pid, hflags, hpid, pre,
      b₁.extractLsb' 0 7, bytes, ⟨⟨b₁, b₂, more, hb, rfl, hendpt⟩, hgood⟩, ?_⟩
    rw [hlog, List.append_assoc]
    rfl
  | false =>
    simp only [Bool.false_eq_true, if_false, List.append_nil]
    cases hact : p.pRxact with
    | false => exact ⟨h.ended hact, fun hf => by simp [hfin] at hf⟩
    | true =>
      have hbusy' := h.busy hact (.inr hbusy)
      have hnext : hearing' → ∃ more, bytes' = pidByte pid :: b₁ :: b₂ :: more := fun hh => by
        obtain ⟨hyes, hb⟩ := h.append hbusy hh
        obtain ⟨more, hmore⟩ := hbytes hyes
        exact ⟨_, by rw [hb, hmore]; rfl⟩
      simp only [Bool.not_true, Bool.false_eq_true, if_false, StateTracks]
      exact ⟨hbusy', pid, b₁, b₂, pre, hflags,
        hpid, hlog, hendpt, hnext⟩

/-- One edge after a confirmed token for this device: the data packet of an OUT or a SETUP starts,
or an answer is due, or a new token comes. -/
theorem stateTracks_gottoken (hs : s.sState = .gottoken)
    (ht : StateTracks s idle hearing bytes log) :
    StateTracks (s.step hssupport input p) idle' hearing' bytes'
      (log ++ s.events input p bytes) := by
  simp only [StateTracks, hs] at ht
  obtain ⟨hno, pid, hflags, hpid, pre, a, token, htoken, hlog⟩ := ht
  have hnofin : p.pRxfin = false := by
    by_contra hf
    exact hno (h.fin (by simpa using hf)).1
  rw [step_eq hr, events_eq (by simp [hs]), hnofin, if_neg Bool.false_ne_true, List.append_nil]
  simp only [UsbTransact.stateMachine, hs]
  show StateTracks (s.gottoken hssupport input p _) _ _ _ _
  obtain ⟨hin, hout, hsetup, hping⟩ := hflags
  have howes : pid = pidIn ∨ pid = pidPing → Owes s log pid := fun hk =>
    ⟨⟨hin, hout, hsetup, hping⟩, pre, a, _, hlog, .respond hk htoken []⟩
  unfold UsbTransact.gottoken
  split
  · rename_i hact
    split
    · rename_i hrdy
      split
      · -- The first byte of the data packet.
        rename_i hdata
        simp only [Bool.and_eq_true, Bool.or_eq_true, decide_eq_true_eq, hout, hsetup] at hdata
        have hlow : p.pRxdat.extractLsb' 0 4 =
            BitVec.ofBool (p.pRxdat.getLsbD 3) ++ pidData := by
          rw [← hdata.2]
          exact extractLsb'_pid p.pRxdat
        exact ⟨h.busy hact (.inl hrdy), pid, ⟨hin, hout, hsetup, hping⟩, hdata.1, pre, a, token, [],
          htoken, hlog, fun hh => by rw [(h.fresh hh hno).2.2, hlow]⟩
      · exact stateTracks_startToken h ⟨rfl, rfl, rfl, rfl⟩ hno hrdy _
    · rename_i hrdy
      have hno' := h.not_hearing hno (.inl (by simpa using hrdy))
      simp only [StateTracks]
      exact ⟨hno', pid, ⟨hin, hout, hsetup, hping⟩, hpid, pre, a, token, htoken, hlog⟩
  · rename_i hact
    have hover := h.ended (by simpa using hact)
    split
    · exact ⟨hover, fun hf => by simp [hfin] at hf⟩
    split
    · split
      · rename_i hyes
        obtain rfl : pid = pidIn := by simpa [hin] using hyes
        split
        · exact ⟨_, howes (.inl rfl)⟩
        split
        · exact ⟨_, howes (.inl rfl)⟩
        · exact howes (.inl rfl)
      split
      · rename_i hyes
        obtain rfl : pid = pidPing := by
          simp only [Bool.and_eq_true, hping, decide_eq_true_eq] at hyes
          exact hyes.2
        exact ⟨_, howes (.inr rfl)⟩
      · exact ⟨hover, fun hf => by simp [hfin] at hf⟩
    · simp only [StateTracks]
      exact ⟨hover, pid, ⟨hin, hout, hsetup, hping⟩, hpid, pre, a, token, htoken, hlog⟩

/-- One edge in the data packet of an OUT or a SETUP: it is confirmed, or it is given up. -/
theorem stateTracks_getdata (hs : s.sState = .getdata)
    (ht : StateTracks s idle hearing bytes log) :
    StateTracks (s.step hssupport input p) idle' hearing' bytes'
      (log ++ s.events input p bytes) := by
  simp only [StateTracks, hs] at ht
  obtain ⟨hbusy, pid, hflags, hpid, pre, a, token, data, htoken, hlog, hbytes⟩ := ht
  rw [step_eq hr]
  simp only [UsbTransact.stateMachine, hs]
  cases hf : p.pRxfin with
  | true =>
    -- The data packet was good, and the application has been given the bytes of it.
    obtain ⟨hyes, hact, hgood⟩ := h.fin hf
    have hnordy : p.pRxrdy = false := by
      by_contra hrdy
      simpa [hact] using h.rdy (by simpa using hrdy)
    have hevents : s.events input p bytes = [.heard bytes] := by
      simp [UsbTransact.events, UsbTransact.tRxrdy, hs, hnordy, hf]
    rw [hevents]
    rw [hbytes hyes] at hgood ⊢
    refine ⟨pid, hflags, pre, a, _, ?_, .receive hpid htoken data hgood []⟩
    rw [hlog]
    simp
  | false =>
    have hevents : s.events input p bytes = if p.pRxrdy then [.payload p.pRxdat] else [] := by
      simp [UsbTransact.events, UsbTransact.tRxrdy, hs, hf]
    rw [hevents]
    cases hact : p.pRxact with
    | false => exact ⟨h.ended hact, fun hf => by simp [hfin] at hf⟩
    | true =>
      simp only [Bool.not_true, Bool.false_eq_true, if_false, StateTracks]
      refine ⟨h.busy hact (.inr hbusy), pid, hflags, hpid, pre, a, token,
        data ++ (if p.pRxrdy then [p.pRxdat] else []), htoken, ?_, fun hh => ?_⟩
      · rw [hlog]
        cases p.pRxrdy <;> simp
      · obtain ⟨hyes, hb⟩ := h.append hbusy hh
        rw [hb, hbytes hyes]
        rfl

/-- One edge in the handshake of the host: it is confirmed, and the transaction is over, or it is
given up. -/
theorem stateTracks_getack (hs : s.sState = .getack)
    (ht : StateTracks s idle hearing bytes log) :
    StateTracks (s.step hssupport input p) idle' hearing' bytes'
      (log ++ s.events input p bytes) := by
  simp only [StateTracks, hs] at ht
  obtain ⟨hbusy, howes, hbytes⟩ := ht
  rw [step_eq hr, events_eq (by simp [hs])]
  simp only [UsbTransact.stateMachine, hs]
  cases hf : p.pRxfin with
  | true =>
    -- A handshake is good only if it has no other byte.
    obtain ⟨hyes, hact, hgood⟩ := h.fin hf
    have hack : bytes = [pidByte pidAck] := by
      cases bytes with
      | nil => simpa using hbytes hyes
      | cons b body =>
        obtain rfl : b = pidByte pidAck := by simpa using hbytes hyes
        rw [(goodPacket_handshake_iff (by decide) body).mp hgood]
    obtain ⟨hflags, pre, a, es, rfl, hdue⟩ := howes
    rw [hack]
    exact ⟨h.ended hact, fun _ => ⟨pidIn, hflags, pre, a, _, List.append_assoc _ _ _,
      .acknowledged hdue⟩⟩
  | false =>
    simp only [Bool.false_eq_true, if_false, List.append_nil]
    cases hact : p.pRxact with
    | false => exact ⟨h.ended hact, fun hf => by simp [hfin] at hf⟩
    | true =>
      simp only [Bool.not_true, Bool.false_eq_true, if_false, StateTracks]
      refine ⟨h.busy hact (.inr hbusy), howes, fun hh => ?_⟩
      obtain ⟨hyes, hb⟩ := h.append hbusy hh
      have hfirst := hbytes hyes
      cases bytes with
      | nil => simp at hfirst
      | cons b body => simpa [hb] using hfirst

/-- One edge while that handshake is waited for. A new token may come in its place. -/
theorem stateTracks_waitack (hs : s.sState = .waitack)
    (ht : StateTracks s idle hearing bytes log) :
    StateTracks (s.step hssupport input p) idle' hearing' bytes'
      (log ++ s.events input p bytes) := by
  simp only [StateTracks, hs] at ht
  obtain ⟨hno, howes⟩ := ht
  have hnofin : p.pRxfin = false := by
    by_contra hf
    exact hno (h.fin (by simpa using hf)).1
  rw [step_eq hr, events_eq (by simp [hs]), hnofin, if_neg Bool.false_ne_true, List.append_nil]
  simp only [UsbTransact.stateMachine, hs]
  show StateTracks (s.waitack hssupport p _) _ _ _ _
  obtain ⟨⟨hin, hout, hsetup, hping⟩, hlog⟩ := howes
  unfold UsbTransact.waitack
  split
  · rename_i hact
    split
    · rename_i hrdy
      have hbusy := h.busy hact (.inl hrdy)
      have hbytes : hearing' → bytes' = [pidByte (p.pRxdat.extractLsb' 0 4)] :=
        fun hh => (h.fresh hh hno).2.2
      obtain ⟨pid, hpid⟩ : ∃ pid, pid = p.pRxdat.extractLsb' 0 4 := ⟨_, rfl⟩
      rw [← hpid] at hbytes
      simp only [← hpid]
      split
      · subst pid
        rename_i hack
        exact ⟨hbusy, ⟨⟨hin, hout, hsetup, hping⟩, hlog⟩, fun hh => by rw [hbytes hh, hack]; rfl⟩
      split
      · rename_i hk
        exact ⟨hbusy, pidOut, ⟨rfl, rfl, hsetup, hping⟩, .inr (.inl rfl), hk ▸ hbytes⟩
      split
      · rename_i hk
        exact ⟨hbusy, pidIn, ⟨rfl, hout, hsetup, hping⟩, .inl rfl, hk ▸ hbytes⟩
      split
      · rename_i hk
        exact ⟨hbusy, pidSetup, ⟨rfl, hout, rfl, hping⟩, .inr (.inr (.inl rfl)), hk ▸ hbytes⟩
      split
      · rename_i hk
        split
        · exact ⟨hbusy, pidPing, ⟨rfl, hout, hsetup, rfl⟩, .inr (.inr (.inr rfl)), hk ▸ hbytes⟩
        · trivial
      · exact ⟨⟨hin, hout, hsetup, hping⟩, hlog⟩
    · rename_i hrdy
      have hno' := h.not_hearing hno (.inl (by simpa using hrdy))
      simp only [StateTracks]
      exact ⟨hno', ⟨hin, hout, hsetup, hping⟩, hlog⟩
  · rename_i hact
    have hover := h.ended (by simpa using hact)
    split
    · exact ⟨hover, fun hf => by simp [hfin] at hf⟩
    split
    · exact ⟨hover, fun hf => by simp [hfin] at hf⟩
    · simp only [StateTracks]
      exact ⟨hover, ⟨hin, hout, hsetup, hping⟩, hlog⟩

end

end

/-! ### The flag of a completed transaction -/

/-- A token that starts does not touch the flag of the transaction before it. -/
theorem sFinished_startToken (s : UsbTransact) (hssupport : Bool) (p : PacketOut) :
    (s.startToken hssupport p).sFinished = s.sFinished := by
  unfold UsbTransact.startToken
  dsimp only
  repeat' split
  all_goals rfl

/-- `T_FIN` is set on the way to `ST_IDLE` and cleared there. -/
theorem sState_of_sFinished {hssupport : Bool} {s : UsbTransact} {input : TransactIn}
    {p : PacketOut} (hr : input.reset = false) (hfin : s.sFinished = true → s.sState = .idle)
    (h : (s.step hssupport input p).sFinished = true) :
    s.sState ≠ .idle ∧ (s.step hssupport input p).sState = .idle := by
  rw [step_eq hr] at h ⊢
  cases hs : s.sState with
  | idle =>
    simp only [UsbTransact.stateMachine, hs] at h
    split at h
    · simp [sFinished_startToken] at h
    · simp at h
  | sendshake =>
    have hno : s.sFinished = false := by simpa [hs] using hfin
    simp only [UsbTransact.stateMachine, hs] at h ⊢
    split
    · exact ⟨nofun, rfl⟩
    · simp_all
  | getack =>
    have hno : s.sFinished = false := by simpa [hs] using hfin
    simp only [UsbTransact.stateMachine, hs] at h ⊢
    cases hgood : p.pRxfin with
    | true => exact ⟨nofun, rfl⟩
    | false => cases hact : p.pRxact <;> simp [hgood, hact, hno] at h
  | gottoken =>
    have hno : s.sFinished = false := by simpa [hs] using hfin
    simp only [UsbTransact.stateMachine, hs, UsbTransact.countDown, UsbTransact.gottoken] at h
    revert h
    repeat' split
    all_goals simp [hno, sFinished_startToken, UsbTransact.clearFlags]
  | waitack =>
    have hno : s.sFinished = false := by simpa [hs] using hfin
    simp only [UsbTransact.stateMachine, hs, UsbTransact.countDown, UsbTransact.waitack] at h
    revert h
    repeat' split
    all_goals simp [hno]
  | _ =>
    have hno : s.sFinished = false := by simpa [hs] using hfin
    simp only [UsbTransact.stateMachine, hs, UsbTransact.countDown] at h
    revert h
    repeat' split
    all_goals simp [hno]

/-! ### The device -/

namespace UsbDevice

/-- The device after a reset in a pause of the line. -/
structure Started (d : UsbDevice) : Prop where
  packet : d.packet.Started
  state : d.transact.sState = .idle
  finished : d.transact.sFinished = false

/-- The invariant of the two entities. -/
structure Tracks (d : UsbDevice) (h : Heard) (log : List Event) : Prop where
  receiving : UsbPacket.Receiving False d.packet h
  finished : d.transact.sFinished = true → d.transact.sState = .idle
  state : StateTracks d.transact (d.packet.sState = .none) d.packet.Hearing h.bytes log

/-- A device after a reset tracks the empty log. -/
theorem Started.tracks {d : UsbDevice} (hd : d.Started) : d.Tracks Heard.start [] where
  receiving := by simp [UsbPacket.Receiving, hd.packet.state, hd.packet.good, Heard.start]
  finished := fun hf => hd.state
  state := by
    have hno : ¬ d.packet.Hearing := by simp [UsbPacket.Hearing, hd.packet.state]
    simp [StateTracks, hd.state, hd.finished, hno]

variable {hssupport : Bool} {d : UsbDevice} {h : Heard} {log : List Event}

/-- One edge of the whole device: the packet layer, and the transaction layer on its outputs. -/
theorem Tracks.step (ht : d.Tracks h log) {input : UsbDeviceIn} (hr : input.app.reset = false)
    (hc : input.pChirpk = false) :
    (d.step hssupport input).Tracks (h.next d.packet.rxLine)
      (log ++ d.transact.events input.app d.packetOut h.bytes) := by
  have hpacket := @UsbPacket.Receiving.packetStep d.packet (d.packetIn input) h ht.receiving hr hc
  refine ⟨ht.receiving.step hr hc False.elim, fun hf => (sState_of_sFinished hr ht.finished hf).2,
    ?_⟩
  have hno : d.transact.sState ≠ .idle → d.transact.sFinished = false := fun hs => by
    by_contra hf
    exact hs (ht.finished (by simpa using hf))
  cases hs : d.transact.sState with
  | idle => exact stateTracks_idle hr hpacket hs ht.state
  | skip => exact stateTracks_skip hr hpacket (hno (by simp [hs])) hs
  | gettoken1 => exact stateTracks_gettoken1 hr hpacket (hno (by simp [hs])) hs ht.state
  | gettoken2 => exact stateTracks_gettoken2 hr hpacket (hno (by simp [hs])) hs ht.state
  | gettoken3 => exact stateTracks_gettoken3 hr hpacket (hno (by simp [hs])) hs ht.state
  | gottoken => exact stateTracks_gottoken hr hpacket (hno (by simp [hs])) hs ht.state
  | sendshake => exact stateTracks_sendshake hr hpacket hs ht.state
  | getdata => exact stateTracks_getdata hr hpacket (hno (by simp [hs])) hs ht.state
  | gotdata => exact stateTracks_gotdata hr hs ht.state
  | senddata => exact stateTracks_senddata hr hs ht.state
  | sending => exact stateTracks_sending hr hpacket hs ht.state
  | waitack => exact stateTracks_waitack hr hpacket (hno (by simp [hs])) hs ht.state
  | waitskip => exact stateTracks_waitskip hr hpacket hs ht.state
  | getack => exact stateTracks_getack hr hpacket (hno (by simp [hs])) hs ht.state

section
variable (hd : d.Started) {ins : Nat → UsbDeviceIn}
  (hctl : ∀ t, (ins t).app.reset = false ∧ (ins t).pChirpk = false)
include hd hctl

/-- The invariant along a run. The log is read off the line and off the outputs of the entity, not
off its registers. -/
theorem tracks_run (t : Nat) : (deviceAt hssupport d ins t).Tracks (heardAt hssupport d ins t)
    (logAt hssupport d ins t) := by
  induction t with
  | zero => exact hd.tracks
  | succ t ih => exact ih.step (hctl t).1 (hctl t).2

/-- **Behind each `T_FIN` there is a transaction.** Exactly one of `T_IN`, `T_OUT`, `T_SETUP` and
`T_PING` is high with it, and the log ends with a transaction of this kind: a good token for the
endpoint `T_ENDPT` of the device; for OUT and SETUP a good data packet with the sync bit `T_OSYNC`,
whose bytes are those that were given to the application; and the handshake, or for IN perhaps the
one of the host. `T_FIN` lasts for one cycle. -/
theorem tFin_completed (t : Nat) (hfin : (deviceAt hssupport d ins t).transact.tFin = true) :
    (∃ pid, ((deviceAt hssupport d ins t).transact.tIn = decide (pid = pidIn) ∧
        (deviceAt hssupport d ins t).transact.tOut = decide (pid = pidOut) ∧
        (deviceAt hssupport d ins t).transact.tSetup = decide (pid = pidSetup) ∧
        (deviceAt hssupport d ins t).transact.tPing = decide (pid = pidPing)) ∧
      ∃ pre a es, logAt hssupport d ins t = pre ++ es ∧
        Completed a (deviceAt hssupport d ins t).transact.sEndpt
          (deviceAt hssupport d ins t).transact.sOsync pid es) ∧
      (deviceAt hssupport d ins (t + 1)).transact.tFin = false := by
  obtain ⟨-, hidle, hstate⟩ := @tracks_run hssupport d hd ins hctl t
  have hs := hidle hfin
  simp only [StateTracks, hs] at hstate
  obtain ⟨pid, ⟨hin, hout, hsetup, hping⟩, hlog⟩ := hstate.2 hfin
  refine ⟨⟨pid, ?_, hlog⟩, ?_⟩
  · simp [UsbTransact.tIn, UsbTransact.tOut, UsbTransact.tSetup, UsbTransact.tPing,
      UsbTransact.sActive, hs, hin, hout, hsetup, hping]
  · by_contra hagain
    exact (sState_of_sFinished (hctl t).1 hidle ((Bool.not_eq_false _).mp hagain)).1 hs

/-- **The device speaks only when it is asked.** While `P_TXACT` is high, the log ends with a
transaction that waits for the device: a good token for it, and for OUT and SETUP a good data
packet. -/
theorem pTxact_due (t : Nat)
    (htx : (deviceAt hssupport d ins t).transact.pTxact (ins t).app = true) :
    ∃ pid, (deviceAt hssupport d ins t).transact.Flags pid ∧ ∃ pre a es,
      logAt hssupport d ins t = pre ++ es ∧ Due a (deviceAt hssupport d ins t).transact.sEndpt
        (deviceAt hssupport d ins t).transact.sOsync pid es := by
  have hstate := (@tracks_run hssupport d hd ins hctl t).state
  simp only [UsbTransact.pTxact, Bool.or_eq_true, Bool.and_eq_true, decide_eq_true_eq] at htx
  rcases htx with (hs | hs) | ⟨hs, -⟩
  · simp only [StateTracks, hs] at hstate
    exact hstate
  · simp only [StateTracks, hs] at hstate
    exact ⟨_, hstate⟩
  · simp only [StateTracks, hs] at hstate
    exact ⟨_, hstate⟩

end

/-- The two entities after a reset. -/
def initial : UsbDevice where
  packet := UsbPacket.initial
  transact := ⟨.idle, false, false, false, false, false, false, 0, 0, false, 0⟩

/-- The registers after a reset are such a start. -/
theorem started_initial : initial.Started := ⟨UsbPacket.started_initial, rfl, rfl⟩

/-- The host sends the byte `0x5A` to the endpoint 0 of the device 0. -/
def outLine : List (Option Byte) :=
  [some 0xE1, some 0x00, some 0x10, none, none, some 0xC3, some 0x5A, some 0xC0, some 0x84]

/-- The inputs of an OUT transfer, cycle by cycle. -/
def outRun (t : Nat) : UsbDeviceIn where
  app := ⟨false, 0, false, false, false, false, false, 0, true⟩
  pChirpk := false
  phy := match outLine.getD t none with
    | some b => ⟨b, false, true, true, false⟩
    | none => ⟨0, false, false, false, false⟩

/-- The run of an OUT transaction: token, data packet, acknowledgement. -/
theorem tFin_completed_out : (deviceAt true initial outRun 16).transact.tFin = true ∧
    ∃ pid pre a es, logAt true initial outRun 16 = pre ++ es ∧
      Completed a (deviceAt true initial outRun 16).transact.sEndpt
        (deviceAt true initial outRun 16).transact.sOsync pid es := by
  have hfin : (deviceAt true initial outRun 16).transact.tFin = true := by decide +kernel
  obtain ⟨⟨pid, -, pre, a, es, hlog, hdone⟩, -⟩ :=
    tFin_completed started_initial (fun _ => ⟨rfl, rfl⟩) 16 hfin
  exact ⟨hfin, pid, pre, a, es, hlog, hdone⟩

/-- The same run, two cycles earlier: the acknowledgement that is being sent is due. -/
theorem pTxact_due_out :
    (deviceAt true initial outRun 14).transact.pTxact (outRun 14).app = true ∧
    ∃ pid pre a es, logAt true initial outRun 14 = pre ++ es ∧
      Due a (deviceAt true initial outRun 14).transact.sEndpt
        (deviceAt true initial outRun 14).transact.sOsync pid es := by
  have htx : (deviceAt true initial outRun 14).transact.pTxact (outRun 14).app = true := by
    decide +kernel
  obtain ⟨pid, -, pre, a, es, hlog, hdue⟩ :=
    pTxact_due started_initial (fun _ => ⟨rfl, rfl⟩) 14 htx
  exact ⟨htx, pid, pre, a, es, hlog, hdue⟩

end UsbDevice

end VivadoTest.InputTest
