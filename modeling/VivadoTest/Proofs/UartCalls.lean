import VivadoTest.Proofs.MemoryMap
import VivadoTest.Proofs.UartAddress

/-!
# `VivadoTest.Proofs.UartCalls`: calls of the host and accesses on the bus

A call goes through stages, each of which leads to the next (`LeadsTo`): its characters arrive
one by one, the last one requests the bus, the access is made (`At.write`, `At.read`), and
behind a read the four characters of the answer go back (`leadsTo_answer`). Between two calls
the line is `Ready`.

The eight cycles between two characters keep the next character away from a request
(`Ready.take`). A host that waits for an answer sends nothing, so a read needs no such room.

* `UartLine.calls_correspond`: a sequence of calls is the same sequence of accesses.

## The stages of a call

A call is taken apart by what the line waits for. While it waits for a character, or for the
transmitter, any number of cycles pass (`LeadsTo.wait`); an access takes a fixed number of them
(`At.write` three, `At.read` five). The predicates on a time are made of the four parts of
`TextLine`: `At` says what the parser, the host, the bus and the transmitter are doing, and `next`
is the one lemma that moves all of them by a cycle.

The log of a run is the list of accesses that the bus shows, with the byte that a read is given. So
the result is about order and about number: no access is lost, none is made twice, and what a read
returns to the host is the byte that the bus presented in the cycle behind its pulse. The address of
the pulse is still on the bus then (`UartLine.address_kept`), so it is the byte that the addressed
location presents.
-/

set_option autoImplicit false

namespace VivadoTest.Spec

open VivadoTest.Framework VivadoTest.Host

/-! ### The bus between two commands, and after one -/

namespace AccessRegs

/-- No command under way. -/
def idle (d : Byte) (a : BitVec 16) (v : Byte) : AccessRegs :=
  ⟨false, false, false, false, false, false, false, d, a, v⟩

/-- A write in its three cycles: requested, granted, on the bus. -/
def writing (d : Byte) (a : BitVec 16) (v : Byte) : Fin 3 → AccessRegs
  | 0 => { idle d a v with iWriteReq := true }
  | 1 => { idle d a v with iWriteReq := true, uartGnt := true }
  | 2 => { idle d a v with iIntWrite := true, uartGnt := true }

/-- A read in its five cycles: requested, granted, on the bus, sampled, done. -/
def reading (d : Byte) (a : BitVec 16) (v : Byte) : Fin 5 → AccessRegs
  | 0 => { idle d a v with iReadReq := true }
  | 1 => { idle d a v with iReadReq := true, uartGnt := true }
  | 2 => { idle d a v with iIntRead := true, uartGnt := true }
  | 3 => { idle d a v with readDone := true }
  | 4 => { idle d a v with readDoneS := true }

/-- The operations of a character in the abstract parser are those of the command that it ends. -/
theorem ops_eq (p : UartParser) (c : Byte) : p.ops c =
    if endsCommand p (some c) then
      (if p.writeOp then [.write p.addrParam p.dataParam] else []) ++
        (if p.readOp then [.read p.addrParam] else [])
    else [] := by
  simp [UartParser.ops, endsCommand]

/-- A character starts no access, a write, or a read among others. -/
theorem ops_cases (p : UartParser) (c : Byte) : p.ops c = [] ∨
    (∃ address value, p.ops c = [.write address value]) ∨ ∃ address, .read address ∈ p.ops c := by
  rw [ops_eq]
  by_cases hend : endsCommand p (some c) = true
  · rw [if_pos hend]
    cases hwrite : p.writeOp <;> cases hread : p.readOp <;> simp
  · exact Or.inl (if_neg hend)

section
variable {p : UartParser} {c : Byte} (d : Byte) (a : BitVec 16) (v rdData : Byte)

/-- A character that ends no command, or one without an operation, leaves the bus idle. -/
theorem step_idle_of_no_op (h : p.ops c = []) :
    ∃ a', (idle d a v).step p (some c) rdData = idle d a' v := by
  rw [ops_eq] at h
  by_cases hend : endsCommand p (some c) = true
  · rw [if_pos hend] at h
    cases hwrite : p.writeOp <;> cases hread : p.readOp <;> simp [hwrite, hread] at h
    exact ⟨p.addrParam, by simp [step, idle, hend, hwrite, hread]⟩
  · exact ⟨a, by simp [step, idle, hend]⟩

/-- A character that ends a write command sets the request, with the address and the value of the
command in the registers of the bus. -/
theorem step_idle_of_write {address : BitVec 16} {value : Byte}
    (h : p.ops c = [.write address value]) :
    (idle d a v).step p (some c) rdData = writing value address v 0 := by
  rw [ops_eq] at h
  by_cases hend : endsCommand p (some c) = true
  · rw [if_pos hend] at h
    cases hwrite : p.writeOp <;> cases hread : p.readOp <;> simp [hwrite, hread] at h
    obtain ⟨rfl, rfl⟩ := h
    simp [step, idle, writing, hend, hwrite, hread]
  · rw [if_neg hend] at h
    exact absurd h (List.cons_ne_nil _ _).symm

/-- A character that ends a read command sets the other request. -/
theorem step_idle_of_read {address : BitVec 16} (h : p.ops c = [.read address]) :
    (idle d a v).step p (some c) rdData = reading d address v 0 := by
  rw [ops_eq] at h
  by_cases hend : endsCommand p (some c) = true
  · rw [if_pos hend] at h
    cases hwrite : p.writeOp <;> cases hread : p.readOp <;> simp [hwrite, hread] at h
    subst h
    simp [step, idle, reading, hend, hwrite, hread]
  · rw [if_neg hend] at h
    exact absurd h (List.cons_ne_nil _ _).symm

end

/-- The byte read arrives while the bus waits without a character. -/
theorem step_reading_three (p : UartParser) (d : Byte) (a : BitVec 16) (v rdData : Byte) :
    (reading d a v 3).step p none rdData = reading d a rdData 4 := rfl

end AccessRegs

/-! ### The four characters of an answer -/

namespace TxRegs

/-- The transmit side when no answer is under way. The end of the last character of an answer may
still have to be noticed. -/
structure Free (x : TxRegs) : Prop where
  txBusy : x.txBusy = false
  newTxData : x.newTxData = false
  txSm : x.txSm = .txIdle ∨ x.txSm = .txCharLF ∧ x.sTxBusy = true

/-- No answer is under way, and the end of the last one has been noticed. -/
def Idle (x : TxRegs) : Prop := x.Free ∧ x.txSm = .txIdle

/-- The character that is sent in a state. -/
def code (v : Byte) : TxState → Byte
  | .txIdle => 0
  | .txHiNib => nibbleCode (v.extractLsb' 4 4)
  | .txLoNib => nibbleCode (v.extractLsb' 0 4)
  | .txCharCR => 0x0D
  | .txCharLF => 0x0A

/-- The state after a byte has been sent. -/
def succ : TxState → TxState
  | .txIdle => .txIdle
  | .txHiNib => .txLoNib
  | .txLoNib => .txCharCR
  | .txCharCR => .txCharLF
  | .txCharLF => .txIdle

/-- The character of the state `st` is handed to the transmitter. -/
structure Starting (st : TxState) (v : Byte) (x : TxRegs) : Prop where
  txSm : x.txSm = st
  txData : x.txData = code v st
  newTxData : x.newTxData = true
  sTxBusy : x.sTxBusy = false
  txBusy : x.txBusy = false

/-- The transmitter sends the character of the state `st`. -/
structure Sending (st : TxState) (v : Byte) (x : TxRegs) : Prop where
  txSm : x.txSm = st
  newTxData : x.newTxData = false
  txBusy : x.txBusy = true
  sending : x.sending = code v st

/-- The transmitter has just ended the character of the state `st`. -/
structure Ended (st : TxState) (x : TxRegs) : Prop where
  txSm : x.txSm = st
  newTxData : x.newTxData = false
  sTxBusy : x.sTxBusy = true
  txBusy : x.txBusy = false

variable {x : TxRegs} {st : TxState} {v : Byte}

/-- A transmitter that is free stays so, as long as nothing is handed to it. -/
theorem Free.step (h : x.Free) (w : Byte) (txDone : Bool) :
    (x.step false w txDone).Idle := by
  rcases h.txSm with hsm | ⟨hsm, hbusy⟩
  · have hnext : x.next false w = (.txIdle, x.txData, false) := by simp [next, hsm]
    refine ⟨⟨?_, ?_, Or.inl ?_⟩, ?_⟩ <;> simp [TxRegs.step, hnext, h.txBusy, h.newTxData]
  · have hnext : x.next false w = (.txIdle, x.txData, false) := by
      simp [next, hsm, txEndP, hbusy, h.txBusy]
    refine ⟨⟨?_, ?_, Or.inl ?_⟩, ?_⟩ <;> simp [TxRegs.step, hnext, h.txBusy, h.newTxData]

/-- A byte that is ready starts an answer. -/
theorem Idle.start (h : x.Idle) (v : Byte) (txDone : Bool) :
    (x.step true v txDone).Starting .txHiNib v := by
  have hnext : x.next true v = (.txHiNib, code v .txHiNib, true) := by simp [next, h.2, code]
  constructor <;> simp [TxRegs.step, hnext, h.1.txBusy, h.1.newTxData]

/-- A character that has been handed over is on its way one cycle later. -/
theorem Starting.step (h : x.Starting st v) (hst : st ≠ .txIdle) (txDone : Bool) :
    (x.step false v txDone).Sending st v := by
  have hnext : x.next false v = (st, x.txData, false) := by
    cases st with
    | txIdle => exact absurd rfl hst
    | _ => simp [next, h.txSm, txEndP, h.sTxBusy]
  constructor <;> simp [TxRegs.step, hnext, h.txBusy, h.newTxData, h.txData]

/-- While it is, the state machine waits and hands over nothing more. -/
theorem Sending.next_eq (h : x.Sending st v) (hst : st ≠ .txIdle) :
    x.next false v = (st, x.txData, false) := by
  cases st with
  | txIdle => exact absurd rfl hst
  | _ => simp [next, h.txSm, txEndP, h.txBusy]

/-- It goes on until the transmitter reports its end. -/
theorem Sending.wait (h : x.Sending st v) (hst : st ≠ .txIdle) :
    (x.step false v false).Sending st v := by
  constructor <;> simp [TxRegs.step, h.next_eq hst, h.txBusy, h.sending]

/-- The report is one cycle long. -/
theorem Sending.done (h : x.Sending st v) (hst : st ≠ .txIdle) :
    (x.step false v true).Ended st := by
  constructor <;> simp [TxRegs.step, h.next_eq hst, h.txBusy]

/-- The next character of an answer is handed over behind the end of the one before. -/
theorem Ended.step (h : x.Ended st) (hst : st ≠ .txIdle) (hlast : st ≠ .txCharLF) (v : Byte)
    (txDone : Bool) : (x.step false v txDone).Starting (succ st) v := by
  have hnext : x.next false v = (succ st, code v (succ st), true) := by
    cases st with
    | txIdle => exact absurd rfl hst
    | txCharLF => exact absurd rfl hlast
    | _ => simp [next, h.txSm, txEndP, h.sTxBusy, h.txBusy, succ, code]
  constructor <;> simp [TxRegs.step, hnext, h.txBusy, h.newTxData]

/-- Behind the line feed, which is the last one, the transmitter is free. -/
theorem Ended.free (h : x.Ended .txCharLF) : x.Free :=
  ⟨h.txBusy, h.newTxData, Or.inr ⟨h.txSm, h.sTxBusy⟩⟩

end TxRegs

end VivadoTest.Spec

namespace VivadoTest.Host

open VivadoTest.Lib VivadoTest.Framework VivadoTest.Spec

variable {N : Nat}

/-! ### The host -/

/-- A host that waits for four characters goes on waiting while there are fewer. -/
theorem HostState.answer_of_short {h : HostState} (hshort : h.inBuffer.length < 4) :
    h.answer = h := by
  unfold answer
  split
  · rw [if_neg (by omega)]
  · rfl

/-- The character of a nibble is back what it was. -/
theorem ofNat_nibbleCode (n : BitVec 4) : Char.ofNat (nibbleCode n).toNat = txChar n := by
  revert n
  decide

/-- The four characters of an answer. -/
def answerCodes (v : Byte) : List Byte :=
  [TxRegs.code v .txHiNib, TxRegs.code v .txLoNib, TxRegs.code v .txCharCR, TxRegs.code v .txCharLF]

/-- With the fourth character, `_readByte` returns. -/
theorem HostState.answer_of_answerCodes (rest : List HostAction) (results : List (Option Int))
    (v : Byte) :
    (HostState.mk (.read4 :: rest) (answerCodes v) results).answer
      = ⟨rest, [], results ++ [some (v.toNat : Int)]⟩ := by
  have hchars : (answerCodes v).map (fun c => Char.ofNat c.toNat) = readAnswer v := by
    simp only [answerCodes, TxRegs.code, List.map_cons, List.map_nil, ofNat_nibbleCode]
    rfl
  have htake : (answerCodes v).take 4 = answerCodes v := rfl
  show HostState.mk rest _ _ = _
  rw [htake, hchars, readByteResult_readAnswer]
  rfl

/-! ### The line at a time -/

section
variable (w : UartLine N) (ins : Nat → LineIn N)

/-- The line after `t` cycles, in the parts of its view. -/
structure At (p : UartParser) (h : HostState) (a : AccessRegs) (X : TxRegs → Prop) (t : Nat) :
    Prop where
  binReadOp : (trajectory UartLine.step w ins t).parser.binReadOp = false
  binWriteOp : (trajectory UartLine.step w ins t).parser.binWriteOp = false
  mainSm : p.mainSm ≠ .mainBinCmd
  parser : (trajectory UartLine.step w ins t).view.parser = p
  host : (trajectory UartLine.step w ins t).view.host = h
  access : (trajectory UartLine.step w ins t).view.access = a
  tx : X (trajectory UartLine.step w ins t).view.tx

/-- Between two characters: nothing is under way on the bus or back to the host. -/
def Ready (p : UartParser) (h : HostState) (t : Nat) : Prop :=
  ∃ d a v, At w ins p h (.idle d a v) TxRegs.Free t

end

section
variable {w : UartLine N} {ins : Nat → LineIn N} {p p' : UartParser} {h h' : HostState}
variable {a : AccessRegs} {X X' : TxRegs → Prop} {t : Nat}

namespace At

/-- The step rule of the views: what holds of the parser, the host, the access and the transmitter
after a cycle, when the cycle does to each of them what is said of it here. All other rules are
instances. -/
theorem next (hat : At w ins p h a X t) {c : Option Byte}
    (hc : (if (ins t).arrives then h.nextChar else none) = c)
    (hp : c.elim p p.rx = p') (hp' : p'.mainSm ≠ .mainBinCmd)
    (hh : ∀ x, X x →
      (if x.txBusy && (ins t).txDone then (if (ins t).arrives then h.sent else h).receive x.sending
        else if (ins t).arrives then h.sent else h).answer = h')
    (hX : ∀ x, X x → X' (x.step a.readDoneS a.readDataS (ins t).txDone)) :
    At w ins p' h' (a.step p c ((trajectory UartLine.step w ins t).presented (ins t))) X'
      (t + 1) := by
  -- Text mode lets the line step as its view, register by register.
  have hmode : (trajectory UartLine.step w ins t).parser.TextMode := by
    refine ⟨?_, hat.binReadOp, hat.binWriteOp⟩
    rw [show (trajectory UartLine.step w ins t).parser.view = p from hat.parser]
    exact hat.mainSm
  obtain ⟨hview, hread, hwrite⟩ := UartLine.view_step _ (ins t) hmode
  have hreceived : (trajectory UartLine.step w ins t).view.received (ins t).arrives = c := by
    unfold TextLine.received
    rw [hat.host, hc]
  refine ⟨hread, hwrite, hp', ?_, ?_, ?_, ?_⟩
  · rw [trajectory_succ, hview]
    show ((trajectory UartLine.step w ins t).view.received (ins t).arrives).elim _ _ = p'
    rw [hreceived, hat.parser]
    exact hp
  · rw [trajectory_succ, hview, ← hh _ hat.tx, ← hat.host]
    rfl
  · rw [trajectory_succ, hview]
    show (trajectory UartLine.step w ins t).view.access.step _ _ _ = _
    rw [hreceived, hat.parser, hat.access]
  · rw [trajectory_succ, hview]
    show X' ((trajectory UartLine.step w ins t).view.tx.step _ _ _)
    rw [hat.access]
    exact hX _ hat.tx

/-- What the view of the access says of the bus is what the bus shows. -/
theorem bus_eq (hat : At w ins p h a X t) : (trajectory UartLine.step w ins t).parser.bus = a.bus :=
  congrArg AccessRegs.bus hat.access

/-- A cycle without a pulse on the bus is not seen. -/
theorem accesses_of_no_pulse (hat : At w ins p h a X t) (hwrite : a.iIntWrite = false)
    (hread : a.iIntRead = false) : accesses w ins (t + 1) = accesses w ins t := by
  rw [accesses, hat.bus_eq]
  simp [pulses, AccessRegs.bus, hwrite, hread]

end At

/-- Less may be known of the transmitter. -/
theorem At.mono (hat : At w ins p h a X t) (hX : ∀ x, X x → X' x) : At w ins p h a X' t :=
  ⟨hat.binReadOp, hat.binWriteOp, hat.mainSm, hat.parser, hat.host, hat.access, hX _ hat.tx⟩

/-- What a character that arrives now would do to the host: nothing, if it does not send. -/
structure Silent (ins : Nat → LineIn N) (h : HostState) (t : Nat) : Prop where
  nextChar : (if (ins t).arrives then h.nextChar else none) = none
  sent : (if (ins t).arrives then h.sent else h) = h

/-- A cycle in which no character arrives is silent. -/
theorem Silent.of_not_arrives (harr : (ins t).arrives = false) : Silent ins h t := by
  constructor <;> rw [harr] <;> rfl

/-- So is every cycle of a host that has nothing to send. -/
theorem Silent.of_not_sending (hnext : h.nextChar = none) (hsent : h.sent = h) :
    Silent ins h t := by
  constructor
  · rw [hnext, ite_self]
  · rw [hsent, ite_self]

/-- A cycle in which no character arrives and no answer is under way. -/
theorem At.pass (hat : At w ins p h a TxRegs.Free t) (hsilent : Silent ins h t)
    (hbuffer : h.inBuffer = []) (hdone : a.readDoneS = false) :
    At w ins p h (a.step p none ((trajectory UartLine.step w ins t).presented (ins t)))
      TxRegs.Idle (t + 1) := by
  refine hat.next hsilent.nextChar rfl hat.mainSm ?_ ?_
  · intro x hx
    rw [hsilent.sent, hx.txBusy, Bool.false_and, if_neg Bool.false_ne_true]
    exact HostState.answer_of_short (by rw [hbuffer]; exact Nat.succ_pos 3)
  · intro x hx
    rw [hdone]
    exact hx.step _ _

/-- A cycle in which the line takes a character of a command. -/
theorem At.take {c : Byte} {rest : List HostAction} {results : List (Option Int)}
    (hat : At w ins p ⟨.send c :: rest, [], results⟩ a TxRegs.Free t)
    (harr : (ins t).arrives = true) (hdone : a.readDoneS = false)
    (hrx : (p.rx c).mainSm ≠ .mainBinCmd) :
    At w ins (p.rx c) ⟨rest, [], results⟩
      (a.step p (some c) ((trajectory UartLine.step w ins t).presented (ins t)))
      TxRegs.Idle (t + 1) := by
  refine hat.next (c := some c) ?_ rfl hrx ?_ ?_
  · rw [if_pos harr]
    rfl
  · intro x hx
    rw [if_pos harr, hx.txBusy, Bool.false_and, if_neg Bool.false_ne_true]
    exact HostState.answer_of_short (Nat.succ_pos 3)
  · intro x hx
    rw [hdone]
    exact hx.step _ _

/-- A silent cycle of a line that is ready changes nothing: no access, and the line is ready
again. -/
theorem Ready.pass (hready : Ready w ins p h t) (hsilent : Silent ins h t)
    (hbuffer : h.inBuffer = []) :
    accesses w ins (t + 1) = accesses w ins t ∧ Ready w ins p h (t + 1) := by
  obtain ⟨d, a, v, hat⟩ := hready
  exact ⟨hat.accesses_of_no_pulse rfl rfl, d, a, v,
    (hat.pass hsilent hbuffer rfl).mono fun _ hx => hx.1⟩

/-! ### A write -/

/-- The write in its three cycles, in which no character arrives. -/
theorem At.write {d : Byte} {address : BitVec 16} {v : Byte}
    (hat : At w ins p h (.writing d address v 0) TxRegs.Free t)
    (hquiet : ∀ k < 3, (ins (t + k)).arrives = false) (hbuffer : h.inBuffer = []) :
    ∃ v', accesses w ins (t + 3) = accesses w ins t ++ [(.write address d, v')] ∧
      Ready w ins p h (t + 3) := by
  have hsilent : ∀ k < 3, Silent ins h (t + k) := fun k hk => .of_not_arrives (hquiet k hk)
  have hgranted : At w ins p h (.writing d address v 1) TxRegs.Free (t + 1) :=
    (hat.pass (hsilent 0 (by omega)) hbuffer rfl).mono fun _ hx => hx.1
  have hpulse : At w ins p h (.writing d address v 2) TxRegs.Free (t + 2) :=
    (hgranted.pass (hsilent 1 (by omega)) hbuffer rfl).mono fun _ hx => hx.1
  have hidle : At w ins p h (.idle d address v) TxRegs.Free (t + 3) :=
    (hpulse.pass (hsilent 2 (by omega)) hbuffer rfl).mono fun _ hx => hx.1
  refine ⟨(trajectory UartLine.step w ins (t + 3)).presented (ins (t + 3)), ?_, d,
    address, v, hidle⟩
  rw [accesses, hpulse.bus_eq, hgranted.accesses_of_no_pulse rfl rfl,
    hat.accesses_of_no_pulse rfl rfl]
  rfl

/-- One character of a command that does not read, and the write that it may start. -/
theorem Ready.take (hins : Delivers ins) {c : Byte} {rest : List HostAction}
    {results : List (Option Int)} (hready : Ready w ins p ⟨.send c :: rest, [], results⟩ t)
    (harr : (ins t).arrives = true) (hrx : (p.rx c).mainSm ≠ .mainBinCmd)
    (hops : ∀ address, .read address ∉ p.ops c) :
    ∃ u out, t ≤ u ∧ accesses w ins u = accesses w ins t ++ out ∧
      out.map Prod.fst = p.ops c ∧ out.filterMap returned = [] ∧
      Ready w ins (p.rx c) ⟨rest, [], results⟩ u := by
  obtain ⟨d, a, v, hat⟩ := hready
  have hlog := hat.accesses_of_no_pulse rfl rfl
  have htake := (hat.take harr rfl hrx).mono fun _ hx => hx.1
  rcases AccessRegs.ops_cases p c with hnone | ⟨address, value, hwrite⟩ | ⟨address, hread⟩
  · obtain ⟨a', ha'⟩ := AccessRegs.step_idle_of_no_op d a v
      ((trajectory UartLine.step w ins t).presented (ins t)) hnone
    rw [ha'] at htake
    exact ⟨t + 1, [], Nat.le_succ t, by rw [hlog, List.append_nil], by rw [hnone]; rfl,
      rfl, d, a', v, htake⟩
  · rw [AccessRegs.step_idle_of_write d a v _ hwrite] at htake
    -- the next character is at least eight cycles away
    have hquiet : ∀ k < 3, (ins (t + 1 + k)).arrives = false := by
      intro k hk
      by_contra hnot
      rw [Bool.not_eq_false] at hnot
      have hfar := hins.spaced t (t + 1 + k) (by omega) harr hnot
      omega
    obtain ⟨v', hout, hend⟩ := htake.write hquiet rfl
    exact ⟨t + 1 + 3, [(.write address value, v')], by omega, by rw [hout, hlog],
      by rw [hwrite]; rfl, rfl, hend⟩
  · exact absurd hread (hops address)

/-! ### A read -/

/-- The read in its five cycles: the byte that is presented in the cycle after the pulse starts
the answer. -/
theorem At.read {d : Byte} {address : BitVec 16} {v : Byte}
    (hat : At w ins p h (.reading d address v 0) TxRegs.Free t)
    (hsilent : ∀ k < 5, Silent ins h (t + k)) (hbuffer : h.inBuffer = []) :
    ∃ v', accesses w ins (t + 5) = accesses w ins t ++ [(.read address, v')] ∧
      At w ins p h (.idle d address v') (TxRegs.Starting .txHiNib v') (t + 5) := by
  have hgranted : At w ins p h (.reading d address v 1) TxRegs.Free (t + 1) :=
    (hat.pass (hsilent 0 (by omega)) hbuffer rfl).mono fun _ hx => hx.1
  have hpulse : At w ins p h (.reading d address v 2) TxRegs.Free (t + 2) :=
    (hgranted.pass (hsilent 1 (by omega)) hbuffer rfl).mono fun _ hx => hx.1
  have hsample : At w ins p h (.reading d address v 3) TxRegs.Free (t + 3) :=
    (hpulse.pass (hsilent 2 (by omega)) hbuffer rfl).mono fun _ hx => hx.1
  have hdone := hsample.pass (hsilent 3 (by omega)) hbuffer rfl
  rw [AccessRegs.step_reading_three] at hdone
  refine ⟨(trajectory UartLine.step w ins (t + 3)).presented (ins (t + 3)), ?_, ?_⟩
  · rw [hdone.accesses_of_no_pulse rfl rfl, hsample.accesses_of_no_pulse rfl rfl, accesses,
      hpulse.bus_eq, hgranted.accesses_of_no_pulse rfl rfl, hat.accesses_of_no_pulse rfl rfl]
    rfl
  · refine hdone.next (hsilent 4 (by omega)).nextChar rfl hdone.mainSm ?_ fun x hx => hx.start _ _
    intro x hx
    rw [(hsilent 4 (by omega)).sent, hx.1.txBusy, Bool.false_and, if_neg Bool.false_ne_true]
    exact HostState.answer_of_short (by rw [hbuffer]; exact Nat.succ_pos 3)

/-- A host that waits for an answer sends nothing. -/
theorem Silent.of_waiting (rest : List HostAction) (buffer : List Byte)
    (results : List (Option Int)) (t : Nat) :
    Silent ins ⟨.read4 :: rest, buffer, results⟩ t :=
  .of_not_sending rfl rfl

section
variable {rest : List HostAction} {buffer : List Byte} {results : List (Option Int)}
variable {d v : Byte} {address : BitVec 16} {st : TxState}

/-- A cycle of an answer in which the transmitter does not end a character. -/
theorem At.answering (hat : At w ins p ⟨.read4 :: rest, buffer, results⟩ (.idle d address v) X t)
    (hbuffer : buffer.length < 4) (hdone : ∀ x, X x → (x.txBusy && (ins t).txDone) = false)
    (hX : ∀ x, X x → X' (x.step false v (ins t).txDone)) :
    accesses w ins (t + 1) = accesses w ins t ∧
      At w ins p ⟨.read4 :: rest, buffer, results⟩ (.idle d address v) X' (t + 1) := by
  have hsilent : Silent ins ⟨.read4 :: rest, buffer, results⟩ t := .of_waiting rest buffer results t
  refine ⟨hat.accesses_of_no_pulse rfl rfl, hat.next hsilent.nextChar rfl hat.mainSm ?_ hX⟩
  intro x hx
  rw [hsilent.sent, hdone x hx, if_neg Bool.false_ne_true]
  exact HostState.answer_of_short hbuffer

/-- The character of the state `st` of an answer starts. -/
def Answering (w : UartLine N) (ins : Nat → LineIn N) (p : UartParser) (rest : List HostAction)
    (results : List (Option Int)) (d : Byte) (address : BitVec 16) (v : Byte) (st : TxState)
    (buffer : List Byte) : Nat → Prop :=
  At w ins p ⟨.read4 :: rest, buffer, results⟩ (.idle d address v) (TxRegs.Starting st v)

/-- One character of an answer. -/
theorem leadsTo_character (hins : Delivers ins) (hst : st ≠ .txIdle) (hbuffer : buffer.length < 4) :
    LeadsTo (accesses w ins) (Answering w ins p rest results d address v st buffer)
      fun out t => out = [] ∧
        At w ins p (HostState.mk (.read4 :: rest) (buffer ++ [TxRegs.code v st]) results).answer
          (.idle d address v) (TxRegs.Ended st) t := by
  -- the transmitter takes the character, ...
  have hstart : LeadsTo (accesses w ins) (Answering w ins p rest results d address v st buffer)
      fun out t => out = [] ∧
        At w ins p ⟨.read4 :: rest, buffer, results⟩ (.idle d address v)
          (TxRegs.Sending st v) t := by
    refine LeadsTo.of_next fun t hat => ?_
    obtain ⟨hlog, hnext⟩ := hat.answering hbuffer
      (fun x hx => by rw [hx.txBusy, Bool.false_and]) fun x hx => hx.step hst (ins t).txDone
    exact ⟨[], by rw [hlog, List.append_nil], rfl, hnext⟩
  -- ... sends it for as long as it takes, ...
  have hwait : LeadsTo (accesses w ins)
      (At w ins p ⟨.read4 :: rest, buffer, results⟩ (.idle d address v) (TxRegs.Sending st v))
      fun out t => out = [] ∧
        At w ins p ⟨.read4 :: rest, buffer, results⟩ (.idle d address v) (TxRegs.Sending st v) t ∧
        (ins t).txDone = true := by
    refine LeadsTo.wait hins.txDone fun t hat hnot => ?_
    rw [Bool.not_eq_true] at hnot
    refine hat.answering hbuffer (fun x _ => by rw [hnot, Bool.and_false]) fun x hx => ?_
    rw [hnot]
    exact hx.wait hst
  -- ... and the host has it when it ends
  refine hstart.trans_of_empty (hwait.trans fun out t ⟨hout, hat, hdone⟩ => ?_)
  subst hout
  have hsilent : Silent ins ⟨.read4 :: rest, buffer, results⟩ t := .of_waiting rest buffer results t
  refine ⟨t + 1, [], Nat.le_succ t, ?_, rfl, ?_⟩
  · rw [hat.accesses_of_no_pulse rfl rfl, List.append_nil]
  · refine hat.next hsilent.nextChar rfl hat.mainSm ?_ fun x hx => ?_
    · intro x hx
      rw [hsilent.sent, hx.txBusy, hdone, hx.sending]
      rfl
    · rw [hdone]
      exact hx.done hst

/-- A character that is not the last, and the start of the next. -/
theorem leadsTo_succ (hins : Delivers ins) (hst : st ≠ .txIdle) (hlast : st ≠ .txCharLF)
    (hbuffer : (buffer ++ [TxRegs.code v st]).length < 4) :
    LeadsTo (accesses w ins) (Answering w ins p rest results d address v st buffer)
      fun out t => out = [] ∧ Answering w ins p rest results d address v (TxRegs.succ st)
        (buffer ++ [TxRegs.code v st]) t := by
  have hlt : buffer.length < 4 := by
    rw [List.length_append] at hbuffer
    omega
  refine (leadsTo_character hins hst hlt).trans_of_empty (LeadsTo.of_next fun t hat => ?_)
  rw [HostState.answer_of_short hbuffer] at hat
  obtain ⟨hlog, hnext⟩ := hat.answering hbuffer
    (fun x hx => by rw [hx.txBusy, Bool.false_and]) fun x hx => hx.step hst hlast v (ins t).txDone
  exact ⟨[], by rw [hlog, List.append_nil], rfl, hnext⟩

/-- An answer, character by character. -/
theorem leadsTo_answer (hins : Delivers ins) :
    LeadsTo (accesses w ins) (Answering w ins p rest results d address v .txHiNib [])
      fun out t => out = [] ∧ Ready w ins p ⟨rest, [], results ++ [some (v.toNat : Int)]⟩ t := by
  refine (leadsTo_succ hins (by decide) (by decide) (by simp)).trans_of_empty ?_
  refine (leadsTo_succ hins (by decide) (by decide) (by simp)).trans_of_empty ?_
  refine (leadsTo_succ hins (by decide) (by decide) (by simp)).trans_of_empty ?_
  refine (leadsTo_character hins (by decide) (by simp)).mono ?_
  intro out t ⟨hout, hat⟩
  have hanswer := HostState.answer_of_answerCodes rest results v
  refine ⟨hout, d, address, v, ?_⟩
  rw [← hanswer]
  exact hat.mono fun x hx => hx.free

end

/-! ### Commands -/

/-- Characters that start no read: each arrives in its time, with the write that it starts. -/
theorem leadsTo_text (hins : Delivers ins) (chars : List Byte) (p : UartParser)
    (hsm : (p.feed chars).1.mainSm ≠ .mainBinCmd)
    (hops : ∀ address, .read address ∉ (p.feed chars).2)
    (rest : List HostAction) (results : List (Option Int)) :
    LeadsTo (accesses w ins) (Ready w ins p ⟨chars.map .send ++ rest, [], results⟩)
      fun out t => out.map Prod.fst = (p.feed chars).2 ∧ out.filterMap returned = [] ∧
        Ready w ins (p.feed chars).1 ⟨rest, [], results⟩ t := by
  induction chars generalizing p with
  | nil =>
    refine (LeadsTo.refl _ _).mono fun out t ⟨hout, hready⟩ => ?_
    rw [hout]
    exact ⟨rfl, rfl, hready⟩
  | cons c chars ih =>
    have hrx : (p.rx c).mainSm ≠ .mainBinCmd := fun hbin =>
      hsm (UartParser.feed_mainBinCmd hbin chars)
    rw [UartParser.feed_cons] at hsm hops ⊢
    simp only [List.mem_append, not_or] at hops
    refine (LeadsTo.wait hins.arrives fun t hready harr =>
      hready.pass (.of_not_arrives (Bool.not_eq_true _ ▸ harr)) rfl).trans ?_
    intro out t ⟨hout, hready, harr⟩
    -- The first character with its write, then the others from there.
    obtain ⟨u, first, htu, hlog, hfirst, hsilent, hnext⟩ :=
      hready.take hins harr hrx fun address => (hops address).1
    obtain ⟨u', others, huu', hlog', hothers, hsilent', hend⟩ :=
      ih (p.rx c) hsm (fun address => (hops address).2) u hnext
    refine ⟨u', first ++ others, Nat.le_trans htu huu', ?_, ?_, ?_, hend⟩
    · rw [hlog', hlog, List.append_assoc]
    · rw [hout, List.nil_append, List.map_append, hfirst, hothers]
    · rw [hout, List.nil_append, List.filterMap_append, hsilent, hsilent', List.append_nil]

/-- The character that starts a read, and the answer. -/
theorem leadsTo_read (hins : Delivers ins) {c : Byte} {address : BitVec 16}
    (hrx : (p.rx c).mainSm ≠ .mainBinCmd) (hops : p.ops c = [.read address])
    (rest : List HostAction) (results : List (Option Int)) :
    LeadsTo (accesses w ins) (Ready w ins p ⟨.send c :: .read4 :: rest, [], results⟩)
      fun out t => out.map Prod.fst = [.read address] ∧
        Ready w ins (p.rx c) ⟨rest, [], results ++ out.filterMap returned⟩ t := by
  refine (LeadsTo.wait hins.arrives fun t hready harr =>
    hready.pass (.of_not_arrives (Bool.not_eq_true _ ▸ harr)) rfl).trans ?_
  intro out t ⟨hout, ⟨d, a, v, hat⟩, harr⟩
  have hlog := hat.accesses_of_no_pulse rfl rfl
  have htake := (hat.take harr rfl hrx).mono fun _ hx => hx.1
  rw [AccessRegs.step_idle_of_read d a v _ hops] at htake
  obtain ⟨v', hread, hanswer⟩ := htake.read (fun k _ => .of_waiting rest [] results _) rfl
  obtain ⟨u, out', hle, hlog', hout', hready⟩ := leadsTo_answer hins _ hanswer
  refine ⟨u, [(.read address, v')], by omega, ?_, ?_, ?_⟩
  · rw [hlog', hout', List.append_nil, hread, hlog]
  · rw [hout]
    rfl
  · rw [hout]
    exact hready

/-- The text of a write is one write. -/
theorem feed_text_writeByte (hsm : p.mainSm = .mainIdle) (addr : BitVec 16) (val : Byte) :
    (p.feed (Call.writeByte addr val).text).1.mainSm = .mainIdle ∧
      (p.feed (Call.writeByte addr val).text).2 = [.write addr val] := by
  have hfeed := UartParser.feed_writeByte hsm addr.toNat val.toNat
  rw [BitVec.ofNat_toNat, BitVec.ofNat_toNat, BitVec.setWidth_eq, BitVec.setWidth_eq] at hfeed
  exact hfeed

/-- The text of a read is one read, which its last character starts. -/
theorem feed_text_readByte (hsm : p.mainSm = .mainIdle) (addr : BitVec 16) :
    ∃ digits q, (Call.readByte addr).text = digits ++ [0x0A] ∧ p.feed digits = (q, []) ∧
      q.mainSm = .mainAddr ∧ q.ops 0x0A = [.read addr] ∧ (q.rx 0x0A).mainSm = .mainIdle := by
  have hdigits := UartParser.feed_readByteCommand_digits hsm addr.toNat
  rw [BitVec.ofNat_toNat, BitVec.setWidth_eq] at hdigits
  refine ⟨_, _, UartParser.encode_append _ _, hdigits, rfl, ?_, ?_⟩
  · simp [UartParser.ops, dataInHexRange]
  · simp [UartParser.rx, MainSm.next, dataInHexRange, isEol]

/-- A call of the host is one access, and what the host returns comes from it. -/
theorem leadsTo_call (hins : Delivers ins) (call : Call) (rest : List HostAction)
    (results : List (Option Int)) (hsm : p.mainSm = .mainIdle) :
    LeadsTo (accesses w ins) (Ready w ins p ⟨call.actions ++ rest, [], results⟩)
      fun out t => out.map Prod.fst = [call.op] ∧ ∃ p' : UartParser, p'.mainSm = .mainIdle ∧
        Ready w ins p' ⟨rest, [], results ++ out.filterMap returned⟩ t := by
  cases call with
  | writeByte addr val =>
    obtain ⟨hidle, hops⟩ := feed_text_writeByte hsm addr val
    refine (leadsTo_text hins _ p ?_ ?_ rest results).mono ?_
    · rw [hidle]
      exact nofun
    · rw [hops]
      simp
    · intro out t ⟨hfst, hsilent, hready⟩
      rw [hsilent, List.append_nil]
      exact ⟨hfst.trans hops, _, hidle, hready⟩
  | readByte addr =>
    obtain ⟨digits, q, htext, hfeed, hq, hops, hidle⟩ := feed_text_readByte hsm addr
    have hactions : (Call.readByte addr).actions ++ rest
        = digits.map .send ++ .send 0x0A :: .read4 :: rest := by
      simp [Call.actions, htext]
    -- The read starts with the newline, all characters before it are text without an operation.
    have hfirst := leadsTo_text (w := w) hins digits p (by rw [hfeed, hq]; exact nofun)
      (by rw [hfeed]; exact nofun) (.send 0x0A :: .read4 :: rest) results
    rw [hactions]
    refine hfirst.trans ?_
    intro out t ⟨hout, hsilent, hready⟩
    rw [hfeed] at hout hready
    obtain ⟨u, out', hle, hlog, hfst, hend⟩ :=
      leadsTo_read hins (by rw [hidle]; exact nofun) hops rest results t hready
    have hnil : out = [] := List.map_eq_nil_iff.mp hout
    subst hnil
    exact ⟨u, out', hle, hlog, hfst, _, hidle, hend⟩

/-- A sequence of calls. -/
theorem leadsTo_calls (hins : Delivers ins) (calls : List Call) (results : List (Option Int))
    (hsm : p.mainSm = .mainIdle) :
    LeadsTo (accesses w ins) (Ready w ins p ⟨calls.flatMap Call.actions, [], results⟩)
      fun out t => out.map Prod.fst = calls.map Call.op ∧ ∃ p' : UartParser,
        Ready w ins p' ⟨[], [], results ++ out.filterMap returned⟩ t := by
  induction calls generalizing p results with
  | nil =>
    refine (LeadsTo.refl _ _).mono fun out t ⟨hout, hready⟩ => ?_
    rw [hout]
    exact ⟨rfl, p, by simpa using hready⟩
  | cons call calls ih =>
    refine (leadsTo_call hins call (calls.flatMap Call.actions) results hsm).trans ?_
    intro out t ⟨hfst, p', hsm', hready⟩
    obtain ⟨u, out', hle, hlog, hfst', p'', hend⟩ := ih _ hsm' t hready
    refine ⟨u, out', hle, hlog, ?_, p'', ?_⟩
    · rw [List.map_append, hfst, hfst']
      rfl
    · rw [List.filterMap_append, ← List.append_assoc]
      exact hend

end

/-- A line at rest: the parser is idle, nothing is under way on the bus or back to the host. -/
structure UartLine.AtRest (w : UartLine N) : Prop where
  mainSm : w.parser.mainSm = .mainIdle
  binReadOp : w.parser.binReadOp = false
  binWriteOp : w.parser.binWriteOp = false
  access : ∃ d a v, w.parser.accessView w.uartGnt = .idle d a v
  tx : (w.parser.txView w.txBusy w.sending).Free

/-- The parser is idle again behind the texts of the calls. -/
theorem feed_texts (calls : List Call) {p : UartParser} (hsm : p.mainSm = .mainIdle) :
    (p.feed (calls.flatMap Call.text)).1.mainSm = .mainIdle := by
  induction calls generalizing p with
  | nil => exact hsm
  | cons call calls ih =>
    rw [List.flatMap_cons, UartParser.feed_append]
    refine ih ?_
    cases call with
    | writeByte addr val => exact (feed_text_writeByte hsm addr val).1
    | readByte addr =>
      obtain ⟨digits, q, htext, hfeed, -, -, hidle⟩ := feed_text_readByte hsm addr
      rw [htext, UartParser.feed_append, hfeed]
      exact hidle

/-- A line at rest is in text mode, and stays so for the calls to come. -/
theorem UartLine.AtRest.inTextMode {w : UartLine N} (hw : w.AtRest) {calls : List Call}
    (hhost : w.host = HostState.start calls) : w.InTextMode := by
  refine ⟨hw.binReadOp, hw.binWriteOp, ?_⟩
  rw [hhost, HostState.unsent_start,
    feed_texts calls (p := w.parser.view) (congrArg MainState.view hw.mainSm)]
  exact nofun

/-- From some time on all calls have returned, the pulses on the bus have been theirs, and each
`_readByte` has returned the byte that is logged with its pulse. -/
theorem UartLine.calls_answered (w : UartLine N) (hw : w.AtRest) (calls : List Call)
    (hhost : w.host = HostState.start calls) {ins : Nat → LineIn N} (hins : Delivers ins) :
    ∃ T, ∀ t, T ≤ t →
      (trajectory UartLine.step w ins t).host.todo = [] ∧
      (accesses w ins t).map Prod.fst = calls.map Call.op ∧
      (trajectory UartLine.step w ins t).host.results = (accesses w ins t).filterMap returned := by
  have hsm : w.parser.view.mainSm = .mainIdle := congrArg MainState.view hw.mainSm
  have hready : Ready w ins w.parser.view (HostState.start calls) 0 := by
    obtain ⟨d, a, v, haccess⟩ := hw.access
    exact ⟨d, a, v, hw.binReadOp, hw.binWriteOp, by rw [hsm]; exact nofun, rfl, hhost, haccess,
      hw.tx⟩
  obtain ⟨T, out, -, hlog, hfst, p', hend⟩ := leadsTo_calls hins calls [] hsm 0 hready
  refine ⟨T, fun t hT => ?_⟩
  -- when the host has nothing left to do, nothing happens any more
  have hstay : accesses w ins t = out ∧ Ready w ins p' ⟨[], [], out.filterMap returned⟩ t := by
    induction t, hT using Nat.le_induction with
    | base => exact ⟨hlog, hend⟩
    | succ t _ ih =>
      obtain ⟨hsame, hnext⟩ := ih.2.pass (.of_not_sending rfl rfl) rfl
      exact ⟨hsame.trans ih.1, hnext⟩
  obtain ⟨hout, d, a, v, hat⟩ := hstay
  have hhost' :
    (trajectory UartLine.step w ins t).host = ⟨[], [], out.filterMap returned⟩ := hat.host
  rw [hout, hhost']
  exact ⟨rfl, hfst, rfl⟩

/-- **Calls and bus accesses correspond one to one.** The host makes any sequence of calls over a
line at rest. From some time on all of them have returned, the pulses on the bus have been theirs,
in order and one for each, and each `_readByte` has returned the byte that the bus presented in
the cycle after its pulse. In that cycle the address of the pulse is still on the bus. -/
theorem UartLine.calls_correspond (w : UartLine N) (hw : w.AtRest) (calls : List Call)
    (hhost : w.host = HostState.start calls) {ins : Nat → LineIn N} (hins : Delivers ins) :
    (∃ T, ∀ t, T ≤ t →
      (trajectory UartLine.step w ins t).host.todo = [] ∧
      (accesses w ins t).map Prod.fst = calls.map Call.op ∧
      (trajectory UartLine.step w ins t).host.results
        = (accesses w ins t).filterMap returned) ∧
    ∀ t, pulses (trajectory UartLine.step w ins t).parser.bus ≠ [] →
      (trajectory UartLine.step w ins (t + 1)).parser.bus.regAddress
        = (trajectory UartLine.step w ins t).parser.bus.regAddress := by
  obtain ⟨d, a, v, haccess⟩ := hw.access
  have hidle : w.view.access = .idle d a v := haccess
  refine ⟨w.calls_answered hw calls hhost hins,
    UartLine.address_kept (hw.inTextMode hhost) ?_ ?_ hins⟩
  · rw [hidle]
    rfl
  · rw [hidle]
    rfl

/-- A line after a reset of the parser, with a host that is about to make `calls`. -/
def UartLine.afterReset (calls : List Call) (board : Board N) : UartLine N :=
  ⟨.start calls, .cleared, false, false, 0, board⟩

/-- A line after a reset is at rest. -/
theorem UartLine.atRest_afterReset (calls : List Call) (board : Board N) :
    (afterReset calls board).AtRest :=
  ⟨rfl, rfl, rfl, ⟨0, 0, 0, rfl⟩, rfl, rfl, Or.inl rfl⟩

/-- A line that delivers a character every eight cycles. -/
def everyEight (t : Nat) : LineIn N := ⟨t % 8 = 0, 0, true, .quiet⟩

/-- It delivers, and its characters are as close together as they may be. -/
theorem delivers_everyEight : Delivers (everyEight (N := N)) := by
  refine ⟨?_, ?_, fun t => ⟨t, le_rfl, rfl⟩⟩
  · intro t u htu ht hu
    simp only [everyEight, decide_eq_true_eq] at ht hu
    omega
  · intro t
    exact ⟨8 * t, by omega, by simp [everyEight]⟩

/-- A byte written to data memory and read back. -/
def writeAndRead : UartLine 1 :=
  .afterReset [.writeByte 0x8001 0xAB, .readByte 0x8001] Board.blank

/-- Two calls over such a line: one write, one read, and the result of the read. -/
theorem UartLine.calls_correspond_writeAndRead :
    ∃ T, ∀ t, T ≤ t →
      (trajectory UartLine.step writeAndRead everyEight t).host.todo = [] ∧
      (accesses writeAndRead everyEight t).map Prod.fst
        = [.write 0x8001 0xAB, .read 0x8001] ∧
      (trajectory UartLine.step writeAndRead everyEight t).host.results
        = (accesses writeAndRead everyEight t).filterMap returned :=
  (calls_correspond writeAndRead (atRest_afterReset _ _)
    [.writeByte 0x8001 0xAB, .readByte 0x8001] rfl delivers_everyEight).1

end VivadoTest.Host
