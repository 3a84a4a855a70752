import VivadoTest.Lib.LeadsTo
import VivadoTest.Spec.TextLine
import VivadoTest.Proofs.UartParser

/-!
# `VivadoTest.Proofs.UartLine`: the parser clock by clock and character by character

A parser that has not been sent a binary command is in text mode. Every process of
`UartRegs.step` is simpler there, and a line in text mode steps as its view does.

* `UartLine.view_step`: the cycle-accurate line refines `TextLine`.

## One process at a time

Each process of `uartParser.vhd` is a definition, and each has a lemma that says what it does in
text mode: `params_view`, `binFlags_eq`, `writeControl_eq`, `readControl_eq`, `address_eq`,
`transmit_eq`. They chain because every process writes registers of its own. `step_eq` puts them
together, and `view_step` adds the host and `HostComm`, which grants the bus in the cycle behind a
request.

The states of the binary extension are one state of the view. No text command leads to it: it takes
a NUL character, which the host does not send.
-/

set_option autoImplicit false

namespace VivadoTest.Framework

open VivadoTest.Spec

/-! ### The parser without binary commands -/

namespace UartRegs

variable {r : UartRegs} (input : UartIn)

/-- No binary command is being received or executed. -/
structure TextMode (r : UartRegs) : Prop where
  mainSm : r.view.mainSm ≠ .mainBinCmd
  binReadOp : r.binReadOp = false
  binWriteOp : r.binWriteOp = false

/-- The text states in which no state of the binary extension is left. -/
theorem TextMode.not_bin (h : r.TextMode) : r.mainSm ≠ .mainBinCmd ∧ r.mainSm ≠ .mainBinAdrh ∧
    r.mainSm ≠ .mainBinAdrl ∧ r.mainSm ≠ .mainBinLen ∧ r.mainSm ≠ .mainBinData := by
  have hview := h.mainSm
  refine ⟨?_, ?_, ?_, ?_, ?_⟩ <;>
  · intro hbin
    exact hview (congrArg MainState.view hbin)

/-- In text mode the parser's next state is that of the text commands. -/
theorem TextMode.mainSmNext_view (h : r.TextMode) (c : Byte) :
    (r.mainSmNext c).view = r.mainSm.view.next c := by
  obtain ⟨h1, h2, h3, h4, h5⟩ := h.not_bin
  unfold mainSmNext
  cases hsm : r.mainSm with
  | mainBinCmd => exact absurd hsm h1
  | mainBinAdrh => exact absurd hsm h2
  | mainBinAdrl => exact absurd hsm h3
  | mainBinLen => exact absurd hsm h4
  | mainBinData => exact absurd hsm h5
  | _ =>
    simp only [MainState.view, MainSm.next]
    split_ifs <;> rfl

/-! ### One process at a time -/

section
variable (h : r.TextMode) (next : UartRegs)
include h

/-- In text mode the parameters move as those of the text commands do; the binary ones stay out of
sight. -/
theorem TextMode.params_view : (r.params input next).view =
    { next.view with
      dataParam := if input.newRxData then (r.view.rx input.rxData).dataParam else r.dataParam
      addrParam := if input.newRxData then (r.view.rx input.rxData).addrParam
        else r.addrParam } := by
  obtain ⟨h1, h2, h3, h4, h5⟩ := h.not_bin
  unfold params view UartParser.rx
  cases hnew : input.newRxData <;> cases hsm : r.mainSm <;>
    first
    | exact absurd hsm ‹_›
    | simp [MainState.view]

/-- In text mode the flags of the binary operations are cleared and its settings kept. -/
theorem TextMode.binFlags_eq : r.binFlags input next =
    { next with
      binReadOp := false
      binWriteOp := false
      sendStatFlag := r.sendStatFlag
      addrAutoInc := r.addrAutoInc } := by
  unfold binFlags
  simp [h.not_bin, h.binReadOp, h.binWriteOp]

/-- The write request of a cycle in text mode, from registers that kept it. -/
theorem TextMode.writeControl_eq (hreq : next.iWriteReq = r.iWriteReq)
    (hint : next.iIntWrite = r.iIntWrite) (hdata : next.intWrData = r.intWrData) :
    r.writeControl input next =
    { next with
      iWriteReq :=
        if r.endsCommand input && r.writeOp then true
        else if input.intGnt && r.iWriteReq then false else r.iWriteReq
      iIntWrite :=
        if r.endsCommand input && r.writeOp then r.iIntWrite else input.intGnt && r.iWriteReq
      intWrData := if r.endsCommand input && r.writeOp then r.dataParam else r.intWrData } := by
  unfold writeControl
  simp only [h.binWriteOp, Bool.false_eq_true, false_and, and_false, if_false, ← hreq,
    ← hint, ← hdata]
  by_cases hend : (r.endsCommand input && r.writeOp) = true
  · simp only [hend, if_true]
  · simp only [hend]
    cases hgnt : input.intGnt && next.iWriteReq <;> simp

/-- The read request of a cycle in text mode, from registers that kept it. -/
theorem TextMode.readControl_eq (hreq : next.iReadReq = r.iReadReq)
    (hint : next.iIntRead = r.iIntRead) :
    r.readControl input next =
    { next with
      iReadReq :=
        if r.endsCommand input && r.readOp then true
        else if input.intGnt && r.iReadReq then false else r.iReadReq
      iIntRead :=
        if r.endsCommand input && r.readOp then r.iIntRead else input.intGnt && r.iReadReq } := by
  unfold readControl
  simp only [h.binReadOp, Bool.false_eq_true, false_and, and_false, if_false, ← hreq, ← hint]
  by_cases hend : (r.endsCommand input && r.readOp) = true
  · simp only [hend, if_true]
  · simp only [hend]
    cases hgnt : input.intGnt && next.iReadReq <;> simp

/-- The address register takes the parsed address at the end of a command. -/
theorem TextMode.address_eq : r.address input next =
    { next with
      iIntAddress := if r.endsCommand input then r.addrParam else r.iIntAddress } := by
  unfold address
  simp [h.not_bin, h.binReadOp, h.binWriteOp]

/-- The transmit side of the parser, as `TxRegs`. -/
theorem TextMode.transmit_eq (hsm : next.txSm = r.txSm) (hdata : next.txData = r.txData)
    (x : TxRegs) (hx : x.txSm = r.txSm) (hxdata : x.txData = r.txData)
    (hend : x.txEndP = r.txEndP input) :
    r.transmit input next =
    { next with
      txSm := (x.next r.readDoneS r.readDataS).1
      txData := (x.next r.readDoneS r.readDataS).2.1
      newTxData := (x.next r.readDoneS r.readDataS).2.2 } := by
  have hstatus : r.sendsStatus input = false := by
    unfold sendsStatus
    simp [h.not_bin, h.binReadOp, h.binWriteOp]
  unfold transmit TxRegs.next
  rw [hx, hxdata, hend, hstatus, h.binReadOp, ← hdata]
  cases htx : r.txSm <;> rw [htx] at hsm <;> simp only [Bool.false_eq_true, if_false]
  · cases hdone : r.readDoneS with
    | true => simp [txCharCode, txNibble, htx, nibbleCode]
    | false => simp [← hsm]
  · cases hend : r.txEndP input with
    | true => simp [txCharCode, txNibble, htx, nibbleCode]
    | false => simp [← hsm]
  all_goals cases hend : r.txEndP input <;> simp [← hsm]

end

/-- The flags of the pending read and write after a cycle. -/
theorem textFlags_eq (next : UartRegs) : r.textFlags input next =
    { next with
      readOp :=
        if r.mainSm = .mainIdle ∧ input.newRxData = true then isRead input.rxData else next.readOp
      writeOp :=
        if r.mainSm = .mainIdle ∧ input.newRxData = true then isWrite input.rxData
        else next.writeOp } := by
  unfold textFlags
  split_ifs <;> rfl

/-! ### One cycle -/

/-- The registers after the processes that receive a character, before those of the bus. -/
def receive (r : UartRegs) (input : UartIn) : UartRegs :=
  r.params input <| r.binFlags input <| r.textFlags input
    { r with mainSm := if input.newRxData then r.mainSmNext input.rxData else r.mainSm }

/-- Receiving a byte commutes with the view on the text parser. -/
theorem TextMode.receive_view (h : r.TextMode) : (r.receive input).view
    = if input.newRxData then r.view.rx input.rxData else r.view := by
  have hmain := h.mainSmNext_view input.rxData
  unfold receive
  rw [h.params_view, h.binFlags_eq, textFlags_eq]
  cases hnew : input.newRxData with
  | false => simp [view]
  | true =>
    have hidle : r.mainSm = .mainIdle ↔ r.mainSm.view = .mainIdle := by
      cases r.mainSm <;> simp [MainState.view]
    by_cases hid : r.mainSm = .mainIdle
    · have hid' := hidle.mp hid
      rw [hid] at hid'
      simp [view, UartParser.rx, hmain, hid, hid']
    · have hid' : ¬ r.mainSm.view = .mainIdle := fun hv => hid (hidle.mpr hv)
      simp [view, UartParser.rx, hmain, hid, hid']

/-- Receiving a byte starts no binary operation. -/
theorem TextMode.receive_flags (h : r.TextMode) :
    (r.receive input).binReadOp = false ∧ (r.receive input).binWriteOp = false := by
  unfold receive
  rw [h.binFlags_eq]
  exact ⟨rfl, rfl⟩

/-- The processes of the bus and the transmit side leave the received text alone. -/
theorem TextMode.step_eq (h : r.TextMode) (hclr : input.clr = false) (x : TxRegs)
    (hx : x.txSm = r.txSm) (hxdata : x.txData = r.txData) (hend : x.txEndP = r.txEndP input) :
    r.step input =
      { r.receive input with
        iReadReq :=
          if r.endsCommand input && r.readOp then true
          else if input.intGnt && r.iReadReq then false else r.iReadReq
        iIntRead :=
          if r.endsCommand input && r.readOp then r.iIntRead else input.intGnt && r.iReadReq
        iWriteReq :=
          if r.endsCommand input && r.writeOp then true
          else if input.intGnt && r.iWriteReq then false else r.iWriteReq
        iIntWrite :=
          if r.endsCommand input && r.writeOp then r.iIntWrite else input.intGnt && r.iWriteReq
        intWrData := if r.endsCommand input && r.writeOp then r.dataParam else r.intWrData
        iIntAddress := if r.endsCommand input then r.addrParam else r.iIntAddress
        readDone := r.iIntRead
        readDoneS := r.readDone
        readDataS := if r.readDone then input.intRdData else r.readDataS
        txSm := (x.next r.readDoneS r.readDataS).1
        txData := (x.next r.readDoneS r.readDataS).2.1
        newTxData := (x.next r.readDoneS r.readDataS).2.2
        sTxBusy := input.txBusy } := by
  have hframe : (r.receive input).iReadReq = r.iReadReq ∧ (r.receive input).iIntRead = r.iIntRead ∧
      (r.receive input).iWriteReq = r.iWriteReq ∧ (r.receive input).iIntWrite = r.iIntWrite ∧
      (r.receive input).intWrData = r.intWrData ∧ (r.receive input).txSm = r.txSm ∧
      (r.receive input).txData = r.txData := by
    unfold receive
    rw [textFlags_eq]
    exact ⟨rfl, rfl, rfl, rfl, rfl, rfl, rfl⟩
  unfold step
  rw [if_neg (by rw [hclr]; exact Bool.false_ne_true)]
  show r.transmit input (r.sample input <| r.address input <| r.readControl input <|
    r.writeControl input (r.receive input)) = _
  -- The received character is an opaque state from here on: each further process only needs the
  -- registers that `receive` leaves alone.
  obtain ⟨hrr, hir, hwr, hiw, hdata, htx, htxd⟩ := hframe
  generalize r.receive input = n at *
  rw [h.writeControl_eq input n hwr hiw hdata, h.readControl_eq, h.address_eq]
  · refine (h.transmit_eq input _ ?_ ?_ x hx hxdata hend).trans rfl
    · exact htx
    · exact htxd
  · exact hrr
  · exact hir

end UartRegs

end VivadoTest.Framework

namespace VivadoTest.Host

open VivadoTest.Framework VivadoTest.Spec

variable {N : Nat} (w : UartLine N) (input : LineIn N)

/-- The line ends a command exactly when the text line that it shows does. -/
theorem UartLine.endsCommand_view : w.parser.endsCommand (w.uartIn input)
    = endsCommand w.view.parser (w.received input) := by
  have haddr :
    (decide (w.parser.mainSm = .mainAddr)) = decide (w.parser.mainSm.view = .mainAddr) := by
    cases w.parser.mainSm <;> rfl
  unfold UartRegs.endsCommand
  rw [haddr]
  cases hc : w.received input with
  | none => simp [uartIn, hc, endsCommand]
  | some c =>
    simp only [uartIn, hc, endsCommand, Option.isSome_some, Option.getD_some, Bool.and_true]
    rfl

/-- A line in text mode steps as its view does. -/
theorem UartLine.view_step (h : w.parser.TextMode) :
    (w.step input).view = w.view.step input.arrives input.txDone (w.presented input) ∧
      (w.step input).parser.binReadOp = false ∧ (w.step input).parser.binWriteOp = false := by
  have hstep := h.step_eq (w.uartIn input) rfl w.view.tx rfl rfl rfl
  have hparser : (w.step input).view.parser
      = (w.view.step input.arrives input.txDone (w.presented input)).parser := by
    show (w.parser.step (w.uartIn input)).view = _
    rw [hstep]
    refine (h.receive_view (w.uartIn input)).trans ?_
    show _ = (w.received input).elim w.view.parser w.view.parser.rx
    cases hc : w.received input with
    | none => simp [uartIn, hc, view]
    | some c => simp [uartIn, hc, view]
  -- the registers of the access and of the transmitter do not depend on the extension either
  have haccess : (w.step input).view.access
      = (w.view.step input.arrives input.txDone (w.presented input)).access := by
    show _ = w.view.access.step w.view.parser (w.received input) (w.presented input)
    unfold AccessRegs.step
    rw [← w.endsCommand_view input]
    show (w.parser.step (w.uartIn input)).accessView _ = _
    rw [hstep]
    rfl
  have htx : (w.step input).view.tx
      = (w.view.step input.arrives input.txDone (w.presented input)).tx := by
    show (w.parser.step (w.uartIn input)).txView _ _ = _
    rw [hstep]
    rfl
  refine ⟨?_, ?_, ?_⟩
  · show (⟨_, _, _, _⟩ : TextLine) = ⟨_, _, _, _⟩
    congr 1
  · show (w.parser.step (w.uartIn input)).binReadOp = false
    rw [hstep]
    exact (h.receive_flags _).1
  · show (w.parser.step (w.uartIn input)).binWriteOp = false
    rw [hstep]
    exact (h.receive_flags _).2

end VivadoTest.Host
