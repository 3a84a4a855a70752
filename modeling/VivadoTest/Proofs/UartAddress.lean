import VivadoTest.Proofs.UartLine
import VivadoTest.Proofs.UartParser

/-!
# `VivadoTest.Proofs.UartAddress`: the address behind a pulse

The board answers a read in the cycle after its pulse, from the address that the bus shows then. The
parser changes the address when a command ends. So the address is still the one of the pulse as long
as no command ends in the cycle of the pulse.

* `UartLine.address_kept`: the address stays for a cycle behind each pulse.

## Two invariants

A binary command could count the address up, so the line has to be in text mode. It is, and stays
so: the state of a binary command has no way back, and what the host has still to send would not
leave the parser idle if it came through it (`InTextMode`).

A request is granted in the next cycle, and the pulse comes in the one after, so a pulse is at most
three cycles younger than the character that asked for it (`Recent`). Characters are further apart.
-/

set_option autoImplicit false

namespace VivadoTest.Host

open VivadoTest.Lib VivadoTest.Framework VivadoTest.Spec

variable {N : Nat}

/-! ### Text mode -/

/-- The character that an action sends. -/
def HostAction.char : HostAction → Option Byte
  | .send c => some c
  | .read4 => none

/-- The characters that the host has still to send. -/
def HostState.unsent (h : HostState) : List Byte := h.todo.filterMap HostAction.char

/-- A character that the line takes is the first of those to be sent. -/
theorem HostState.unsent_eq (h : HostState) : h.unsent = h.nextChar.toList ++ h.sent.unsent := by
  obtain ⟨todo, inBuffer, results⟩ := h
  cases todo with
  | nil => rfl
  | cons action rest => cases action <;> rfl

/-- Reading an answer sends nothing. -/
theorem HostState.unsent_answer (h : HostState) : h.answer.unsent = h.unsent := by
  unfold answer
  split
  · next rest htodo =>
    split
    · rw [unsent, unsent, htodo]
      rfl
    · rfl
  · rfl

/-- The characters of a call. -/
theorem Call.filterMap_char_actions (call : Call) :
    call.actions.filterMap HostAction.char = call.text := by
  have htext : ∀ text : List Byte, (text.map HostAction.send).filterMap HostAction.char = text := by
    intro text
    rw [List.filterMap_map]
    exact List.filterMap_some
  cases call with
  | writeByte addr val => exact htext _
  | readByte addr => exact List.filterMap_append.trans (by rw [htext]; exact List.append_nil _)

/-- The characters of the calls, one call after the other. -/
theorem HostState.unsent_start (calls : List Call) :
    (start calls).unsent = calls.flatMap Call.text := by
  show (calls.flatMap Call.actions).filterMap HostAction.char = _
  induction calls with
  | nil => rfl
  | cons call calls ih =>
    rw [List.flatMap_cons, List.filterMap_append, call.filterMap_char_actions, ih,
      List.flatMap_cons]

namespace UartLine

variable {w : UartLine N} {input : LineIn N}

/-- The line is in text mode, and the characters that the host has still to send do not take it
out of it. -/
structure InTextMode (w : UartLine N) : Prop where
  binReadOp : w.parser.binReadOp = false
  binWriteOp : w.parser.binWriteOp = false
  unsent : (w.parser.view.feed w.host.unsent).1.mainSm ≠ .mainBinCmd

/-- So the parser is in text mode now. -/
theorem InTextMode.textMode (h : w.InTextMode) : w.parser.TextMode :=
  ⟨fun hbin => h.unsent (UartParser.feed_mainBinCmd hbin _), h.binReadOp, h.binWriteOp⟩

/-- The character of a cycle goes from the host to the parser. -/
theorem unsent_step (w : UartLine N) (input : LineIn N) :
    w.host.unsent = (w.received input).toList ++ (w.step input).host.unsent := by
  have hqueued : w.host.unsent = (w.received input).toList ++
      (if input.arrives then w.host.sent else w.host).unsent := by
    unfold received
    cases input.arrives with
    | false => rfl
    | true => exact w.host.unsent_eq
  rw [hqueued]
  show _ = _ ++ (w.hostStep input).unsent
  unfold hostStep
  rw [HostState.unsent_answer]
  -- a character that comes in is none to be sent
  cases w.txBusy && input.txDone <;> rfl

/-- Text mode is kept. -/
theorem InTextMode.step (h : w.InTextMode) (input : LineIn N) : (w.step input).InTextMode := by
  obtain ⟨hview, hread, hwrite⟩ := w.view_step input h.textMode
  refine ⟨hread, hwrite, ?_⟩
  have hparser : (w.step input).parser.view
      = (w.parser.view.feed (w.received input).toList).1 := by
    show (w.step input).view.parser = _
    rw [hview]
    show (w.received input).elim w.parser.view w.parser.view.rx = _
    cases w.received input with
    | none => rfl
    | some c => rfl
  have hunsent := h.unsent
  rw [w.unsent_step input, UartParser.feed_append] at hunsent
  rw [hparser]
  exact hunsent

/-- A line that starts in text mode stays in it. -/
theorem InTextMode.run (h : w.InTextMode) (ins : Nat → LineIn N) (t : Nat) :
    (trajectory UartLine.step w ins t).InTextMode :=
  trajectory_invariant (fun _ input (_ : True) hw => hw.step input) (fun _ => trivial) h t

end UartLine

end VivadoTest.Host

/-! ### Requests and pulses -/

namespace VivadoTest.Spec.AccessRegs

open VivadoTest.Framework

variable (a : AccessRegs) (p : UartParser) (c : Option Byte) (rdData : Byte)

/-- An access is requested. -/
def requests : Bool := a.iReadReq || a.iWriteReq

/-- An access is on the bus. -/
def onBus : Bool := a.iIntRead || a.iIntWrite

/-- A request is new, or has not been granted so far. -/
theorem requests_step (h : (a.step p c rdData).requests = true) :
    c.isSome = true ∨ a.requests = true ∧ a.uartGnt = false := by
  cases c with
  | some c => exact Or.inl rfl
  | none =>
    refine Or.inr ?_
    cases hgnt : a.uartGnt with
    | false => exact ⟨by simpa [requests, step, endsCommand, hgnt] using h, rfl⟩
    | true => simp [requests, step, endsCommand, hgnt] at h

/-- A pulse comes of a request; one that was there before stays only behind a character. -/
theorem onBus_step (h : (a.step p c rdData).onBus = true) :
    c.isSome = true ∨ a.requests = true := by
  cases c with
  | some c => exact Or.inl rfl
  | none =>
    have hgranted : a.uartGnt = true ∧ (a.iReadReq = true ∨ a.iWriteReq = true) := by
      simpa [onBus, step, endsCommand, ← and_or_left] using h
    exact Or.inr ((Bool.or_eq_true _ _).mpr hgranted.2)

end VivadoTest.Spec.AccessRegs

namespace VivadoTest.Host.UartLine

open VivadoTest.Lib VivadoTest.Framework VivadoTest.Spec

variable {N : Nat} {w : UartLine N} {ins : Nat → LineIn N}

/-- The registers of the access after `t` cycles. -/
def accessAt (w : UartLine N) (ins : Nat → LineIn N) (t : Nat) : AccessRegs :=
  (trajectory UartLine.step w ins t).view.access

/-- What is under way on the bus was asked for by a recent character: a request is granted in its
second cycle, and the third is the pulse. -/
structure Recent (w : UartLine N) (ins : Nat → LineIn N) (t : Nat) : Prop where
  request : (accessAt w ins t).requests = true → ∃ u < t, (ins u).arrives = true ∧ t ≤ u + 2 ∧
    (t = u + 2 → (accessAt w ins t).uartGnt = true)
  pulse : (accessAt w ins t).onBus = true → ∃ u < t, (ins u).arrives = true ∧ t ≤ u + 3

/-- A character that the parser receives arrives. -/
theorem arrives_of_received {input : LineIn N} (h : (w.received input).isSome = true) :
    input.arrives = true := by
  unfold received at h
  by_contra hno
  rw [if_neg hno] at h
  exact absurd h Bool.false_ne_true

/-- The registers of the access step on what the parser receives. -/
theorem InTextMode.accessAt_succ (h : w.InTextMode) (ins : Nat → LineIn N) (t : Nat) :
    accessAt w ins (t + 1) = (accessAt w ins t).step
      (trajectory UartLine.step w ins t).view.parser
      ((trajectory UartLine.step w ins t).received (ins t))
      ((trajectory UartLine.step w ins t).presented (ins t)) := by
  have hview := ((trajectory UartLine.step w ins t).view_step (ins t)
    (h.run ins t).textMode).1
  exact congrArg TextLine.access hview

/-- One cycle. -/
theorem Recent.step (h : w.InTextMode) {t : Nat} (hrecent : Recent w ins t) :
    Recent w ins (t + 1) := by
  have hstep := h.accessAt_succ ins t
  refine ⟨fun hreq => ?_, fun hpulse => ?_⟩
  · rw [hstep] at hreq
    rcases AccessRegs.requests_step _ _ _ _ hreq with hnew | ⟨hold, hgnt⟩
    · exact ⟨t, Nat.lt_succ_self t, arrives_of_received hnew, by omega, fun heq => by omega⟩
    · -- not granted so far, so in its first cycle; the grant follows the request
      obtain ⟨u, hu, harr, hle, hgranted⟩ := hrecent.request hold
      have hne : t ≠ u + 2 := fun heq => Bool.false_ne_true (hgnt.symm.trans (hgranted heq))
      refine ⟨u, by omega, harr, by omega, fun _ => ?_⟩
      rw [hstep]
      exact hold
  · rw [hstep] at hpulse
    rcases AccessRegs.onBus_step _ _ _ _ hpulse with hnew | hold
    · exact ⟨t, Nat.lt_succ_self t, arrives_of_received hnew, by omega⟩
    · obtain ⟨u, hu, harr, hle, -⟩ := hrecent.request hold
      exact ⟨u, by omega, harr, by omega⟩

section
variable (h : w.InTextMode) (hreq : w.view.access.requests = false)
  (hbus : w.view.access.onBus = false)
include h hreq hbus

/-- A run that starts with nothing under way. -/
theorem recent_run (ins : Nat → LineIn N) (t : Nat) : Recent w ins t := by
  induction t with
  | zero =>
    exact ⟨fun hreq' => absurd (hreq.symm.trans hreq') Bool.false_ne_true,
      fun hbus' => absurd (hbus.symm.trans hbus') Bool.false_ne_true⟩
  | succ t ih => exact ih.step h

/-- **The address stays behind a pulse.** The line is in text mode, it starts with nothing under
way, and its characters are eight cycles apart. -/
theorem address_kept (hins : Delivers ins) (t : Nat)
    (hpulse : pulses (trajectory UartLine.step w ins t).parser.bus ≠ []) :
    (trajectory UartLine.step w ins (t + 1)).parser.bus.regAddress
      = (trajectory UartLine.step w ins t).parser.bus.regAddress := by
  have honBus : (accessAt w ins t).onBus = true := by
    show ((trajectory UartLine.step w ins t).parser.iIntRead ||
      (trajectory UartLine.step w ins t).parser.iIntWrite) = true
    by_contra hno
    rw [Bool.not_eq_true, Bool.or_eq_false_iff] at hno
    refine hpulse ?_
    simp [pulses, UartRegs.bus, hno]
  obtain ⟨u, hut, harr, hle⟩ := (recent_run h hreq hbus ins t).pulse honBus
  -- the next character is not there yet
  have hnone : (trajectory UartLine.step w ins t).received (ins t) = none := by
    rw [← Option.not_isSome_iff_eq_none]
    intro hsome
    have hfar := hins.spaced u t hut harr (arrives_of_received hsome)
    omega
  have hstep := congrArg AccessRegs.iIntAddress (h.accessAt_succ ins t)
  rw [hnone] at hstep
  exact hstep

end

end VivadoTest.Host.UartLine
