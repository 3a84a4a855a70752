import VivadoTest.Framework.WiredBoard
import VivadoTest.Proofs.UartCalls
import VivadoTest.Proofs.UartLoop
import VivadoTest.Proofs.UartWire

/-!
# `VivadoTest.Proofs.WiredBoard`: from the wire to the bus

`UartLine` takes the characters of the host as events. Here they are frames on a wire: a run of the
board with its wire is a run of `UartLine` in which a character arrives when `uartRx` announces one
(`Refines`). Two announcements are at least sixteen cycles apart on any wire (`newRxData_spaced`),
and a transmitter that has begun comes to an end (`txEnds_again`), so that the results about
`UartLine` apply.

* `WiredBoard.writes_from_wire`: the commands of a host that writes bytes end as the same writes on
  the bus.

## The two sides of the refinement

On the side of the receiver a character arrives when it is announced, which happens every sixteen
cycles at most, whatever is on the wire: this is the pace that the parser needs. On the side of the
transmitter, a character of an answer is done when the transmitter is no longer busy. It takes ten
bits for it, and the pulses of the baud generator keep coming, so the wait has an end.

The wire itself is the one of `VivadoTest.Spec.SerialWire`, with the frames of the commands on it.
`writes_from_wire` holds at any time, with a first part of the writes, and with all of them when
the last frame is over.
-/

set_option autoImplicit false

namespace VivadoTest.Framework

open VivadoTest.Lib

/-! ### The pace of the receiver -/

/-- The counter of the receiver goes up by one at most. -/
theorem count16_le (r : UartRx) (input : UartRxIn) (k : Nat) (hk : r.count16.toNat ≤ k) :
    (r.step input).count16.toNat ≤ k + 1 := by
  unfold UartRx.step
  split_ifs <;> simp [UartRx.reset, BitVec.toNat_add] <;> omega

/-- An announcement starts the counter of the receiver anew. -/
theorem newRxData_step {r : UartRx} {input : UartRxIn} (h : (r.step input).newRxData = true) :
    r.count16 = 15 ∧ (r.step input).count16 = 0 := by
  cases hclr : input.clr with
  | true => simp [UartRx.step, hclr, UartRx.reset] at h
  | false =>
    simp only [UartRx.step, hclr, UartRx.ce1, Bool.false_eq_true, if_false, Bool.and_eq_true,
      decide_eq_true_eq] at h
    obtain ⟨⟨hbusy, -⟩, hcount, hce⟩ := h
    refine ⟨hcount, ?_⟩
    simp [UartRx.step, hclr, hce, hbusy, hcount]

/-- On any wire. -/
theorem newRxData_spaced (r : UartRx) (ins : Nat → UartRxIn) {t u : Nat} (htu : t < u)
    (ht : (rxAt r ins (t + 1)).newRxData = true) (hu : (rxAt r ins (u + 1)).newRxData = true) :
    t + 16 ≤ u := by
  have hstart : (rxAt r ins (t + 1)).count16 = 0 := (newRxData_step ht).2
  have hend : (rxAt r ins u).count16 = 15 := (newRxData_step hu).1
  have hpace : ∀ k, (rxAt r ins (t + 1 + k)).count16.toNat ≤ k := by
    intro k
    induction k with
    | zero => simp [hstart]
    | succ k ih => exact count16_le _ _ k ih
  have hlate := hpace (u - (t + 1))
  rw [show t + 1 + (u - (t + 1)) = u by omega, hend] at hlate
  simp at hlate
  omega

/-! ### The transmitter comes to an end -/

/-- The last pulse of the stop bit. -/
def UartTx.ends (s : UartTx) (input : UartTxIn) : Bool := s.bitCount = 0b1001 && s.ce1 input

/-- What the transmitter does in a cycle, as `UartLine` has it. -/
theorem iTxBusy_step (s : UartTx) {input : UartTxIn} (hclr : input.clr = false) :
    (s.step input).iTxBusy =
      if !s.iTxBusy && input.newTxData then true
      else if s.iTxBusy && (!s.iTxBusy || s.ends input) then false
      else s.iTxBusy := by
  cases hbusy : s.iTxBusy <;> simp [UartTx.step, hclr, hbusy, UartTx.ends]

section
variable {s : UartTx} {ins : Nat → UartTxIn}

/-- The transmitter is free, or within the pulses of a byte. -/
def TxRun (s : UartTx) : Prop := s.iTxBusy = false ∨ ∃ b, ∃ n < 160, Sending s b n

/-- A transmitter keeps to the pattern of its counters. -/
theorem TxRun.step {input : UartTxIn} (h : TxRun s) (hclr : input.clr = false) :
    TxRun (s.step input) := by
  rcases h with hfree | ⟨b, n, hn, hsend⟩
  · cases hnew : input.newTxData with
    | false => exact Or.inl ((step_of_idle hfree hclr).2.trans hnew)
    | true => exact Or.inr ⟨_, 0, by decide, sending_of_accept hfree hclr hnew⟩
  · cases hce : input.ce16 with
    | false => exact Or.inr ⟨b, n, hn, hsend.step_of_not hclr hce⟩
    | true =>
      by_cases hlast : n < 159
      · exact Or.inr ⟨b, n + 1, by omega, hsend.step_of_pulse hclr hce hlast⟩
      · obtain rfl : n = 159 := by omega
        exact Or.inl (hsend.step_last hclr hce)

/-- The last pulse of the stop bit ends the byte. -/
theorem Sending.ends {b : Byte} {input : UartTxIn} (h : Sending s b 159) (hce : input.ce16 = true) :
    s.ends input = true := by
  have hcount : s.count16 = 15 := by simp [h.count]
  have hbits : s.bitCount = 9 := by simp [h.bits]
  simp [UartTx.ends, UartTx.ce1, hce, hcount, hbits]

/-- While pulses keep coming, the transmitter is free or ends a byte again and again. -/
theorem txEnds_again (hclr : ∀ t, (ins t).clr = false)
    (hce : ∀ t, ∃ u, t ≤ u ∧ (ins u).ce16 = true) (h0 : TxRun s) (t : Nat) :
    ∃ u, t ≤ u ∧ ((trajectory UartTx.step s ins u).iTxBusy = false ∨
      (trajectory UartTx.step s ins u).ends (ins u) = true) := by
  have hrun : ∀ t, TxRun (trajectory UartTx.step s ins t) :=
    trajectory_invariant (fun _ input (hok : input.clr = false) h => TxRun.step h hok) hclr h0
  rcases hrun t with hfree | ⟨b, n, hn, hsend⟩
  · exact ⟨t, Nat.le_refl t, Or.inl hfree⟩
  -- by induction on the pulses that are left
  obtain ⟨k, hk⟩ : ∃ k, n + k = 159 := ⟨159 - n, by omega⟩
  induction k generalizing t n with
  | zero =>
    obtain rfl : n = 159 := by omega
    obtain ⟨u, -, htu, -, -, hsend', hu⟩ := @LeadsTo.wait Unit (fun _ => [])
      (fun u => Sending (trajectory UartTx.step s ins u) b 159) _ hce
      (fun u h hno => ⟨rfl, h.step_of_not (hclr u) (by simpa using hno)⟩) t hsend
    exact ⟨u, htu, Or.inr (hsend'.ends hu)⟩
  | succ k ih =>
    obtain ⟨u, -, htu, -, -, hsend', hu⟩ := @LeadsTo.wait Unit (fun _ => [])
      (fun u => Sending (trajectory UartTx.step s ins u) b n) _ hce
      (fun u h hno => ⟨rfl, h.step_of_not (hclr u) (by simpa using hno)⟩) t hsend
    obtain ⟨v, huv, hv⟩ := ih (u + 1) (n + 1) (by omega)
      (hsend'.step_of_pulse (hclr u) hu (by omega)) (by omega)
    exact ⟨v, by omega, hv⟩

end

end VivadoTest.Framework

namespace VivadoTest.Host

open VivadoTest.Lib VivadoTest.Framework

variable {N : Nat}

section
variable (board : Board N) (ins : Nat → WiredIn N)

/-- The board with its wire after `t` cycles. -/
abbrev wiredAt : Nat → WiredBoard N := trajectory WiredBoard.step (WiredBoard.reset board) ins

/-- The pulses on the bus in the first `t` cycles. -/
def busOps : Nat → List BusOp
  | 0 => []
  | t + 1 => busOps t ++ pulses (wiredAt board ins t).up.bus

/-- The bytes that the parser has taken before the cycle `t`. -/
def heardBefore (t : Nat) : List Byte :=
  announcedBytes (fun u => (wiredAt board ins u).ut.ur) (t - 1)

/-- The line of the run. From the cycle `tail` on, when no more bytes come, it goes on delivering to
a host that has none left. -/
def lineOf (tail t : Nat) : LineIn N where
  arrives := (wiredAt board ins t).ut.ur.newRxData ||
    decide (tail + 8 ≤ t ∧ (t - tail) % 8 = 0)
  rxIdle := (wiredAt board ins t).ut.ur.rxData
  txDone := !(wiredAt board ins t).ut.ut.iTxBusy ||
    (wiredAt board ins t).ut.ut.ends ((wiredAt board ins t).ut.utIn ((wiredAt board ins t).utIn
      (ins t)))
  proc := (ins t).proc

/-- The line and the board with its wire in the same cycle. -/
structure Refines (bytes : List Byte) (w : UartLine N) (t : Nat) : Prop where
  todo : w.host.todo = (bytes.drop (heardBefore board ins t).length).map .send
  parser : w.parser = (wiredAt board ins t).up
  uartGnt : w.uartGnt = (wiredAt board ins t).uartGnt
  txBusy : w.txBusy = (wiredAt board ins t).ut.ut.iTxBusy
  board : w.board = (wiredAt board ins t).board

variable {board ins}

/-- The serial core of the wired board, run on its own on what the board gives it. -/
theorem topAt_wiredAt (t : Nat) :
    topAt (fun u => (wiredAt board ins u).utIn (ins u)) t = (wiredAt board ins t).ut := by
  induction t with
  | zero => rfl
  | succ t ih =>
    rw [topAt, trajectory_succ]
    exact congrArg (fun s => UartTop.step s _ baudFreq baudLimit) ih

/-- What has been heard, with one cycle more. -/
theorem heardBefore_succ (t : Nat) : heardBefore board ins (t + 1) = heardBefore board ins t ++
    if (wiredAt board ins t).ut.ur.newRxData then [(wiredAt board ins t).ut.ur.rxData] else [] := by
  cases t with
  | zero => rfl
  | succ t => rfl

/-- The transmitter of the wired board, run on its own. -/
theorem ut_wiredAt (t : Nat) : trajectory UartTx.step UartTx.reset
    (fun u => (wiredAt board ins u).ut.utIn ((wiredAt board ins u).utIn (ins u))) t =
      (wiredAt board ins t).ut.ut := by
  induction t with
  | zero => rfl
  | succ t ih =>
    rw [trajectory_succ, ih]
    rfl

/-- What was on the bus stays in the log. -/
theorem busOps_grows {s t : Nat} (h : s ≤ t) : busOps board ins s <+: busOps board ins t := by
  induction t, h using Nat.le_induction with
  | base => exact List.prefix_refl _
  | succ t _ ih => exact ih.trans (List.prefix_append _ _)

/-! ### The host on the line -/

/-- A host that only sends has nothing to do with answers. -/
theorem HostState.todo_answer_of_sends {h : HostState} {bytes : List Byte}
    (hsend : h.todo = bytes.map .send) : h.answer.todo = h.todo := by
  cases bytes with
  | nil =>
    rw [List.map_nil] at hsend
    simp [HostState.answer, hsend]
  | cons c rest =>
    rw [List.map_cons] at hsend
    simp [HostState.answer, hsend]

/-- A host that only sends goes on with the next byte when one has arrived. -/
theorem UartLine.todo_hostStep {w : UartLine N} {bytes : List Byte}
    (hsend : w.host.todo = bytes.map .send) (input : LineIn N) :
    (w.hostStep input).todo = (if input.arrives then bytes.tail else bytes).map .send := by
  have hsent : w.host.sent.todo = bytes.tail.map .send := by
    cases bytes with
    | nil =>
      rw [List.map_nil] at hsend
      simp [HostState.sent, hsend]
    | cons c rest =>
      rw [List.map_cons] at hsend
      simp [HostState.sent, hsend]
  have hqueued : (if input.arrives then w.host.sent else w.host).todo =
      (if input.arrives then bytes.tail else bytes).map .send := by
    split
    · exact hsent
    · exact hsend
  have hreceived : (if w.txBusy && input.txDone then
      (if input.arrives then w.host.sent else w.host).receive w.sending
      else if input.arrives then w.host.sent else w.host).todo =
        (if input.arrives then bytes.tail else bytes).map .send := by
    rw [← hqueued]
    cases w.txBusy && input.txDone <;> rfl
  exact (HostState.todo_answer_of_sends hreceived).trans hreceived

/-! ### The refinement -/

section
variable {frames : List WireFrame}
  (hrate : ∀ f ∈ frames, 208 ≤ f.bitTime ∧ f.bitTime ≤ 228)
  (hline : ∀ t, (ins t).serIn = WireFrame.wire frames t)
include hrate hline

/-- The receiver hears the bytes of the wire in order, and all of them once the last frame is
over. -/
theorem heardBefore_grows (t : Nat) :
    heardBefore board ins t <+: frames.map WireFrame.byte ∧
      (WireFrame.lengths frames + 3 ≤ t →
        heardBefore board ins t = frames.map WireFrame.byte) := by
  obtain ⟨hpre, hall⟩ := announced_wire frames hrate
    (fun u => (wiredAt board ins u).utIn (ins u)) (fun _ => rfl) hline (t - 1)
  simp only [funext rxAt_topRxIn, topAt_wiredAt] at hpre hall
  exact ⟨hpre, fun h => hall (by omega)⟩

/-- What the parser takes next is the next byte on the wire. -/
theorem drop_heardBefore {t : Nat} (hnew : (wiredAt board ins t).ut.ur.newRxData = true) :
    (frames.map WireFrame.byte).drop (heardBefore board ins t).length =
      (wiredAt board ins t).ut.ur.rxData ::
        (frames.map WireFrame.byte).drop (heardBefore board ins (t + 1)).length := by
  obtain ⟨rest, hrest⟩ := (@heardBefore_grows _ board _ _ hrate hline (t + 1)).1
  rw [heardBefore_succ, if_pos hnew] at hrest ⊢
  rw [← hrest]
  simp

/-- One cycle of the wired board is one cycle of the line that it refines. A byte arrives there
when the receiver announces it. -/
theorem Refines.step {w : UartLine N} {t : Nat}
    (h : Refines board ins (frames.map WireFrame.byte) w t) :
    Refines board ins (frames.map WireFrame.byte)
      (w.step (lineOf board ins (WireFrame.lengths frames + 3) t)) (t + 1) := by
  obtain ⟨htodo, hparser, hgnt, hbusy, hboard⟩ := h
  obtain ⟨remaining, hrem⟩ : ∃ l, l = (frames.map WireFrame.byte).drop
    (heardBefore board ins t).length := ⟨_, rfl⟩
  rw [← hrem] at htodo
  -- What the parser receives, and what is left on the wire then.
  have hcases :
      (w.received (lineOf board ins (WireFrame.lengths frames + 3) t) =
          if (wiredAt board ins t).ut.ur.newRxData then some (wiredAt board ins t).ut.ur.rxData
          else none) ∧
        (if (lineOf board ins (WireFrame.lengths frames + 3) t).arrives then remaining.tail
          else remaining) =
            (frames.map WireFrame.byte).drop (heardBefore board ins (t + 1)).length := by
    cases hnew : (wiredAt board ins t).ut.ur.newRxData with
    | true =>
      have hnext := @drop_heardBefore _ board _ _ hrate hline _ hnew
      rw [← hrem] at hnext
      rw [hnext, List.map_cons] at htodo
      simp [UartLine.received, lineOf, hnew, HostState.nextChar, htodo, hnext]
    | false =>
      have hsame : heardBefore board ins (t + 1) = heardBefore board ins t := by
        rw [heardBefore_succ, hnew]
        simp
      rw [hsame, ← hrem]
      by_cases htail : WireFrame.lengths frames + 3 ≤ t
      · have hnil : remaining = [] := by
          rw [hrem, (@heardBefore_grows _ board _ _ hrate hline t).2 htail, List.drop_length]
        subst hnil
        simp [UartLine.received, HostState.nextChar, htodo]
      · have hearly : ¬ WireFrame.lengths frames + 3 + 8 ≤ t := by omega
        simp [UartLine.received, lineOf, hnew, hearly]
  obtain ⟨hreceived, hleft⟩ := hcases
  have hin : w.uartIn (lineOf board ins (WireFrame.lengths frames + 3) t) =
      (wiredAt board ins t).upIn (ins t) := by
    simp only [UartLine.uartIn, hreceived, UartLine.presented, UartLine.boardIn, WiredBoard.upIn,
      WiredBoard.boardIn, hparser, hgnt, hbusy, hboard]
    cases hnew : (wiredAt board ins t).ut.ur.newRxData <;> simp [lineOf]
  refine ⟨?_, ?_, ?_, ?_, ?_⟩
  · rw [← hleft]
    exact UartLine.todo_hostStep htodo _
  · simp only [UartLine.step, hin, hparser]
    rfl
  · simp only [UartLine.step, hparser]
    rfl
  · simp only [UartLine.step, hparser, hbusy]
    exact (@iTxBusy_step (wiredAt board ins t).ut.ut ((wiredAt board ins t).ut.utIn
      ((wiredAt board ins t).utIn (ins t))) rfl).symm
  · simp only [UartLine.step, UartLine.boardIn, hparser, hboard]
    rfl

/-- A host that has written its bytes to the serial line, which are the frames on the wire. -/
theorem refines_run {calls : List Call} (hsends : (HostState.start calls).todo =
      (frames.map WireFrame.byte).map .send) (t : Nat) :
    Refines board ins (frames.map WireFrame.byte)
      (trajectory UartLine.step (UartLine.afterReset calls board)
        (lineOf board ins (WireFrame.lengths frames + 3)) t) t := by
  induction t with
  | zero => exact ⟨hsends, rfl, rfl, rfl, rfl⟩
  | succ t ih => exact ih.step hrate hline

/-- The line of the run is one that delivers. -/
theorem delivers_lineOf : Delivers (lineOf board ins (WireFrame.lengths frames + 3)) := by
  have hrx : ∀ t, (wiredAt board ins t).ut.ur =
      rxAt UartRx.reset (topRxIn fun u => (wiredAt board ins u).utIn (ins u)) t := fun t => by
    rw [rxAt_topRxIn, topAt_wiredAt]
  -- No byte is announced behind the end of the wire.
  have hquiet : ∀ t, WireFrame.lengths frames + 3 ≤ t →
      (wiredAt board ins t).ut.ur.newRxData = false := by
    intro t ht
    by_contra hnew
    have hgrow := @heardBefore_succ _ board ins t
    rw [(heardBefore_grows hrate hline t).2 ht, (heardBefore_grows hrate hline (t + 1)).2
      (by omega), if_pos (by simpa using hnew)] at hgrow
    simpa using congrArg List.length hgrow
  have hspaced : ∀ t u, t < u → (wiredAt board ins t).ut.ur.newRxData = true →
      (wiredAt board ins u).ut.ur.newRxData = true → t + 16 ≤ u := by
    intro t u htu ht hu
    have ht0 : t ≠ 0 := by
      rintro rfl
      exact Bool.noConfusion ht
    obtain ⟨v, rfl⟩ : ∃ v, t = v + 1 := ⟨t - 1, by omega⟩
    obtain ⟨w, rfl⟩ : ∃ w, u = w + 1 := ⟨u - 1, by omega⟩
    rw [hrx] at ht hu
    have := newRxData_spaced _ _ (show v < w by omega) ht hu
    omega
  have hpulse : ∀ t, ∃ u, t ≤ u ∧
      ((wiredAt board ins u).ut.utIn ((wiredAt board ins u).utIn (ins u))).ce16 = true := by
    intro t
    obtain ⟨u, htu, hu⟩ :=
      @pulse_again (fun u => (wiredAt board ins u).utIn (ins u)) (fun _ => rfl) t
    rw [topRxIn, topAt_wiredAt] at hu
    exact ⟨u, htu, hu⟩
  refine ⟨fun t u htu ht hu => ?_, fun t => ?_, fun t => ?_⟩
  · simp only [lineOf, Bool.or_eq_true, decide_eq_true_eq] at ht hu
    rcases ht with ht | ht
    · have hend : t < WireFrame.lengths frames + 3 := by
        by_contra hge
        simp [hquiet t (by omega)] at ht
      rcases hu with hu | hu
      · have := hspaced t u htu ht hu
        omega
      · omega
    · simp only [hquiet u (by omega), Bool.false_eq_true, false_or] at hu
      omega
  · refine ⟨WireFrame.lengths frames + 3 + 8 * (t + 1), by omega, ?_⟩
    simp only [lineOf, Bool.or_eq_true, decide_eq_true_eq]
    exact Or.inr (by omega)
  · obtain ⟨u, htu, hu⟩ := @txEnds_again UartTx.reset
      (fun u => (wiredAt board ins u).ut.utIn ((wiredAt board ins u).utIn (ins u)))
      (fun _ => rfl) hpulse (Or.inl rfl) t
    refine ⟨u, htu, ?_⟩
    simp only [lineOf, Bool.or_eq_true, Bool.not_eq_true']
    rw [← ut_wiredAt]
    exact hu

/-- **From the wire to the bus.** The commands of `_writeByte` for any bytes at any addresses come
over the wire in frames, at any rate that the receiver stands and with any time in between. Then the
pulses on the bus are these writes, in order and one for each: the first of them at any time, and
all of them in the end. -/
theorem WiredBoard.writes_from_wire (calls : List (BitVec 16 × Byte))
    (hbytes : frames.map WireFrame.byte = calls.flatMap fun c => (Call.writeByte c.1 c.2).text)
    (board : Board N) :
    (∀ t, busOps board ins t <+: calls.map fun c => .write c.1 c.2) ∧
      ∃ T, ∀ t, T ≤ t → busOps board ins t = calls.map fun c => .write c.1 c.2 := by
  obtain ⟨writes, hwrites⟩ : ∃ l, l = calls.map fun c => Call.writeByte c.1 c.2 := ⟨_, rfl⟩
  have hsends : (HostState.start writes).todo = (frames.map WireFrame.byte).map .send := by
    show writes.flatMap Call.actions = _
    rw [hbytes, hwrites, List.map_flatMap, List.flatMap_map]
    rfl
  have hops : writes.map Call.op = calls.map fun c => .write c.1 c.2 := by
    rw [hwrites, List.map_map]
    rfl
  have hrun := @refines_run _ board _ _ hrate hline _ hsends
  have hbus : ∀ t, busOps board ins t = (accesses (UartLine.afterReset writes board)
      (lineOf board ins (WireFrame.lengths frames + 3)) t).map Prod.fst := by
    intro t
    induction t with
    | zero => rfl
    | succ t ih =>
      rw [busOps, accesses, List.map_append, ← ih, (hrun t).parser, List.map_map]
      exact congrArg (_ ++ ·) (List.map_id _).symm
  -- the accesses of the refined run are those of the bus
  obtain ⟨T, hT⟩ := (UartLine.afterReset writes board).calls_answered
    (UartLine.atRest_afterReset writes board) writes rfl (delivers_lineOf hrate hline)
  have hall : ∀ t, T ≤ t → busOps board ins t = calls.map fun c => .write c.1 c.2 := fun t ht => by
    rw [hbus, (hT t ht).2.1, hops]
  refine ⟨fun t => ?_, T, hall⟩
  rw [← hall (t + T) (by omega)]
  exact busOps_grows (by omega)

end

end

/-- Three bytes for the data memory: two words of it, and the first of them once more. -/
def threeWrites : List (BitVec 16 × Byte) := [(0x8001, 0xAB), (0x8004, 0x00), (0x8001, 0x10)]

/-- Their commands in frames, at 115200 baud with a pause in front of each character. -/
def writeFrames : List WireFrame :=
  (threeWrites.flatMap fun c => (Call.writeByte c.1 c.2).text).map fun b => ⟨10, 217, b⟩

/-- They reach the bus in their order, and nothing else does. -/
theorem WiredBoard.writes_from_wire_three :
    ∃ T, ∀ t, T ≤ t →
      busOps (Board.blank (N := 1)) (fun t => ⟨WireFrame.wire writeFrames t, .quiet⟩) t =
        [.write 0x8001 0xAB, .write 0x8004 0x00, .write 0x8001 0x10] := by
  have hrate : ∀ f ∈ writeFrames, 208 ≤ f.bitTime ∧ f.bitTime ≤ 228 := by
    intro f hf
    obtain ⟨b, -, rfl⟩ := List.mem_map.mp hf
    show 208 ≤ 217 ∧ 217 ≤ 228
    decide
  have hbytes : writeFrames.map WireFrame.byte
      = threeWrites.flatMap fun c => (Call.writeByte c.1 c.2).text := by
    rw [writeFrames, List.map_map]
    exact List.map_id _
  exact (@WiredBoard.writes_from_wire 1 _ writeFrames hrate (fun _ => rfl) threeWrites hbytes
    Board.blank).2

end VivadoTest.Host
