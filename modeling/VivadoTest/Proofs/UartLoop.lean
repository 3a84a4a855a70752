import VivadoTest.Proofs.UartBits

/-!
# `VivadoTest.Proofs.UartLoop`: from a transmitter to a receiver

The bytes that a transmitter accepts, one whenever it is free and `newTxData` is high, are the
bytes that a receiver at the other end of the line announces, in the same order and each of them
once, whatever the pace of `ce16` (`announced_eq_accepted`). At most the byte that is on its way
is missing.

The receiver sees the line three cycles after the transmitter has decided about it. In three cycles
there are at most three pulses, so it still looks at the right bit.

## The invariant of the link

The transmitter is idle, or it is `n` pulses into a byte (`Sending`), and 160 pulses after it has
accepted the byte it is done. `LinkRun` has these two cases for a cycle of a run. In the second
one, what the receiver does follows from `VivadoTest.Proofs.UartBits`: the line that it sees is a
frame (`frame_of_accept`), so that it has announced the byte before the transmitter is done
(`rest_after_frame`).

Both ends take their pulses from one `ce16`, so nothing has to be assumed about its pace. The
transmitter accepts a byte in any cycle in which it is not busy, pulse or not.
-/

set_option autoImplicit false

namespace VivadoTest.Framework

open VivadoTest.Lib

/-! ### The transmitter, one cycle -/

/-- The transmitter `n` pulses after it has accepted the byte `b`. -/
structure Sending (s : UartTx) (b : Byte) (n : Nat) : Prop where
  busy : s.iTxBusy = true
  count : s.count16 = BitVec.ofNat 4 n
  bits : s.bitCount = BitVec.ofNat 4 (n / 16)
  data : ∀ i < 9, s.dataBuf.getLsbD i = frameBit b (n / 16 + i)

/-- The byte with the start bit below it. -/
theorem getLsbD_load (b : Byte) (i : Nat) (hi : i < 9) :
    (b ++ 0#1 : BitVec 9).getLsbD i = frameBit b i := by
  rw [BitVec.getLsbD_append]
  cases i with
  | zero => simp [frameBit]
  | succ j => simp [frameBit, show j < 8 by omega]

/-- One bit down, and a stop bit at the top. -/
theorem getLsbD_shift (d : BitVec 9) (i : Nat) (hi : i < 9) :
    (1#1 ++ d.extractLsb' 1 8 : BitVec 9).getLsbD i =
      if i < 8 then d.getLsbD (i + 1) else true := by
  rw [BitVec.getLsbD_append]
  by_cases h8 : i < 8
  · simp [h8, Nat.add_comm 1 i]
  · simp [show i = 8 by omega]

/-- A byte that is accepted is sent from its first pulse on. -/
theorem sending_of_accept {s : UartTx} (h : s.iTxBusy = false) {input : UartTxIn}
    (hclr : input.clr = false) (hnew : input.newTxData = true) :
    Sending (s.step input) input.txData 0 where
  busy := by simp [UartTx.step, hclr, h, hnew]
  count := by simp [UartTx.step, hclr, h]
  bits := by simp [UartTx.step, hclr, h]
  data := by
    intro i hi
    simp only [UartTx.step, hclr, h, Bool.not_false, Bool.false_eq_true, if_false, if_true]
    rw [getLsbD_load _ i hi, Nat.zero_div, Nat.zero_add]

/-- The line shows the bit that the pulses so far have led to. A bit takes sixteen of them. -/
theorem Sending.serOut {s : UartTx} {b : Byte} {n : Nat} (h : Sending s b n) {input : UartTxIn}
    (hclr : input.clr = false) : (s.step input).serOut = frameBit b (n / 16) := by
  have h0 := h.data 0 (by omega)
  simp only [UartTx.step, hclr, h.busy]
  simpa using h0

/-- Between two pulses nothing changes. -/
theorem Sending.step_of_not {s : UartTx} {b : Byte} {n : Nat} (h : Sending s b n)
    {input : UartTxIn} (hclr : input.clr = false) (hce : input.ce16 = false) :
    Sending (s.step input) b n where
  busy := by simp [UartTx.step, hclr, h.busy, UartTx.ce1, hce]
  count := by simp [UartTx.step, hclr, h.busy, hce, h.count]
  bits := by simp [UartTx.step, hclr, h.busy, UartTx.ce1, hce, h.bits]
  data := by simpa [UartTx.step, hclr, h.busy, UartTx.ce1, hce] using h.data

/-- A pulse goes on by a sixteenth of a bit, up to the last one of the stop bit. -/
theorem Sending.step_of_pulse {s : UartTx} {b : Byte} {n : Nat} (h : Sending s b n)
    {input : UartTxIn} (hclr : input.clr = false) (hce : input.ce16 = true) (hn : n < 159) :
    Sending (s.step input) b (n + 1) := by
  have hend : s.ce1 input = decide (n % 16 = 15) := by
    simp only [UartTx.ce1, hce, Bool.and_true, h.count]
    exact decide_eq_decide.mpr (@ofNat_eq_iff 15 (by decide) n)
  have hlast : decide (s.bitCount = 0b1001) = decide (n / 16 = 9) := by
    rw [h.bits]
    refine decide_eq_decide.mpr ((@ofNat_eq_iff 9 (by decide) _).trans ?_)
    omega
  refine ⟨?_, ?_, ?_, ?_⟩
  -- the last pulse of the stop bit is not reached yet
  · have hgo : (decide (n / 16 = 9) && decide (n % 16 = 15)) = false := by
      simp only [Bool.and_eq_false_iff, decide_eq_false_iff_not]
      omega
    simp only [UartTx.step, hclr, h.busy, hend, hlast, Bool.true_and, hgo]
    rfl
  · simp [UartTx.step, hclr, h.busy, hce, h.count, BitVec.ofNat_add]
  · simp only [UartTx.step, hclr, h.busy, hend, h.bits]
    by_cases h15 : n % 16 = 15
    · simp [h15, show (n + 1) / 16 = n / 16 + 1 by omega, BitVec.ofNat_add]
    · simp [h15, show (n + 1) / 16 = n / 16 by omega]
  · intro i hi
    by_cases h15 : n % 16 = 15
    -- at the end of a bit the frame moves down by one
    · have hshift : (s.step input).dataBuf = 1#1 ++ s.dataBuf.extractLsb' 1 8 := by
        simp [UartTx.step, hclr, h.busy, hend, h15]
      rw [hshift, getLsbD_shift _ i hi, show (n + 1) / 16 = n / 16 + 1 by omega]
      by_cases hi8 : i < 8
      · rw [if_pos hi8, h.data (i + 1) (by omega)]
        congr 1
        omega
      · rw [if_neg hi8, show n / 16 + 1 + i = n / 16 + i + 1 by omega, frameBit]
        simp
        omega
    · have hkeep : (s.step input).dataBuf = s.dataBuf := by
        simp [UartTx.step, hclr, h.busy, hend, h15]
      rw [hkeep, show (n + 1) / 16 = n / 16 by omega]
      exact h.data i hi

/-- The last pulse of the stop bit. -/
theorem Sending.step_last {s : UartTx} {b : Byte} (h : Sending s b 159) {input : UartTxIn}
    (hclr : input.clr = false) (hce : input.ce16 = true) :
    (s.step input).iTxBusy = false := by
  have hcount : s.count16 = 15 := by simp [h.count]
  have hbits : s.bitCount = 9 := by simp [h.bits]
  simp [UartTx.step, hclr, h.busy, UartTx.ce1, hce, hcount, hbits]

/-- A transmitter with nothing to send keeps the line high, and accepts a byte at once. -/
theorem step_of_idle {s : UartTx} (h : s.iTxBusy = false) {input : UartTxIn}
    (hclr : input.clr = false) :
    (s.step input).serOut = true ∧ (s.step input).iTxBusy = input.newTxData := by
  cases hnew : input.newTxData <;> simp [UartTx.step, hclr, h, hnew]

/-! ### Both ends -/

section
variable (ins : Nat → UartLinkIn)

/-- The link after `t` cycles. -/
abbrev linkAt : Nat → UartLink := trajectory UartLink.step UartLink.reset ins

/-- What the receiver is given. -/
def lineIn (t : Nat) : UartRxIn := (linkAt ins t).urIn (ins t)

/-- The bytes that the transmitter accepts in the first `t` cycles. -/
def acceptedBytes : Nat → List Byte
  | 0 => []
  | t + 1 => acceptedBytes t ++
      if !(linkAt ins t).ut.iTxBusy && (ins t).newTxData then [(ins t).txData] else []

/-- Both ends have nothing to do, and the line and the synchroniser are high. -/
structure LinkIdle (t : Nat) : Prop where
  free : (linkAt ins t).ut.iTxBusy = false
  high : (linkAt ins t).ut.serOut = true
  rest : AtRest (linkAt ins t).ur
  synced : (linkAt ins t).ur.inSync = 0b11

variable {ins}

/-- The receiver of the link, run on its own on what the line shows. -/
theorem rxAt_lineIn (t : Nat) : rxAt UartRx.reset (lineIn ins) t = (linkAt ins t).ur := by
  induction t with
  | zero => rfl
  | succ t ih =>
    rw [rxAt, trajectory_succ]
    exact congrArg (fun r => UartRx.step r (lineIn ins t)) ih

/-- The line is not cleared. -/
theorem clr_lineIn (t : Nat) : (lineIn ins t).clr = false := rfl

/-- The line behind the synchroniser is what the transmitter had on it two cycles before. -/
theorem syncedLine_lineIn (t : Nat) :
    syncedLine UartRx.reset (lineIn ins) (t + 2) = (linkAt ins t).ut.serOut :=
  syncedLine_add_two clr_lineIn t

/-- The transmitter, from the cycle after it has accepted a byte to the end of the stop bit. -/
theorem sending_run {t₀ : Nat} (hfree : (linkAt ins t₀).ut.iTxBusy = false)
    (hnew : (ins t₀).newTxData = true) (t : Nat) (ht : t₀ + 1 ≤ t)
    (hle : pulsesBefore (lineIn ins) t ≤ pulsesBefore (lineIn ins) (t₀ + 1) + 159) :
    Sending (linkAt ins t).ut (ins t₀).txData
      (pulsesBefore (lineIn ins) t - pulsesBefore (lineIn ins) (t₀ + 1)) := by
  induction t, ht using Nat.le_induction with
  | base =>
    rw [Nat.sub_self]
    exact @sending_of_accept _ hfree (UartLink.utIn (ins t₀)) rfl hnew
  | succ t ht ih =>
    have hsucc := pulsesBefore_succ (lineIn ins) t
    have hmono := pulsesBefore_mono (lineIn ins) ht
    have ih := ih (by omega)
    cases hce : (ins t).ce16 with
    | false =>
      have hsame : pulsesBefore (lineIn ins) (t + 1) = pulsesBefore (lineIn ins) t := by
        simpa [lineIn, UartLink.urIn, hce] using hsucc
      rw [hsame]
      exact @Sending.step_of_not _ _ _ ih (UartLink.utIn (ins t)) rfl hce
    | true =>
      have hnext : pulsesBefore (lineIn ins) (t + 1) = pulsesBefore (lineIn ins) t + 1 := by
        simpa [lineIn, UartLink.urIn, hce] using hsucc
      rw [hnext, Nat.sub_add_comm hmono]
      exact @Sending.step_of_pulse _ _ _ ih (UartLink.utIn (ins t)) rfl hce (by omega)

/-- The line while the byte is sent, as the receiver sees it. -/
theorem syncedLine_sending {t₀ : Nat} (hfree : (linkAt ins t₀).ut.iTxBusy = false)
    (hnew : (ins t₀).newTxData = true) (t : Nat) (ht : t₀ + 1 ≤ t)
    (hle : pulsesBefore (lineIn ins) t ≤ pulsesBefore (lineIn ins) (t₀ + 1) + 159) :
    syncedLine UartRx.reset (lineIn ins) (t + 3) =
      frameBit (ins t₀).txData
        ((pulsesBefore (lineIn ins) t - pulsesBefore (lineIn ins) (t₀ + 1)) / 16) := by
  rw [syncedLine_lineIn (t + 1)]
  exact @Sending.serOut _ _ _ (sending_run hfree hnew t ht hle) (UartLink.utIn (ins t)) rfl

/-- In three cycles there are at most three pulses. -/
theorem pulsesBefore_add_three (rins : Nat → UartRxIn) (t : Nat) :
    pulsesBefore rins (t + 3) ≤ pulsesBefore rins t + 3 := by
  simp only [pulsesBefore, Nat.count_add]
  exact Nat.add_le_add_left (Nat.count_le _) _

/-- Until the start bit has come through, the receiver sees a high line. -/
theorem LinkIdle.before_frame {t₀ : Nat} (h : LinkIdle ins t₀) (t : Nat) (ht : t₀ ≤ t)
    (hlt : t < t₀ + 4) : syncedLine UartRx.reset (lineIn ins) t = true := by
  have hout : (linkAt ins (t₀ + 1)).ut.serOut = true :=
    (@step_of_idle _ h.free (UartLink.utIn (ins t₀)) rfl).1
  have hsync : (rxAt UartRx.reset (lineIn ins) t₀).inSync = 0b11 := by
    rw [rxAt_lineIn]
    exact h.synced
  obtain rfl | rfl | rfl | rfl : t = t₀ ∨ t = t₀ + 1 ∨ t = t₀ + 2 ∨ t = t₀ + 3 := by omega
  · simp [syncedLine, hsync]
  · simp [syncedLine_succ clr_lineIn, hsync]
  · rw [syncedLine_lineIn, h.high]
  · rw [syncedLine_lineIn (t₀ + 1), hout]

/-- The receiver is at rest until then, and announces nothing. -/
theorem LinkIdle.rest_before_frame {t₀ : Nat} (h : LinkIdle ins t₀) (t : Nat) (ht : t₀ ≤ t)
    (hle : t ≤ t₀ + 4) :
    AtRest (rxAt UartRx.reset (lineIn ins) t) ∧
      announcedBytes (rxAt UartRx.reset (lineIn ins)) t =
        announcedBytes (rxAt UartRx.reset (lineIn ins)) t₀ := by
  induction t, ht using Nat.le_induction with
  | base =>
    rw [rxAt_lineIn]
    exact ⟨h.rest, rfl⟩
  | succ t ht ih =>
    obtain ⟨hrest, hann⟩ := ih (by omega)
    have hline := h.before_frame t ht (by omega)
    obtain ⟨hstep, hquiet⟩ := hrest.step (clr_lineIn t) fun _ => hline
    exact ⟨hstep, (announcedBytes_succ_of_not hquiet).trans hann⟩

/-- What the transmitter sends is a frame for the receiver. -/
theorem frame_of_accept {t₀ : Nat} (hfree : (linkAt ins t₀).ut.iTxBusy = false)
    (hnew : (ins t₀).newTxData = true) :
    Frame UartRx.reset (lineIn ins) (t₀ + 4) (ins t₀).txData := by
  have hthree : pulsesBefore (lineIn ins) (t₀ + 4) ≤ pulsesBefore (lineIn ins) (t₀ + 1) + 3 :=
    pulsesBefore_add_three (lineIn ins) (t₀ + 1)
  have hmono := pulsesBefore_mono (lineIn ins) (show t₀ + 1 ≤ t₀ + 4 by omega)
  -- The bit that the receiver sees was put on the line at most three pulses earlier.
  have hseen : ∀ t, t₀ + 4 ≤ t →
      pulsesBefore (lineIn ins) t ≤ pulsesBefore (lineIn ins) (t₀ + 4) + 152 →
      ∃ k, syncedLine UartRx.reset (lineIn ins) t = frameBit (ins t₀).txData (k / 16) ∧
        pulsesBefore (lineIn ins) t ≤ pulsesBefore (lineIn ins) (t₀ + 4) + k + 3 ∧
        pulsesBefore (lineIn ins) (t₀ + 4) + k ≤ pulsesBefore (lineIn ins) t + 3 := by
    intro t ht hle
    obtain ⟨u, rfl⟩ : ∃ u, t = u + 3 := ⟨t - 3, by omega⟩
    have hu := pulsesBefore_add_three (lineIn ins) u
    have hu' := pulsesBefore_mono (lineIn ins) (show u ≤ u + 3 by omega)
    have hu'' := pulsesBefore_mono (lineIn ins) (show t₀ + 1 ≤ u by omega)
    exact ⟨_, syncedLine_sending hfree hnew u (by omega) (by omega), by omega, by omega⟩
  refine ⟨fun t ht _ n hn hlt => ⟨fun h7 => ?_, fun j hj hnj => ?_⟩, fun t ht _ hn => ?_⟩
  · obtain ⟨k, hline, _, hk⟩ := hseen t ht (by omega)
    rw [hline, show k / 16 = 0 by omega]
    rfl
  · obtain ⟨k, hline, hk, hk'⟩ := hseen t ht (by omega)
    rw [hline, show k / 16 = j + 1 by omega]
    simp [frameBit, hj]
  · obtain ⟨k, hline, hk, hk'⟩ := hseen t ht (by omega)
    rw [hline, show k / 16 = 9 by omega]
    rfl

/-- The receiver has had the frame when the transmitter is done with it. -/
theorem rest_after_frame {t₀ : Nat} (h : LinkIdle ins t₀) (hnew : (ins t₀).newTxData = true)
    (t : Nat) (ht : t₀ + 4 ≤ t)
    (hge : pulsesBefore (lineIn ins) (t₀ + 4) + 153 ≤ pulsesBefore (lineIn ins) t)
    (hle : pulsesBefore (lineIn ins) t ≤ pulsesBefore (lineIn ins) (t₀ + 1) + 160) :
    AtRest (rxAt UartRx.reset (lineIn ins) t) ∧
      announcedBytes (rxAt UartRx.reset (lineIn ins)) t =
        announcedBytes (rxAt UartRx.reset (lineIn ins)) t₀ ++ [(ins t₀).txData] := by
  obtain ⟨hrest, hann⟩ := h.rest_before_frame (t₀ + 4) (by omega) (Nat.le_refl _)
  have hframe := frame_of_accept h.free hnew
  have hin := inFrame clr_lineIn hrest hframe
  have hmono := pulsesBefore_mono (lineIn ins) (show t₀ + 1 ≤ t₀ + 4 by omega)
  -- The first cycle after the middle of the stop bit, and the cycles after that.
  induction t, ht using Nat.le_induction with
  | base => omega
  | succ t ht ih =>
    have hsucc := pulsesBefore_succ (lineIn ins) t
    by_cases hfirst : pulsesBefore (lineIn ins) (t₀ + 4) + 153 ≤ pulsesBefore (lineIn ins) t
    · obtain ⟨hrest', hann'⟩ := ih hfirst (by split at hsucc <;> omega)
      have hline : (lineIn ins t).ce16 = true →
          syncedLine UartRx.reset (lineIn ins) t = true := by
        intro hce
        simp only [hce, if_true] at hsucc
        obtain ⟨u, rfl⟩ : ∃ u, t = u + 3 := ⟨t - 3, by omega⟩
        have hu := pulsesBefore_add_three (lineIn ins) u
        have hu' := pulsesBefore_mono (lineIn ins) (show u ≤ u + 3 by omega)
        rw [syncedLine_sending h.free hnew u (by omega) (by omega),
          show (pulsesBefore (lineIn ins) u - pulsesBefore (lineIn ins) (t₀ + 1)) / 16 = 9 by omega]
        rfl
      obtain ⟨hstep, hquiet⟩ := hrest'.step (clr_lineIn t) hline
      exact ⟨hstep, (announcedBytes_succ_of_not hquiet).trans hann'⟩
    · have hexact : pulsesBefore (lineIn ins) (t + 1) =
          pulsesBefore (lineIn ins) (t₀ + 4) + 153 := by split at hsucc <;> omega
      have hnow := hin (t + 1) (by omega) (by omega)
      refine ⟨hnow.atRest hexact, ?_⟩
      rw [hnow.announced, hexact, hann]
      simp

/-- What the receiver has announced in the middle of a frame. -/
theorem announced_in_frame {t₀ : Nat} (h : LinkIdle ins t₀) (hnew : (ins t₀).newTxData = true)
    (t : Nat) (ht : t₀ ≤ t)
    (hle : pulsesBefore (lineIn ins) t ≤ pulsesBefore (lineIn ins) (t₀ + 1) + 160) :
    announcedBytes (rxAt UartRx.reset (lineIn ins)) t =
        announcedBytes (rxAt UartRx.reset (lineIn ins)) t₀ ∨
      announcedBytes (rxAt UartRx.reset (lineIn ins)) t =
        announcedBytes (rxAt UartRx.reset (lineIn ins)) t₀ ++ [(ins t₀).txData] := by
  by_cases hbefore : t ≤ t₀ + 4
  · exact Or.inl (h.rest_before_frame t ht hbefore).2
  by_cases hafter : pulsesBefore (lineIn ins) (t₀ + 4) + 153 ≤ pulsesBefore (lineIn ins) t
  · exact Or.inr (rest_after_frame h hnew t (by omega) hafter hle).2
  obtain ⟨hrest, hann⟩ := h.rest_before_frame (t₀ + 4) (by omega) (Nat.le_refl _)
  have hnow := inFrame clr_lineIn hrest (frame_of_accept h.free hnew) t (by omega) (by omega)
  rw [hnow.announced, hann]
  split
  · exact Or.inr rfl
  · exact Or.inl (by simp)

/-- The end of the stop bit. -/
theorem linkIdle_after_frame {t₀ : Nat} (h : LinkIdle ins t₀) (hnew : (ins t₀).newTxData = true)
    (t : Nat) (ht : t₀ + 1 ≤ t)
    (hlast : pulsesBefore (lineIn ins) t = pulsesBefore (lineIn ins) (t₀ + 1) + 159)
    (hce : (ins t).ce16 = true) :
    LinkIdle ins (t + 1) ∧ announcedBytes (rxAt UartRx.reset (lineIn ins)) (t + 1) =
      announcedBytes (rxAt UartRx.reset (lineIn ins)) t₀ ++ [(ins t₀).txData] := by
  have hsucc := pulsesBefore_succ (lineIn ins) t
  have hnext : pulsesBefore (lineIn ins) (t + 1) = pulsesBefore (lineIn ins) (t₀ + 1) + 160 := by
    simp only [lineIn, UartLink.urIn, hce, if_true] at hsucc hlast ⊢
    omega
  have hthree : pulsesBefore (lineIn ins) (t₀ + 4) ≤ pulsesBefore (lineIn ins) (t₀ + 1) + 3 :=
    pulsesBefore_add_three (lineIn ins) (t₀ + 1)
  have hsend := sending_run h.free hnew t ht (by omega)
  rw [hlast, Nat.add_sub_cancel_left] at hsend
  have ht₀ : t₀ + 4 ≤ t := by
    by_contra hlt
    have := pulsesBefore_mono (lineIn ins) (show t ≤ t₀ + 4 by omega)
    omega
  obtain ⟨hrest, hann⟩ := rest_after_frame h hnew (t + 1) (by omega) (by omega) (by omega)
  rw [rxAt_lineIn] at hrest
  -- The stop bit has been on the line for more than three cycles.
  have hhigh : ∀ u, t ≤ u + 2 → u ≤ t → (linkAt ins (u + 1)).ut.serOut = true := by
    intro u hu hut
    have hthree' := pulsesBefore_mono (lineIn ins) hut
    have htu : pulsesBefore (lineIn ins) t ≤ pulsesBefore (lineIn ins) u + 3 :=
      (pulsesBefore_mono (lineIn ins) (show t ≤ u + 3 by omega)).trans
        (pulsesBefore_add_three (lineIn ins) u)
    have hsend' := sending_run h.free hnew u (by omega) (by omega)
    have hout := @Sending.serOut _ _ _ hsend' (UartLink.utIn (ins u)) rfl
    rw [show (pulsesBefore (lineIn ins) u - pulsesBefore (lineIn ins) (t₀ + 1)) / 16 = 9 by
      omega] at hout
    exact hout
  refine ⟨⟨@Sending.step_last _ _ hsend (UartLink.utIn (ins t)) rfl hce, hhigh t (by omega)
    (Nat.le_refl t), hrest, ?_⟩, hann⟩
  obtain ⟨v, rfl⟩ : ∃ v, t = v + 2 := ⟨t - 2, by omega⟩
  have h1 : syncedLine UartRx.reset (lineIn ins) (v + 3) = true :=
    (syncedLine_lineIn (v + 1)).trans (hhigh v (by omega) (by omega))
  have h0 : (rxAt UartRx.reset (lineIn ins) (v + 3)).inSync[0] = true :=
    (inSync_zero_succ clr_lineIn (v + 2)).trans (hhigh (v + 1) (by omega) (by omega))
  rw [← rxAt_lineIn]
  ext i hi
  obtain rfl | rfl : i = 0 ∨ i = 1 := by omega
  · simpa using h0
  · simpa using (show (rxAt UartRx.reset (lineIn ins) (v + 3)).lastSync = true from h1)

/-! ### A whole run -/

/-- Nothing is accepted, and the link stays as it is. -/
theorem LinkIdle.step {t : Nat} (h : LinkIdle ins t) (hnew : (ins t).newTxData = false) :
    LinkIdle ins (t + 1) ∧ announcedBytes (rxAt UartRx.reset (lineIn ins)) (t + 1) =
      announcedBytes (rxAt UartRx.reset (lineIn ins)) t := by
  obtain ⟨hhigh, hbusy⟩ := @step_of_idle _ h.free (UartLink.utIn (ins t)) rfl
  obtain ⟨hrest, hann⟩ := h.rest_before_frame (t + 1) (by omega) (by omega)
  rw [rxAt_lineIn] at hrest
  refine ⟨⟨hbusy.trans hnew, hhigh, hrest, ?_⟩, hann⟩
  have hsync : (linkAt ins t).ur.inSync = 0b11 := h.synced
  have hline : (linkAt ins t).ut.serOut = true := h.high
  show ((linkAt ins t).ur.step ((linkAt ins t).urIn (ins t))).inSync = 0b11
  simp [UartRx.step, UartLink.urIn, hsync, hline]

/-- The cycles of a run: the link is idle, or the transmitter is within the 160 pulses of the byte
that it has accepted last. -/
inductive LinkRun (ins : Nat → UartLinkIn) (t : Nat) : Prop
  | idle (h : LinkIdle ins t)
      (same : announcedBytes (rxAt UartRx.reset (lineIn ins)) t = acceptedBytes ins t)
  | sending (t₀ : Nat) (h : LinkIdle ins t₀) (new : (ins t₀).newTxData = true)
      (same : announcedBytes (rxAt UartRx.reset (lineIn ins)) t₀ = acceptedBytes ins t₀)
      (after : t₀ + 1 ≤ t)
      (within : pulsesBefore (lineIn ins) t ≤ pulsesBefore (lineIn ins) (t₀ + 1) + 159)
      (accepted : acceptedBytes ins t = acceptedBytes ins t₀ ++ [(ins t₀).txData])

/-- A byte that is accepted in a cycle. -/
theorem acceptedBytes_succ_of_accept {t : Nat} (hfree : (linkAt ins t).ut.iTxBusy = false)
    (hnew : (ins t).newTxData = true) :
    acceptedBytes ins (t + 1) = acceptedBytes ins t ++ [(ins t).txData] := by
  simp only [acceptedBytes, hfree, hnew, Bool.not_false, Bool.and_self, if_true]

/-- A cycle in which none is. -/
theorem acceptedBytes_succ_of_not {t : Nat}
    (h : (linkAt ins t).ut.iTxBusy = true ∨ (ins t).newTxData = false) :
    acceptedBytes ins (t + 1) = acceptedBytes ins t := by
  rcases h with hbusy | hnew
  · simp only [acceptedBytes, hbusy, Bool.not_true, Bool.false_and, Bool.false_eq_true, if_false,
      List.append_nil]
  · simp only [acceptedBytes, hnew, Bool.and_false, Bool.false_eq_true, if_false, List.append_nil]

/-- One cycle of the link. The cases are those of the transmitter: it is idle, it accepts, or it
is in the middle of a byte. -/
theorem LinkRun.step {t : Nat} (h : LinkRun ins t) : LinkRun ins (t + 1) := by
  cases h with
  | idle h same =>
    cases hnew : (ins t).newTxData with
    | false =>
      -- nothing is accepted, and nothing announced
      obtain ⟨hidle, hann⟩ := h.step hnew
      exact .idle hidle ((hann.trans same).trans (acceptedBytes_succ_of_not (.inr hnew)).symm)
    | true =>
      exact .sending t h hnew same (Nat.le_refl _) (by omega)
        (acceptedBytes_succ_of_accept h.free hnew)
  | sending t₀ h new same after within accepted =>
    have hbusy := (sending_run h.free new t after within).busy
    have hkeep := (acceptedBytes_succ_of_not (.inl hbusy)).trans accepted
    have hsucc := pulsesBefore_succ (lineIn ins) t
    by_cases hlast : pulsesBefore (lineIn ins) (t + 1) ≤ pulsesBefore (lineIn ins) (t₀ + 1) + 159
    · exact .sending t₀ h new same (by omega) hlast hkeep
    · -- This pulse is the last one of the stop bit.
      have hce : (ins t).ce16 = true := by
        by_contra hno
        have hsame : (lineIn ins t).ce16 = false := by simpa [lineIn, UartLink.urIn] using hno
        simp only [hsame, Bool.false_eq_true, if_false] at hsucc
        omega
      have hexact : pulsesBefore (lineIn ins) t = pulsesBefore (lineIn ins) (t₀ + 1) + 159 := by
        split at hsucc <;> omega
      obtain ⟨hidle, hann⟩ := linkIdle_after_frame h new t after hexact hce
      exact .idle hidle (by rw [hann, same, hkeep])

/-- The invariant of the link in every cycle. -/
theorem linkRun (ins : Nat → UartLinkIn) (t : Nat) : LinkRun ins t := by
  induction t with
  | zero => exact .idle ⟨rfl, rfl, ⟨rfl, rfl, rfl⟩, rfl⟩ rfl
  | succ t ih => exact ih.step

/-- What has been accepted stays accepted. -/
theorem acceptedBytes_grows {s t : Nat} (h : s ≤ t) :
    acceptedBytes ins s <+: acceptedBytes ins t := by
  induction t, h using Nat.le_induction with
  | base => exact List.prefix_refl _
  | succ t _ ih => exact ih.trans (List.prefix_append _ _)

/-- In every run of a transmitter that is wired to a receiver, for any pace of the pulses and any
requests: what the receiver has announced is what the transmitter has accepted, or lacks only the
last byte of it; it lacks nothing when the transmitter is free; and what was accepted 160 pulses
ago has been announced. -/
theorem UartLink.announced_eq_accepted (ins : Nat → UartLinkIn) (t : Nat) :
    (announcedBytes (fun u => (linkAt ins u).ur) t = acceptedBytes ins t ∨
      ∃ b, announcedBytes (fun u => (linkAt ins u).ur) t ++ [b] = acceptedBytes ins t) ∧
    ((linkAt ins t).ut.iTxBusy = false →
      announcedBytes (fun u => (linkAt ins u).ur) t = acceptedBytes ins t) ∧
    ∀ s ≤ t, pulsesBefore (lineIn ins) s + 160 ≤ pulsesBefore (lineIn ins) t →
      acceptedBytes ins s <+: announcedBytes (fun u => (linkAt ins u).ur) t := by
  rw [← show rxAt UartRx.reset (lineIn ins) = fun u => (linkAt ins u).ur from funext rxAt_lineIn]
  cases linkRun ins t with
  | idle h same =>
    refine ⟨.inl same, fun _ => same, fun s hs _ => ?_⟩
    rw [same]
    exact acceptedBytes_grows hs
  | sending t₀ h new same after within accepted =>
    have hann := announced_in_frame h new t (by omega) (by omega)
    rw [same] at hann
    refine ⟨?_, fun hfree => ?_, fun s hs hlong => ?_⟩
    · rcases hann with hann | hann
      · exact .inr ⟨_, by rw [hann, accepted]⟩
      · exact .inl (hann.trans accepted.symm)
    · simp [(sending_run h.free new t after within).busy] at hfree
    · -- The byte on its way was accepted too late for `s`.
      have hs₀ : s ≤ t₀ := by
        by_contra hlt
        have := pulsesBefore_mono (lineIn ins) (show t₀ + 1 ≤ s by omega)
        omega
      refine (acceptedBytes_grows hs₀).trans ?_
      rcases hann with hann | hann
      · rw [hann]
      · rw [hann]
        exact List.prefix_append _ _

end

end VivadoTest.Framework
