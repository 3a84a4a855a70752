import VivadoTest.Proofs.BaudGen
import VivadoTest.Proofs.UartBits
import Mathlib.Tactic.IntervalCases

/-!
# `VivadoTest.Proofs.UartWire`: what `uartTop` receives

`uartTop` with the constants of `uart2BusTop` announces every byte that is on the wire, in order and
once each, when the bits of the sender are between 208 and 228 cycles long
(`UartTop.announced_eq_sent`). Its own bit is a little over 217 cycles. The sender may leave any
time between two bytes, or none, and may take another length for each of them: the receiver starts
anew with each start bit.

The pulses in any stretch of the run are known to one (`BaudGen.pulses_eq_div`), which places the
middle of each bit in the sender's time.

## Where the receiver looks

A sender's bit is `T` cycles long, from 208 to 228, and the receiver's is a little over 217. It
looks at the tenth bit last, after nine and a half bits of its own time, when a sender of 208
cycles is still in that bit and one of 228 already is. `frame_of_wire` does this for all ten bits:
`cycle_of_pulse` bounds the cycle in which a pulse comes, and the bit of the sender is the one that
contains it.

The receiver is at rest again in the middle of the stop bit, which leaves room for a sender that
goes on at once (`atRest_of_wire`). So frames are received one by one, by induction on the list of
them (`announced_frames`).
-/

set_option autoImplicit false

namespace VivadoTest.Framework

open VivadoTest.Lib

section
variable (ins : Nat → UartTopIn)

/-- `uartTop` after `t` cycles. -/
abbrev topAt : Nat → UartTop :=
  trajectory (fun s input => s.step input baudFreq baudLimit) UartTop.reset ins

/-- What its receiver is given. -/
def topRxIn (t : Nat) : UartRxIn := (topAt ins t).urIn (ins t)

variable {ins}

/-- The receiver of `uartTop` runs on the inputs that `uartTop` gives it. -/
theorem rxAt_topRxIn (t : Nat) : rxAt UartRx.reset (topRxIn ins) t = (topAt ins t).ur := by
  induction t with
  | zero => rfl
  | succ t ih =>
    rw [rxAt, trajectory_succ]
    exact congrArg (fun r => UartRx.step r (topRxIn ins t)) ih

variable (hclr : ∀ t, (ins t).clr = false)
include hclr

/-- The baud generator of `uartTop` runs on its own. -/
theorem bg_topAt (t : Nat) : (topAt ins t).bg = BaudGen.run baudFreq baudLimit t := by
  induction t with
  | zero => rfl
  | succ t ih =>
    show (topAt ins t).bg.step (ins t).clr baudFreq baudLimit = _
    rw [ih, hclr t]
    rfl

/-- The receiver sees a pulse one cycle after it was decided. -/
theorem pulsesBefore_topRxIn (t : Nat) :
    pulsesBefore (topRxIn ins) (t + 1) = 1152 * t / 15625 := by
  have hcount : pulsesBefore (topRxIn ins) (t + 1) = BaudGen.pulses baudFreq baudLimit t := by
    have hce : ∀ u, (topRxIn ins u).ce16 = (BaudGen.run baudFreq baudLimit u).ce16 := fun u =>
      congrArg BaudGen.ce16 (bg_topAt hclr u)
    simp only [pulsesBefore, BaudGen.pulses, Nat.count_succ', hce]
    simp [BaudGen.run]
  rw [hcount, BaudGen.pulses_eq_div (by decide) (by decide)]
  show t * 1152 / (1152 + 14473) = 1152 * t / 15625
  rw [Nat.mul_comm]

/-- The cycle of a pulse, counted from the cycle `a`. -/
theorem cycle_of_pulse {a t n : Nat} (hat : a + 1 ≤ t) (hce : (topRxIn ins t).ce16 = true)
    (hn : pulsesBefore (topRxIn ins) t = pulsesBefore (topRxIn ins) (a + 1) + n) :
    15625 * n ≤ 1152 * (t - a) ∧ 1152 * (t - a) < 15625 * (n + 1) + 1152 := by
  have hnext := pulsesBefore_succ (topRxIn ins) t
  obtain ⟨u, rfl⟩ : ∃ u, t = u + 1 := ⟨t - 1, by omega⟩
  simp only [hce, if_true] at hnext
  rw [pulsesBefore_topRxIn hclr] at hnext
  rw [pulsesBefore_topRxIn hclr, pulsesBefore_topRxIn hclr] at hn
  rw [pulsesBefore_topRxIn hclr] at hnext
  omega

/-- Pulses keep coming. -/
theorem pulse_again (t : Nat) : ∃ u, t ≤ u ∧ (topRxIn ins u).ce16 = true := by
  by_contra hnone
  have hconst : ∀ k, pulsesBefore (topRxIn ins) (t + k) = pulsesBefore (topRxIn ins) t := by
    intro k
    induction k with
    | zero => rfl
    | succ k ih =>
      have hno : (topRxIn ins (t + k)).ce16 = false := by
        by_contra hce
        exact hnone ⟨t + k, by omega, by simpa using hce⟩
      rw [← Nat.add_assoc, pulsesBefore_succ, hno, ih]
      simp
  have hone := hconst 1
  have hlate := hconst 15
  rw [← hone] at hlate
  rw [pulsesBefore_topRxIn hclr (t + 14), pulsesBefore_topRxIn hclr t] at hlate
  omega

/-- `uartTop` is not cleared, so nor is its receiver. -/
theorem clr_topRxIn (t : Nat) : (topRxIn ins t).clr = false := hclr t

/-- The synchronised line is the serial input two cycles before. -/
theorem syncedLine_topRxIn (t : Nat) :
    syncedLine UartRx.reset (topRxIn ins) (t + 2) = (ins t).serIn :=
  syncedLine_add_two (clr_topRxIn hclr) t

/-! ### One byte -/

section
variable {c T : Nat} {b : Byte} (hline : ∀ d < 10 * T, (ins (c + d)).serIn = frameBit b (d / T))
include hline

/-- The line behind the synchroniser in the bit `j`. -/
theorem syncedLine_bit {t j : Nat} (hj : j < 10) (hlo : c + 2 + j * T ≤ t)
    (hhi : t < c + 2 + (j + 1) * T) : syncedLine UartRx.reset (topRxIn ins) t = frameBit b j := by
  obtain ⟨d, rfl⟩ : ∃ d, t = c + d + 2 := ⟨t - c - 2, by omega⟩
  have hten : (j + 1) * T ≤ 10 * T := Nat.mul_le_mul_right T (by omega)
  have hbit : d / T = j := Nat.div_eq_of_lt_le (by omega) (by omega)
  rw [syncedLine_topRxIn hclr, hline d (by omega), hbit]

variable (hT : 208 ≤ T) (hT' : T ≤ 228)
include hT hT'

/-- The bits are where the receiver looks for them. -/
theorem frame_of_wire : Frame UartRx.reset (topRxIn ins) (c + 2) b := by
  refine ⟨fun t ht hce n hn hlt => ⟨fun h7 => ?_, fun j hj hnj => ?_⟩, fun t ht hce hn => ?_⟩
  · obtain ⟨hlo, hhi⟩ := cycle_of_pulse hclr ht hce hn
    rw [syncedLine_bit hclr hline (show 0 < 10 by decide) (by omega) (by omega)]
    rfl
  · obtain ⟨hlo, hhi⟩ := cycle_of_pulse hclr ht hce hn
    have hbit : c + 2 + (j + 1) * T ≤ t ∧ t < c + 2 + (j + 1 + 1) * T := by
      interval_cases j <;> omega
    rw [syncedLine_bit hclr hline (show j + 1 < 10 by omega) hbit.1 hbit.2]
    simp [frameBit, hj]
  · obtain ⟨hlo, hhi⟩ := cycle_of_pulse hclr ht hce hn
    rw [syncedLine_bit hclr hline (show 9 < 10 by decide) (by omega) (by omega)]
    rfl

/-- The receiver is at rest again before the sender is through with the stop bit. -/
theorem atRest_of_wire (hrest : AtRest (rxAt UartRx.reset (topRxIn ins) (c + 2))) :
    AtRest (rxAt UartRx.reset (topRxIn ins) (c + 10 * T + 2)) ∧
      announcedBytes (rxAt UartRx.reset (topRxIn ins)) (c + 10 * T + 2) =
        announcedBytes (rxAt UartRx.reset (topRxIn ins)) (c + 2) ++ [b] := by
  have hin := inFrame (clr_topRxIn hclr) hrest (frame_of_wire hclr hline hT hT')
  have hpast : ∀ t, c + 2 ≤ t → t ≤ c + 10 * T + 2 →
      pulsesBefore (topRxIn ins) (c + 2) + 153 ≤ pulsesBefore (topRxIn ins) t →
      AtRest (rxAt UartRx.reset (topRxIn ins) t) ∧
        announcedBytes (rxAt UartRx.reset (topRxIn ins)) t =
          announcedBytes (rxAt UartRx.reset (topRxIn ins)) (c + 2) ++ [b] := by
    intro t ht hle hge
    induction t, ht using Nat.le_induction with
    | base => omega
    | succ t ht ih =>
      have hsucc := pulsesBefore_succ (topRxIn ins) t
      by_cases hfirst : pulsesBefore (topRxIn ins) (c + 2) + 153 ≤ pulsesBefore (topRxIn ins) t
      · -- The rest of the stop bit.
        obtain ⟨hrest', hann⟩ := ih (by omega) hfirst
        have hhigh : syncedLine UartRx.reset (topRxIn ins) t = true := by
          obtain ⟨u, rfl⟩ : ∃ u, t = u + 1 := ⟨t - 1, by omega⟩
          rw [pulsesBefore_topRxIn hclr, pulsesBefore_topRxIn hclr] at hfirst
          rw [syncedLine_bit hclr hline (show 9 < 10 by decide) (by omega) (by omega)]
          rfl
        obtain ⟨hstep, hquiet⟩ := hrest'.step (clr_topRxIn hclr t) fun _ => hhigh
        exact ⟨hstep, (announcedBytes_succ_of_not hquiet).trans hann⟩
      · have hexact : pulsesBefore (topRxIn ins) (t + 1) =
            pulsesBefore (topRxIn ins) (c + 2) + 153 := by split at hsucc <;> omega
        have hnow := hin (t + 1) (by omega) (by omega)
        refine ⟨hnow.atRest hexact, ?_⟩
        rw [hnow.announced, hexact]
        simp
  refine hpast _ (by omega) (Nat.le_refl _) ?_
  rw [pulsesBefore_topRxIn hclr, pulsesBefore_topRxIn hclr]
  omega

end

/-! ### A sequence of bytes -/

/-- A receiver at rest stays at rest on a high line. -/
theorem atRest_of_high (c gap : Nat) (hhigh : ∀ d < gap, (ins (c + d)).serIn = true)
    (hrest : AtRest (rxAt UartRx.reset (topRxIn ins) (c + 2))) :
    AtRest (rxAt UartRx.reset (topRxIn ins) (c + gap + 2)) ∧
      announcedBytes (rxAt UartRx.reset (topRxIn ins)) (c + gap + 2) =
        announcedBytes (rxAt UartRx.reset (topRxIn ins)) (c + 2) := by
  induction gap with
  | zero => exact ⟨hrest, rfl⟩
  | succ gap ih =>
    obtain ⟨hrest', hann⟩ := ih fun d hd => hhigh d (by omega)
    have hline : syncedLine UartRx.reset (topRxIn ins) (c + gap + 2) = true := by
      rw [syncedLine_topRxIn hclr, hhigh gap (by omega)]
    obtain ⟨hstep, hquiet⟩ := hrest'.step (clr_topRxIn hclr (c + gap + 2)) fun _ => hline
    exact ⟨hstep, (announcedBytes_succ_of_not hquiet).trans hann⟩

/-- Frames that start at cycle `c`, with the receiver at rest when they reach it, are announced
one by one. By induction on the frames: after each one the receiver is at rest again. -/
theorem announced_frames (frames : List WireFrame)
    (hrate : ∀ f ∈ frames, 208 ≤ f.bitTime ∧ f.bitTime ≤ 228) (c : Nat)
    (hline : ∀ t, (ins (c + t)).serIn = WireFrame.wire frames t)
    (hrest : AtRest (rxAt UartRx.reset (topRxIn ins) (c + 2))) (k : Nat) :
    announcedBytes (rxAt UartRx.reset (topRxIn ins)) (c + WireFrame.lengths frames + k + 2) =
      announcedBytes (rxAt UartRx.reset (topRxIn ins)) (c + 2) ++ frames.map WireFrame.byte := by
  induction frames generalizing c with
  | nil =>
    have hhigh : ∀ d < k, (ins (c + d)).serIn = true := fun d _ => by rw [hline d]; rfl
    simpa [WireFrame.lengths] using (atRest_of_high hclr c k hhigh hrest).2
  | cons f rest ih =>
    obtain ⟨hT, hT'⟩ := hrate f List.mem_cons_self
    obtain ⟨hrest₁, hann₁⟩ := atRest_of_high hclr c f.gap
      (fun d hd => by rw [hline d, WireFrame.wire_gap hd]) hrest
    obtain ⟨hrest₂, hann₂⟩ := atRest_of_wire hclr (c := c + f.gap) (b := f.byte)
      (fun d hd => by rw [Nat.add_assoc, hline, WireFrame.wire_frame hd]) hT hT' hrest₁
    have hstart : c + f.gap + 10 * f.bitTime = c + f.length := by
      simp [WireFrame.length, Nat.add_assoc]
    rw [hstart] at hrest₂ hann₂
    have htail := ih (fun g hg => hrate g (List.mem_cons_of_mem f hg)) (c + f.length)
      (fun t => by rw [Nat.add_assoc, hline, WireFrame.wire_rest]) hrest₂
    rw [hann₂, hann₁, List.append_assoc] at htail
    simpa [WireFrame.lengths, Nat.add_assoc] using htail

end

/-- From reset on: at each time the announced bytes are a first part of those on the line, and
after the last frame they are all of them. -/
theorem announced_wire (frames : List WireFrame)
    (hrate : ∀ f ∈ frames, 208 ≤ f.bitTime ∧ f.bitTime ≤ 228) (ins : Nat → UartTopIn)
    (hclr : ∀ t, (ins t).clr = false) (hline : ∀ t, (ins t).serIn = WireFrame.wire frames t)
    (t : Nat) :
    announcedBytes (rxAt UartRx.reset (topRxIn ins)) t <+: frames.map WireFrame.byte ∧
      (WireFrame.lengths frames + 2 ≤ t →
        announcedBytes (rxAt UartRx.reset (topRxIn ins)) t = frames.map WireFrame.byte) := by
  -- The synchroniser starts with a high line, and so does the run.
  have hstart : AtRest (rxAt UartRx.reset (topRxIn ins) 0) := ⟨rfl, rfl, rfl⟩
  have hsynced : ∀ t < 2, syncedLine UartRx.reset (topRxIn ins) t = true := by
    intro t ht
    obtain rfl | rfl : t = 0 ∨ t = 1 := by omega
    · simp [syncedLine, UartRx.reset]
    · simp [syncedLine_succ (clr_topRxIn hclr), UartRx.reset]
  obtain ⟨hrest₁, hquiet₁⟩ := hstart.step (clr_topRxIn hclr 0) fun _ => hsynced 0 (by decide)
  obtain ⟨hrest₂, hquiet₂⟩ := AtRest.step (r := rxAt UartRx.reset (topRxIn ins) 1) hrest₁
    (clr_topRxIn hclr 1) fun _ => hsynced 1 (by decide)
  have hnone : announcedBytes (rxAt UartRx.reset (topRxIn ins)) 2 = [] := by
    rw [announcedBytes_succ_of_not hquiet₂, announcedBytes_succ_of_not hquiet₁]
    rfl
  have hall : ∀ k, announcedBytes (rxAt UartRx.reset (topRxIn ins))
      (WireFrame.lengths frames + k + 2) = frames.map WireFrame.byte := by
    intro k
    have hrun := announced_frames hclr frames hrate 0 (by simpa using hline) hrest₂ k
    simpa [hnone] using hrun
  refine ⟨?_, fun ht => ?_⟩
  · rw [← hall t]
    exact announcedBytes_grows _ (by omega)
  · obtain ⟨k, rfl⟩ : ∃ k, t = WireFrame.lengths frames + k + 2 :=
      ⟨t - WireFrame.lengths frames - 2, by omega⟩
    exact hall k

/-- Whatever `uartTop` has to transmit meanwhile: at any time it has announced the first bytes of
those on the wire, and two cycles after the end all of them. -/
theorem UartTop.announced_eq_sent (frames : List WireFrame)
    (hrate : ∀ f ∈ frames, 208 ≤ f.bitTime ∧ f.bitTime ≤ 228) (ins : Nat → UartTopIn)
    (hclr : ∀ t, (ins t).clr = false) (hline : ∀ t, (ins t).serIn = WireFrame.wire frames t)
    (t : Nat) :
    announcedBytes (fun u => (topAt ins u).ur) t <+: frames.map WireFrame.byte ∧
      (WireFrame.lengths frames + 2 ≤ t →
        announcedBytes (fun u => (topAt ins u).ur) t = frames.map WireFrame.byte) := by
  rw [← show rxAt UartRx.reset (topRxIn ins) = fun u => (topAt ins u).ur from funext rxAt_topRxIn]
  exact announced_wire frames hrate ins hclr hline t

/-- Two bytes at different rates, the second right after the first. -/
theorem UartTop.announced_eq_sent_two :
    announcedBytes (fun u => (topAt (fun t =>
      ⟨false, WireFrame.wire [⟨5, 217, 0x41⟩, ⟨0, 210, 0x0A⟩] t, 0x5A, true⟩) u).ur) 4300 =
        [0x41, 0x0A] :=
  (UartTop.announced_eq_sent [⟨5, 217, 0x41⟩, ⟨0, 210, 0x0A⟩] (by decide) _ (fun _ => rfl)
    (fun _ => rfl) 4300).2 (by decide)

end VivadoTest.Framework
