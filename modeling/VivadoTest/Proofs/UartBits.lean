import VivadoTest.Framework.Uart
import VivadoTest.Spec.SerialWire
import VivadoTest.Lib.Clocked
import Mathlib.Data.Nat.Count
import Mathlib.Algebra.Order.Ring.Nat

/-!
# `VivadoTest.Proofs.UartBits`: a frame on the serial line

The receiver moves only on the pulses of `ce16`, so that its state within a frame is a function of
the number of pulses since the start of the frame (`Receiving`). A bit takes sixteen pulses, and the
receiver looks at the line in the middle of each.

Pulses are counted with `Nat.count`. A frame is a property of the pulses and of the line
(`Frame`), and a receiver that is at rest when a frame starts announces its byte and is at rest
again before the next one can start (`inFrame`).

## Time in pulses

The pace of `ce16` is arbitrary here. Between two pulses the receiver keeps its counters, and only
the synchroniser moves, which delays the line by two cycles (`syncedLine_add_two`). With a pulse
the counter goes on, and the line is looked at when it stands in the middle of a bit. So there are
two step lemmas, `Receiving.step_of_not` and `Receiving.step_of_pulse`, and `inFrame` is an
induction on the cycles with the number of pulses in its statement.

What the line has to show is asked for at the pulses only (`LineAt`): a start bit for the first
eight, then a data bit every sixteen. A sender that is a little faster or slower is still
understood.
-/

set_option autoImplicit false

namespace VivadoTest.Framework

open VivadoTest.Lib

/-! ### The receiver, one cycle -/

/-- The receiver `n` pulses after the start of a frame with the byte `b`. -/
structure Receiving (r : UartRx) (b : Byte) (n : Nat) : Prop where
  busy : r.rxBusy = decide (8 ≤ n)
  count : r.count16 = BitVec.ofNat 4 n
  bits : r.bitCount = BitVec.ofNat 4 ((n - 8) / 16)
  data : ∀ i < (n - 8) / 16, r.dataBuf.getLsbD (8 - (n - 8) / 16 + i) = b.getLsbD i

/-- The receiver between two frames. -/
structure AtRest (r : UartRx) : Prop where
  busy : r.rxBusy = false
  count : r.count16 = 0
  bits : r.bitCount = 0

/-- A receiver at rest has received nothing of the next byte `b` yet. -/
theorem AtRest.receiving {r : UartRx} (h : AtRest r) (b : Byte) : Receiving r b 0 where
  busy := by simp [h.busy]
  count := h.count
  bits := h.bits
  data := by simp

/-- A receiver that has received none of a byte's bits is at rest. -/
theorem Receiving.atRest {r : UartRx} {b : Byte} (h : Receiving r b 0) : AtRest r where
  busy := by simpa using h.busy
  count := h.count
  bits := h.bits

/-- The receiver in the second half of the stop bit. -/
structure Ending (r : UartRx) : Prop where
  busy : r.rxBusy = false
  count : r.count16 = 8

/-- Without a pulse nothing moves but the synchroniser. -/
theorem Receiving.step_of_not {r : UartRx} {b : Byte} {n : Nat} (h : Receiving r b n)
    {input : UartRxIn} (hclr : input.clr = false) (hce : input.ce16 = false) :
    Receiving (r.step input) b n ∧ (r.step input).newRxData = false := by
  have hbits : r.rxBusy = false → r.bitCount = 0 := by
    intro hb
    have hn : ¬ 8 ≤ n := by simpa [h.busy] using hb
    rw [h.bits, show (n - 8) / 16 = 0 by omega]
    rfl
  refine ⟨⟨?_, ?_, ?_, ?_⟩, ?_⟩
  · simp [UartRx.step, hclr, UartRx.ce1Mid, hce, h.busy]
  · simp [UartRx.step, hclr, hce, h.count]
  · cases hb : r.rxBusy
    · simp [UartRx.step, hclr, UartRx.ce1Mid, hce, hb, ← h.bits, hbits hb]
    · simp [UartRx.step, hclr, UartRx.ce1Mid, hce, hb, h.bits]
  · simpa [UartRx.step, hclr, UartRx.ce1Mid, hce] using h.data
  · simp [UartRx.step, hclr, UartRx.ce1, hce]

/-- A four-bit counter shows `k` exactly when the count is `k` modulo 16. -/
theorem ofNat_eq_iff {k : Nat} (hk : k < 16) (n : Nat) :
    BitVec.ofNat 4 n = BitVec.ofNat 4 k ↔ n % 16 = k := by
  rw [← BitVec.toNat_inj, BitVec.toNat_ofNat, BitVec.toNat_ofNat,
    Nat.mod_eq_of_lt (show k < 2 ^ 4 from hk)]

/-- What a pulse has to find on the line for the frame to go on: the start bit for the first
eight, and a data bit in the middle of its sixteen. -/
def LineAt (b : Byte) (n : Nat) (line : Bool) : Prop :=
  (n ≤ 7 → line = false) ∧ ∀ j < 8, n = 23 + 16 * j → line = b.getLsbD j

/-- A pulse within a frame. The byte is announced after the last data bit. -/
theorem Receiving.step_of_pulse {r : UartRx} {b : Byte} {n : Nat} (h : Receiving r b n)
    (hn : n < 151) {input : UartRxIn} (hclr : input.clr = false) (hce : input.ce16 = true)
    (hline : LineAt b n r.lastSync) :
    Receiving (r.step input) b (n + 1) ∧ (r.step input).newRxData = decide (n = 143) ∧
      (n = 143 → (r.step input).rxData = b) := by
  have hmid : r.ce1Mid input = decide (n % 16 = 7) := by
    simp only [UartRx.ce1Mid, hce, Bool.and_true, h.count]
    exact decide_eq_decide.mpr (@ofNat_eq_iff 7 (by decide) n)
  have hend : r.ce1 input = decide (n % 16 = 15) := by
    simp only [UartRx.ce1, hce, Bool.and_true, h.count]
    exact decide_eq_decide.mpr (@ofNat_eq_iff 15 (by decide) n)
  have height : decide (r.bitCount = 0b1000) = decide ((n - 8) / 16 = 8) := by
    rw [h.bits]
    refine decide_eq_decide.mpr ((@ofNat_eq_iff 8 (by decide) _).trans ?_)
    omega
  refine ⟨⟨?_, ?_, ?_, ?_⟩, ?_, ?_⟩
  · simp only [UartRx.step, hclr, hmid, height, h.busy]
    by_cases h8 : 8 ≤ n
    · have : ¬ ((n - 8) / 16 = 8 ∧ n % 16 = 7) := by omega
      simp [h8, this, show 8 ≤ n + 1 by omega]
    · by_cases h7 : n % 16 = 7
      · simp [h8, h7, show 8 ≤ n + 1 by omega]
      · simp [h8, h7, show ¬ 8 ≤ n + 1 by omega]
  · have hrun : (r.rxBusy || !r.lastSync) = true := by
      by_cases h8 : 8 ≤ n
      · simp [h.busy, h8]
      · simp [hline.1 (by omega)]
    simp only [UartRx.step, hclr, hce, hrun, h.count]
    simp [BitVec.ofNat_add]
  · simp only [UartRx.step, hclr, hmid, h.busy, h.bits]
    by_cases h8 : 8 ≤ n
    · by_cases h7 : n % 16 = 7
      · simp [h8, h7, show (n - 7) / 16 = (n - 8) / 16 + 1 by omega, BitVec.ofNat_add]
      · simp [h8, h7, show (n - 7) / 16 = (n - 8) / 16 by omega]
    · simp [h8, show (n - 7) / 16 = 0 by omega]
  · intro i hi
    simp only [UartRx.step, hclr, hmid, h.busy]
    by_cases hshift : 8 ≤ n ∧ n % 16 = 7
    · -- The middle of a data bit: it goes in at the top.
      obtain ⟨j, hj⟩ : ∃ j, n = 23 + 16 * j := ⟨(n - 23) / 16, by omega⟩
      have hk : (n - 8) / 16 = j := by omega
      have hk' : (n + 1 - 8) / 16 = j + 1 := by omega
      rw [hk'] at hi ⊢
      have hj8 : j < 8 := by omega
      have hline' := hline.2 j hj8 hj
      have hdata := h.data i
      rw [hk] at hdata
      simp only [hshift, hline', decide_true, Bool.and_self, Bool.false_eq_true, if_true, if_false]
      obtain ⟨p, hp⟩ : ∃ p, p = 8 - (j + 1) + i := ⟨_, rfl⟩
      rw [← hp, BitVec.getLsbD_append]
      by_cases hi' : i < j
      · have hp7 : p < 7 := by omega
        simp [hp7, show 1 + p = 8 - j + i by omega, hdata hi']
      · obtain rfl : i = j := by omega
        simp [show p = 7 by omega]
    · have hk : (n + 1 - 8) / 16 = (n - 8) / 16 := by omega
      rw [hk] at hi ⊢
      have hno : (decide (8 ≤ n) && decide (n % 16 = 7)) = false := by simpa using hshift
      simpa [hno] using h.data i hi
  · simp only [UartRx.step, hclr, hend, height, h.busy]
    -- the last bit of the frame ends with this pulse, or is still to come
    by_cases h143 : n = 143
    · simp [h143]
    · have : ¬ (8 ≤ n ∧ (n - 8) / 16 = 8 ∧ n % 16 = 15) := by omega
      simp [h143]
      grind
  · intro h143
    subst h143
    have hdata := h.data
    simp only [UartRx.step, hclr, hend, height, h.busy]
    exact BitVec.eq_of_getLsbD_eq fun i hi => by simpa using hdata i hi

/-- The pulse in the middle of the stop bit. -/
theorem Receiving.step_last {r : UartRx} {b : Byte} (h : Receiving r b 151) {input : UartRxIn}
    (hclr : input.clr = false) (hce : input.ce16 = true) :
    Ending (r.step input) ∧ (r.step input).newRxData = false := by
  have hbusy : r.rxBusy = true := by simp [h.busy]
  have hcount : r.count16 = 7 := by simp [h.count]
  have hbits : r.bitCount = 8 := by simp [h.bits]
  refine ⟨⟨?_, ?_⟩, ?_⟩
  · simp [UartRx.step, hclr, UartRx.ce1Mid, hce, hbusy, hcount, hbits]
  · simp [UartRx.step, hclr, hce, hbusy, hcount]
  · simp [UartRx.step, hclr, UartRx.ce1, hcount]

/-- Between two pulses of `ce16` the end of a frame stays as it is, and no byte is announced. -/
theorem Ending.step_of_not {r : UartRx} (h : Ending r) {input : UartRxIn}
    (hclr : input.clr = false) (hce : input.ce16 = false) :
    Ending (r.step input) ∧ (r.step input).newRxData = false := by
  refine ⟨⟨?_, ?_⟩, ?_⟩
  · simp [UartRx.step, hclr, UartRx.ce1Mid, hce, h.busy]
  · simp [UartRx.step, hclr, hce, h.count]
  · simp [UartRx.step, hclr, h.busy]

/-- The line is high: the receiver waits for a start bit. -/
theorem Ending.step_of_pulse {r : UartRx} (h : Ending r) {input : UartRxIn}
    (hclr : input.clr = false) (hce : input.ce16 = true) (hline : r.lastSync = true) :
    AtRest (r.step input) ∧ (r.step input).newRxData = false := by
  refine ⟨⟨?_, ?_, ?_⟩, ?_⟩
  · simp [UartRx.step, hclr, UartRx.ce1Mid, h.busy, h.count]
  · simp [UartRx.step, hclr, hce, h.busy, hline]
  · simp [UartRx.step, hclr, h.busy]
  · simp [UartRx.step, hclr, h.busy]

/-- A receiver at rest stays so while the line it has synchronised is high at each pulse of
`ce16`. -/
theorem AtRest.step {r : UartRx} (h : AtRest r) {input : UartRxIn} (hclr : input.clr = false)
    (hline : input.ce16 = true → r.lastSync = true) :
    AtRest (r.step input) ∧ (r.step input).newRxData = false := by
  cases hce : input.ce16 with
  | false =>
    obtain ⟨hstep, hnew⟩ := (h.receiving 0).step_of_not hclr hce
    exact ⟨hstep.atRest, hnew⟩
  | true =>
    refine ⟨⟨?_, ?_, ?_⟩, ?_⟩
    · simp [UartRx.step, hclr, UartRx.ce1Mid, h.busy, h.count]
    · simp [UartRx.step, hclr, hce, h.busy, hline hce]
    · simp [UartRx.step, hclr, h.busy]
    · simp [UartRx.step, hclr, h.busy]

/-! ### The receiver on a line -/

section
variable (r : UartRx) (ins : Nat → UartRxIn)

/-- The receiver after `t` cycles. -/
abbrev rxAt : Nat → UartRx := trajectory UartRx.step r ins

/-- The pulses of `ce16` before the cycle `t`. -/
def pulsesBefore (ins : Nat → UartRxIn) (t : Nat) : Nat :=
  Nat.count (fun u => (ins u).ce16 = true) t

/-- The line behind the synchroniser at the cycle `t`. -/
def syncedLine (t : Nat) : Bool := (rxAt r ins t).lastSync

/-- The bytes that are announced in the first `t` cycles. -/
def announcedBytes (rx : Nat → UartRx) : Nat → List Byte
  | 0 => []
  | t + 1 => announcedBytes rx t ++ if (rx (t + 1)).newRxData then [(rx (t + 1)).rxData] else []

/-- The line carries a frame from the cycle `a` on. -/
structure Frame (a : Nat) (b : Byte) : Prop where
  bits : ∀ t, a ≤ t → (ins t).ce16 = true → ∀ n, pulsesBefore ins t = pulsesBefore ins a + n →
    n < 151 → LineAt b n (syncedLine r ins t)
  stop : ∀ t, a ≤ t → (ins t).ce16 = true → pulsesBefore ins t = pulsesBefore ins a + 152 →
    syncedLine r ins t = true

/-- The receiver in the cycle `t` of a frame that starts in the cycle `a`. -/
structure InFrame (a : Nat) (b : Byte) (t : Nat) : Prop where
  receiving : ∀ n < 152, pulsesBefore ins t = pulsesBefore ins a + n → Receiving (rxAt r ins t) b n
  ending : pulsesBefore ins t = pulsesBefore ins a + 152 → Ending (rxAt r ins t)
  atRest : pulsesBefore ins t = pulsesBefore ins a + 153 → AtRest (rxAt r ins t)
  announced : announcedBytes (rxAt r ins) t =
    announcedBytes (rxAt r ins) a ++
      if pulsesBefore ins a + 144 ≤ pulsesBefore ins t then [b] else []

variable {r ins}

/-- The pulses before the next cycle: this cycle's `ce16` is one more. -/
theorem pulsesBefore_succ (ins : Nat → UartRxIn) (t : Nat) :
    pulsesBefore ins (t + 1) = pulsesBefore ins t + if (ins t).ce16 then 1 else 0 := by
  simp [pulsesBefore, Nat.count_succ]

/-- The number of pulses never goes down. -/
theorem pulsesBefore_mono (ins : Nat → UartRxIn) {s t : Nat} (h : s ≤ t) :
    pulsesBefore ins s ≤ pulsesBefore ins t :=
  Nat.count_monotone _ h

/-- The first flip-flop of the synchroniser holds the line of the cycle before. -/
theorem inSync_zero_succ (hclr : ∀ t, (ins t).clr = false) (t : Nat) :
    (rxAt r ins (t + 1)).inSync[0] = (ins t).serIn := by
  simp only [rxAt, trajectory_succ, UartRx.step, hclr t, Bool.false_eq_true, if_false]
  rw [← BitVec.getLsbD_eq_getElem, BitVec.getLsbD_append]
  simp

/-- The second flip-flop holds what the first one held: the line two cycles ago. -/
theorem syncedLine_succ (hclr : ∀ t, (ins t).clr = false) (t : Nat) :
    syncedLine r ins (t + 1) = (rxAt r ins t).inSync[0] := by
  simp only [syncedLine, UartRx.lastSync, rxAt, trajectory_succ, UartRx.step, hclr t,
    Bool.false_eq_true, if_false]
  rw [← BitVec.getLsbD_eq_getElem, BitVec.getLsbD_append]
  simp

/-- The synchroniser delays the line by two cycles. -/
theorem syncedLine_add_two (hclr : ∀ t, (ins t).clr = false) (t : Nat) :
    syncedLine r ins (t + 2) = (ins t).serIn := by
  rw [syncedLine_succ hclr, inSync_zero_succ hclr]

/-- A cycle without `new_rx_data` announces nothing. -/
theorem announcedBytes_succ_of_not {t : Nat} (h : (rxAt r ins (t + 1)).newRxData = false) :
    announcedBytes (rxAt r ins) (t + 1) = announcedBytes (rxAt r ins) t := by
  simp [announcedBytes, h]

/-- What has been announced stays announced. -/
theorem announcedBytes_grows (rx : Nat → UartRx) {s t : Nat} (h : s ≤ t) :
    announcedBytes rx s <+: announcedBytes rx t := by
  induction t, h using Nat.le_induction with
  | base => exact List.prefix_refl _
  | succ t _ ih => exact ih.trans (List.prefix_append _ _)

/-- A receiver that is at rest when a frame starts goes through it, whatever the pace of the
pulses. -/
theorem inFrame (hclr : ∀ t, (ins t).clr = false) {a : Nat} {b : Byte}
    (hrest : AtRest (rxAt r ins a)) (hf : Frame r ins a b) (t : Nat) (hat : a ≤ t)
    (ht : pulsesBefore ins t ≤ pulsesBefore ins a + 153) : InFrame r ins a b t := by
  induction t, hat using Nat.le_induction with
  | base =>
    refine ⟨fun n hn h => ?_, fun h => by omega, fun h => by omega, ?_⟩
    · obtain rfl : n = 0 := by omega
      exact hrest.receiving b
    · simp
  | succ t hat ih =>
    have hsucc := pulsesBefore_succ ins t
    have ih := ih (by omega)
    have hmono := pulsesBefore_mono ins hat
    obtain ⟨n, hn⟩ : ∃ n, pulsesBefore ins t = pulsesBefore ins a + n :=
      ⟨pulsesBefore ins t - pulsesBefore ins a, by omega⟩
    have hrun : rxAt r ins (t + 1) = (rxAt r ins t).step (ins t) := rfl
    cases hce : (ins t).ce16 with
    | false =>
      have hsame : pulsesBefore ins (t + 1) = pulsesBefore ins a + n := by
        simpa [hce, hn] using hsucc
      have hquiet : (rxAt r ins (t + 1)).newRxData = false →
          announcedBytes (rxAt r ins) (t + 1) = announcedBytes (rxAt r ins) a ++
            if pulsesBefore ins a + 144 ≤ pulsesBefore ins (t + 1) then [b] else [] := by
        intro hnew
        rw [announcedBytes_succ_of_not hnew, ih.announced, hsame, hn]
      -- no pulse: the position in the frame is the same
      rcases Nat.lt_trichotomy n 152 with hlt | rfl | hgt
      · obtain ⟨hstep, hnew⟩ := (ih.receiving n hlt hn).step_of_not (hclr t) hce
        refine ⟨fun m _ hm => ?_, fun h => by omega, fun h => by omega, hquiet hnew⟩
        obtain rfl : m = n := by omega
        exact hstep
      · obtain ⟨hstep, hnew⟩ := (ih.ending hn).step_of_not (hclr t) hce
        exact ⟨fun m hm h => by omega, fun _ => hstep, fun h => by omega, hquiet hnew⟩
      · obtain ⟨hstep, hnew⟩ := (ih.atRest (by omega)).step (hclr t) (by simp [hce])
        exact ⟨fun m hm h => by omega, fun h => by omega, fun _ => hstep, hquiet hnew⟩
    | true =>
      have hnext : pulsesBefore ins (t + 1) = pulsesBefore ins a + (n + 1) := by
        simp only [hce, if_true] at hsucc
        omega
      -- a pulse: the receiver goes one position further
      rcases Nat.lt_trichotomy n 151 with hlt | rfl | hgt
      · obtain ⟨hstep, hnew, hdata⟩ :=
          (ih.receiving n (by omega) hn).step_of_pulse hlt (hclr t) hce (hf.bits t hat hce n hn hlt)
        refine ⟨fun m _ hm => ?_, fun h => by omega, fun h => by omega, ?_⟩
        · obtain rfl : m = n + 1 := by omega
          exact hstep
        · rw [announcedBytes, ih.announced, hn, hnext, hrun, hnew]
          by_cases h143 : n = 143
          · simp [h143, hdata h143]
          · have hiff : 144 ≤ n + 1 ↔ 144 ≤ n := by omega
            simp [h143, hiff]
      · obtain ⟨hstep, hnew⟩ := (ih.receiving 151 (by omega) hn).step_last (hclr t) hce
        refine ⟨fun m hm h => by omega, fun _ => hstep, fun h => by omega, ?_⟩
        rw [announcedBytes_succ_of_not hnew, ih.announced, hn, hnext]
        simp
      · obtain rfl : n = 152 := by omega
        obtain ⟨hstep, hnew⟩ := (ih.ending hn).step_of_pulse (hclr t) hce (hf.stop t hat hce hn)
        refine ⟨fun m hm h => by omega, fun h => by omega, fun _ => hstep, ?_⟩
        rw [announcedBytes_succ_of_not hnew, ih.announced, hn, hnext]
        simp

end

end VivadoTest.Framework
