import VivadoTest.Framework.Uart
import Mathlib.Data.Nat.Count

/-!
# `VivadoTest.Proofs.BaudGen`: the pace of the serial line

`baudGen` adds `baudFreq` to its counter, or takes `baudLimit` off it and gives a pulse. The counter
is therefore what the pulses so far lag behind the clock, and stays below one pulse
(`BaudGen.counter_add`): with the settings that the header of the file prescribes, the pulses are
sixteen times the baud rate, with no drift over any number of cycles (`BaudGen.pulses_eq`).

The counter does not settle: how it lags depends on the cycle. What is bounded is the lag, which is
less than one pulse, so the number of pulses in any stretch of the run is known to one
(`BaudGen.pulses_eq_div`). The settings are reduced by the common divisor of the clock and the
rate, and they have to fit the 16-bit counter: where their sum does not, the counter wraps, and the
pace is another one.
-/

set_option autoImplicit false

namespace VivadoTest.Framework

namespace BaudGen

/-- The generator `t` cycles after `clr`. -/
def run (baudFreq : BitVec 12) (baudLimit : BitVec 16) : Nat → BaudGen
  | 0 => ⟨0, false⟩
  | t + 1 => (run baudFreq baudLimit t).step false baudFreq baudLimit

/-- The pulses of the first `t` edges. -/
def pulses (baudFreq : BitVec 12) (baudLimit : BitVec 16) (t : Nat) : Nat :=
  Nat.count (fun u => (run baudFreq baudLimit (u + 1)).ce16 = true) t

variable {baudFreq : BitVec 12} {baudLimit : BitVec 16}

/-- The pulses up to the next cycle: one more if that cycle has one. -/
theorem pulses_succ (t : Nat) : pulses baudFreq baudLimit (t + 1) =
    pulses baudFreq baudLimit t + if (run baudFreq baudLimit (t + 1)).ce16 then 1 else 0 := by
  simp [pulses, Nat.count_succ]

/-- The counter and the pulses account for the time that has passed. -/
theorem counter_add (h0 : 0 < baudFreq.toNat + baudLimit.toNat)
    (hle : baudFreq.toNat + baudLimit.toNat ≤ 2 ^ 16) (t : Nat) :
    (run baudFreq baudLimit t).counter.toNat +
        pulses baudFreq baudLimit t * (baudFreq.toNat + baudLimit.toNat) = t * baudFreq.toNat ∧
      (run baudFreq baudLimit t).counter.toNat < baudFreq.toNat + baudLimit.toNat := by
  induction t with
  | zero =>
    have hnone : pulses baudFreq baudLimit 0 = 0 := Nat.count_zero _
    exact ⟨by simp [hnone, run], by simpa [run] using h0⟩
  | succ t ih =>
    obtain ⟨hcount, hlt⟩ := ih
    rw [pulses_succ, run, BaudGen.step, Nat.succ_mul, ← hcount]
    by_cases hge : (run baudFreq baudLimit t).counter ≥ baudLimit
    · -- A pulse takes `baudLimit` off the counter, which stands for one period.
      have hge' : baudLimit.toNat ≤ (run baudFreq baudLimit t).counter.toNat := BitVec.le_def.mp hge
      simp only [Bool.false_eq_true, if_false, hge, if_true, Nat.add_mul, Nat.one_mul,
        BitVec.toNat_sub_of_le hge]
      omega
    · have hlt' : (run baudFreq baudLimit t).counter.toNat < baudLimit.toNat := by
        simpa [BitVec.le_def] using hge
      have hfit : (run baudFreq baudLimit t).counter.toNat + baudFreq.toNat < 2 ^ 16 := by omega
      simp only [Bool.false_eq_true, if_false, hge, Nat.add_zero, BitVec.toNat_add,
        BitVec.toNat_setWidth, Nat.mod_eq_of_lt (show baudFreq.toNat < 2 ^ 16 by omega),
        Nat.mod_eq_of_lt hfit]
      omega

/-- The pulses so far are the full periods so far. -/
theorem pulses_eq_div (h0 : 0 < baudFreq.toNat + baudLimit.toNat)
    (hle : baudFreq.toNat + baudLimit.toNat ≤ 2 ^ 16) (t : Nat) :
    pulses baudFreq baudLimit t =
      t * baudFreq.toNat / (baudFreq.toNat + baudLimit.toNat) := by
  obtain ⟨hcount, hlt⟩ := counter_add h0 hle t
  rw [← hcount, Nat.add_mul_div_right _ _ h0, Nat.div_eq_of_lt hlt, Nat.zero_add]

/-- With the settings of the header for a clock and a baud rate, there have been
`⌊16 * baudRate * t / clkFreq⌋` pulses after `t` cycles. -/
theorem pulses_eq (clkFreq baudRate : Nat)
    (hfreq : baudFreq.toNat = 16 * baudRate / Nat.gcd clkFreq (16 * baudRate))
    (hlimit : baudLimit.toNat =
      clkFreq / Nat.gcd clkFreq (16 * baudRate) - baudFreq.toNat)
    (hclk : 0 < clkFreq) (hrate : 16 * baudRate ≤ clkFreq)
    (hfit : clkFreq / Nat.gcd clkFreq (16 * baudRate) ≤ 2 ^ 16) (t : Nat) :
    pulses baudFreq baudLimit t = 16 * baudRate * t / clkFreq := by
  obtain ⟨g, hg⟩ : ∃ g, g = Nat.gcd clkFreq (16 * baudRate) := ⟨_, rfl⟩
  have hg0 : 0 < g := by
    rw [hg]
    exact Nat.gcd_pos_of_pos_left _ hclk
  have hclkg : g * (clkFreq / g) = clkFreq :=
    Nat.mul_div_cancel' (hg ▸ Nat.gcd_dvd_left clkFreq (16 * baudRate))
  have hrateg : g * (16 * baudRate / g) = 16 * baudRate :=
    Nat.mul_div_cancel' (hg ▸ Nat.gcd_dvd_right clkFreq (16 * baudRate))
  rw [← hg] at hfreq hlimit hfit
  have hperiod : baudFreq.toNat + baudLimit.toNat = clkFreq / g := by
    have : 16 * baudRate / g ≤ clkFreq / g := Nat.div_le_div_right hrate
    omega
  have hpos : 0 < clkFreq / g := Nat.div_pos (Nat.le_of_dvd hclk ⟨_, hclkg.symm⟩) hg0
  rw [pulses_eq_div (by omega) (by omega), hperiod, hfreq]
  calc t * (16 * baudRate / g) / (clkFreq / g)
      = g * (t * (16 * baudRate / g)) / (g * (clkFreq / g)) := (Nat.mul_div_mul_left _ _ hg0).symm
    _ = 16 * baudRate * t / clkFreq := by
        rw [Nat.mul_left_comm, hrateg, hclkg, Nat.mul_comm]

/-- One second with the constants of `uart2BusTop` on a clock of 25 MHz. -/
theorem pulses_eq_second : pulses 0x480 0x3889 25000000 = 16 * 115200 :=
  (pulses_eq 25000000 115200 (by decide) (by decide) (by decide) (by decide) (by decide)
    25000000).trans (Nat.mul_div_cancel _ (by decide))

end BaudGen

end VivadoTest.Framework
