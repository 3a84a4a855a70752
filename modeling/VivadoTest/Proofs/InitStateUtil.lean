import VivadoTest.Generator.ExpectedUpdates
import VivadoTest.Generator.FixedWidth
import Mathlib.Tactic.Positivity

/-!
# `VivadoTest.Proofs.InitStateUtil`: numerals of a fixed width

`fixed_width_hex` and `fixed_width_bin` of `init_state_util.py`. Both write a number in two's
complement, but a negative number is written without leading zeros, so its numeral has the
full width only when its first digit is not zero.

* `InitStateUtil.keepsWidth_fixedWidth_iff`: exactly when the shared body keeps its contract.
* `InitStateUtil.keepsWidth_iff`: the same for the two encoders.
* `exists_fixedWidthHex`, `fixedWidthBin_spells`, `exists_fixedWidthBin`: what the generators
  use of it.

An encoder of fixed width has three things to keep (`KeepsWidth`): a numeral that it returns has
the width and spells the value modulo a power of two, what it raises is the exception of an
assertion, and it returns for every value of the range. For natural numbers all three hold
(`keepsWidth_natCast`). A negative number whose two's complement begins with a zero digit comes out
too short, and for one far below the range the message of the assertion names a variable that is
not there.
-/

set_option autoImplicit false

namespace VivadoTest.Generator

open VivadoTest.Lib

/-- The positive numbers that are written with `w + 1` digits. -/
theorem length_toDigits_eq_iff {b n w : Nat} (hb : 1 < b) (hpos : 0 < n) (hn : n < b ^ (w + 1)) :
    (Nat.toDigits b n).length = w + 1 ↔ b ^ w ≤ n := by
  have hle := (Nat.length_toDigits_le_iff hb (Nat.succ_pos w)).mpr hn
  have hne : (Nat.toDigits b n).length ≠ 0 := by simp [Nat.toDigits_ne_nil]
  rcases Nat.eq_zero_or_pos w with rfl | hw
  · rw [Nat.pow_zero]
    omega
  · have hlt := Nat.length_toDigits_le_iff (n := n) hb hw
    omega

namespace InitStateUtil

/-- The contract of an encoder for one value: what it returns has the width and the value, the
only exception is the failed assertion, and it returns on the range of the width. -/
structure KeepsWidth (base digits bits : Nat) (value : Int)
    (result : Except PyException (List Char)) : Prop where
  returned : ∀ cs, result = .ok cs → cs.length = digits ∧ Spells base cs (value % 2 ^ bits).toNat
  raised : ∀ e, result = .error e → e = .assertionError
  returns : -(2 ^ (bits - 1)) ≤ value → value ≤ 2 ^ bits - 1 → ∃ cs, result = .ok cs

section
variable {base digits bits : Nat} {value : Int}

/-- Where the encoder returns, a negative value is its two's complement and another one is
padded. -/
theorem fixedWidth_of_neg {m : Nat} (hneg : value < 0) (hm : 2 ^ bits + value = (m : Int))
    (hpos : 0 < m) : fixedWidth base digits bits value = .ok (Nat.toDigits base m) := by
  unfold fixedWidth
  dsimp only
  rw [if_pos hneg, hm, if_pos (by exact_mod_cast hpos), Int.toNat_natCast]

/-- The text of a number that is not negative: its digits, padded, or the assertion fails because
they are too many. -/
theorem fixedWidth_natCast (m : Nat) : fixedWidth base digits bits (m : Int)
    = if (Nat.toDigits base m).length ≤ digits then
        .ok ((Nat.toDigits base m).leftpad digits '0')
      else .error .assertionError := by
  unfold fixedWidth
  rw [if_neg (by omega), Int.toNat_natCast]
  rfl

/-- A natural number keeps the contract. -/
theorem keepsWidth_natCast (hb : 1 < base) (hb' : base ≤ 16) (hdigits : 0 < digits)
    (hbits : base ^ digits = 2 ^ bits) (m : Nat) :
    KeepsWidth base digits bits m (fixedWidth base digits bits m) := by
  have hlen := Nat.length_toDigits_le_iff (n := m) hb hdigits
  have hfits : m < base ^ digits ↔ (m : Int) ≤ 2 ^ bits - 1 := by
    rw [hbits]
    have hcast : m < 2 ^ bits ↔ (m : Int) < 2 ^ bits := by norm_cast
    omega
  rw [fixedWidth_natCast]
  by_cases hm : (Nat.toDigits base m).length ≤ digits
  · rw [if_pos hm]
    have hmod : ((m : Int) % 2 ^ bits).toNat = m := by
      have hlt := hlen.mp hm
      rw [hbits] at hlt
      rw [Int.emod_eq_of_lt (by omega) (by exact_mod_cast hlt), Int.toNat_natCast]
    refine ⟨fun cs hcs => ?_, fun e he => by simp at he, fun _ _ => ⟨_, rfl⟩⟩
    obtain rfl := Except.ok.inj hcs
    rw [hmod, List.length_leftpad]
    exact ⟨by omega, (spells_toDigits hb hb' m).leftpad (by omega) _⟩
  · rw [if_neg hm]
    refine ⟨fun cs hcs => by simp at hcs, fun e he => (Except.error.inj he).symm, fun _ hhi => ?_⟩
    exact absurd (hlen.mpr (hfits.mpr hhi)) hm

/-- The contract is kept exactly from the first negative number on whose two's complement does
not start with a zero. -/
theorem keepsWidth_fixedWidth_iff (hb : 1 < base) (hb' : base ≤ 16) (hdigits : 0 < digits)
    (hbits : base ^ digits = 2 ^ bits) :
    KeepsWidth base digits bits value (fixedWidth base digits bits value)
      ↔ (base : Int) ^ (digits - 1) - 2 ^ bits ≤ value := by
  have hpos : (0 : Int) < (base : Int) ^ (digits - 1) := by positivity
  have hmsb : (0 : Int) < 2 ^ bits := by positivity
  have hle : (base : Int) ^ (digits - 1) ≤ 2 ^ bits := by
    have hpow := Nat.pow_le_pow_right (show 0 < base by omega) (Nat.sub_le digits 1)
    rw [hbits] at hpow
    exact_mod_cast hpow
  by_cases hneg : value < 0
  · by_cases hfits : 2 ^ bits + value > 0
    · obtain ⟨m, hm⟩ := Int.eq_ofNat_of_zero_le (show 0 ≤ 2 ^ bits + value by omega)
      have hmpos : 0 < m := by omega
      have hlt : m < base ^ (digits - 1 + 1) := by
        rw [Nat.sub_add_cancel hdigits, hbits]
        have hcast : (m : Int) < 2 ^ bits := by omega
        exact_mod_cast hcast
      -- The digits printed are those of `m`, without padding: the text has the width exactly when
      -- the first digit of `m` is not missing.
      have hwidth := length_toDigits_eq_iff hb hmpos hlt
      rw [Nat.sub_add_cancel hdigits] at hwidth
      have hmod : (value % 2 ^ bits).toNat = m := by
        rw [← Int.add_emod_left, hm, Int.emod_eq_of_lt (by omega) (by omega), Int.toNat_natCast]
      have hcond : (base : Int) ^ (digits - 1) - 2 ^ bits ≤ value ↔ base ^ (digits - 1) ≤ m := by
        have hcast : (base : Int) ^ (digits - 1) ≤ m ↔ base ^ (digits - 1) ≤ m := by norm_cast
        rw [← hcast]
        omega
      rw [fixedWidth_of_neg hneg hm hmpos, hcond, ← hwidth]
      constructor
      · intro h
        exact (h.returned _ rfl).1
      · intro hlen
        refine ⟨fun cs hcs => ?_, fun e he => by simp at he, fun _ _ => ⟨_, rfl⟩⟩
        obtain rfl := Except.ok.inj hcs
        rw [hmod]
        exact ⟨hlen, spells_toDigits hb hb' m⟩
    · -- the failed assertion cannot even print its message
      have hraises : fixedWidth base digits bits value = .error .nameError := by
        unfold fixedWidth
        dsimp only
        rw [if_pos hneg, if_neg hfits]
      rw [hraises]
      constructor
      · intro h
        exact absurd (h.raised _ rfl) (by decide)
      · intro h
        omega
  · -- A number that is not negative is padded, or too long and rejected.
    obtain ⟨m, rfl⟩ := Int.eq_ofNat_of_zero_le (Int.not_lt.mp hneg)
    constructor
    · intro _
      omega
    · intro _
      exact keepsWidth_natCast hb hb' hdigits hbits m

end

/-- `fixed_width_hex` keeps its contract exactly for the values whose first hexadecimal digit
is not lost, and `fixed_width_bin` exactly for those whose sign bit is not lost. -/
theorem keepsWidth_iff (value : Int) {bits : Nat} (hbits : 0 < bits) :
    (bits % 4 = 0 → (KeepsWidth 16 (bits / 4) bits value (fixedWidthHex value bits)
      ↔ 2 ^ (bits - 4) - 2 ^ bits ≤ value)) ∧
    (KeepsWidth 2 bits bits value (fixedWidthBin value bits) ↔ -(2 ^ (bits - 1)) ≤ value) := by
  constructor
  · intro hmod
    obtain ⟨nibbles, rfl⟩ := Nat.dvd_of_mod_eq_zero hmod
    have hdiv : 4 * nibbles / 4 = nibbles := by omega
    have hpow : (16 : Nat) ^ nibbles = 2 ^ (4 * nibbles) := by
      rw [pow_mul]
      rfl
    have hfirst : ((16 : Nat) : Int) ^ (nibbles - 1) = 2 ^ (4 * nibbles - 4) := by
      rw [show 4 * nibbles - 4 = 4 * (nibbles - 1) by omega, pow_mul]
      rfl
    unfold fixedWidthHex
    rw [if_pos hmod, hdiv,
      keepsWidth_fixedWidth_iff (by decide) (by decide) (by omega) hpow, hfirst]
  · have htwo : (2 : Int) ^ bits = 2 * 2 ^ (bits - 1) := by
      rw [← pow_succ', Nat.sub_add_cancel hbits]
    unfold fixedWidthBin
    rw [keepsWidth_fixedWidth_iff (by decide) (by decide) hbits rfl]
    push_cast
    omega

/-- The least values with a full numeral of eight bits. -/
theorem keepsWidth_eight_bits :
    (KeepsWidth 16 2 8 (-240) (fixedWidthHex (-240) 8) ↔ (2 : Int) ^ (8 - 4) - 2 ^ 8 ≤ -240) ∧
      (KeepsWidth 2 8 8 (-128) (fixedWidthBin (-128) 8) ↔ -((2 : Int) ^ (8 - 1)) ≤ -128) :=
  ⟨(keepsWidth_iff (-240) (show 0 < 8 by decide)).1 (by decide),
    (keepsWidth_iff (-128) (by decide)).2⟩

/-- A numeral that is too short, and an assertion that raises the wrong exception. -/
theorem not_keepsWidth :
    fixedWidthHex (-255) 8 = .ok ['1'] ∧ fixedWidthBin (-256) 8 = .error .nameError ∧
      ¬ ∀ (value : Int) (bits : Nat), 0 < bits →
        (bits % 4 = 0 → KeepsWidth 16 (bits / 4) bits value (fixedWidthHex value bits)) ∧
          KeepsWidth 2 bits bits value (fixedWidthBin value bits) := by
  refine ⟨rfl, rfl, fun h => ?_⟩
  have hlen := (((h (-255) 8 (by decide)).1 (by decide)).returned ['1'] rfl).1
  exact absurd hlen (by decide)

end InitStateUtil

/-! ### The encoders as the generators call them -/

open InitStateUtil in
/-- On its range `fixed_width_hex` writes the two's complement, and no digit too few or too
many. -/
theorem exists_fixedWidthHex (nibbles : Nat) {value : Int} (hlo : -(2 ^ (4 * nibbles + 3)) ≤ value)
    (hhi : value < 2 ^ (4 * (nibbles + 1))) :
    ∃ cs, fixedWidthHex value (4 * (nibbles + 1)) = some cs ∧ cs.length = nibbles + 1 ∧
      Spells 16 cs (value % 2 ^ (4 * (nibbles + 1))).toNat := by
  have hmod : 4 * (nibbles + 1) % 4 = 0 := by omega
  have hdiv : 4 * (nibbles + 1) / 4 = nibbles + 1 := by omega
  have hpow : (16 : Nat) ^ (nibbles + 1) = 2 ^ (4 * (nibbles + 1)) := by
    rw [pow_mul]
    rfl
  -- The least value of the range has a first digit of eight in two's complement.
  have hlo' : ((16 : Nat) : Int) ^ (nibbles + 1 - 1) - 2 ^ (4 * (nibbles + 1)) ≤ value := by
    have hpos : (0 : Int) < 2 ^ (4 * nibbles) := by positivity
    have hfirst : ((16 : Nat) : Int) ^ (nibbles + 1 - 1) = 2 ^ (4 * nibbles) := by
      rw [Nat.add_sub_cancel, pow_mul]
      rfl
    have hlast : (2 : Int) ^ (4 * (nibbles + 1)) = 16 * 2 ^ (4 * nibbles) := by
      rw [Nat.mul_succ, pow_add, mul_comm]
      rfl
    have hhalf : (2 : Int) ^ (4 * nibbles + 3) = 8 * 2 ^ (4 * nibbles) := by
      rw [pow_add, mul_comm]
      rfl
    rw [hfirst, hlast]
    omega
  have hkeeps := (keepsWidth_fixedWidth_iff (by decide) (by decide) (Nat.succ_pos nibbles) hpow).mpr
    hlo'
  obtain ⟨cs, hcs⟩ := hkeeps.returns
    (by rw [show 4 * (nibbles + 1) - 1 = 4 * nibbles + 3 by omega]; exact hlo) (by omega)
  have hopt := toOption_fixedWidthHex value (4 * (nibbles + 1))
  unfold InitStateUtil.fixedWidthHex at hopt
  rw [if_pos hmod, hdiv, hcs] at hopt
  exact ⟨cs, hopt.symm, hkeeps.returned cs hcs⟩

/-- The binary numeral of a natural number. -/
theorem fixedWidthBin_natCast (m bits : Nat) : fixedWidthBin (m : Int) bits
    = if (Nat.toDigits 2 m).length ≤ bits then some ((Nat.toDigits 2 m).leftpad bits '0')
      else none := by
  rw [← InitStateUtil.toOption_fixedWidthBin]
  unfold InitStateUtil.fixedWidthBin
  rw [InitStateUtil.fixedWidth_natCast]
  split_ifs <;> rfl

/-- What `fixed_width_bin` writes for a natural number. -/
theorem fixedWidthBin_spells {value : Int} {bits : Nat} {cs : List Char} (h0 : 0 ≤ value)
    (h : fixedWidthBin value bits = some cs) :
    Spells 2 cs value.toNat ∧ cs.length = bits := by
  obtain ⟨m, rfl⟩ := Int.eq_ofNat_of_zero_le h0
  rw [fixedWidthBin_natCast] at h
  rw [Int.toNat_natCast]
  split at h
  · next hlen =>
    obtain rfl := Option.some.inj h
    refine ⟨(spells_toDigits (by decide) (by decide) m).leftpad (by decide) _, ?_⟩
    rw [List.length_leftpad]
    omega
  · exact absurd h (by simp)

/-- A number within the width has a text. -/
theorem exists_fixedWidthBin {value : Int} {bits : Nat} (hbits : 0 < bits) (h0 : 0 ≤ value)
    (hhi : value < 2 ^ bits) : ∃ cs, fixedWidthBin value bits = some cs := by
  obtain ⟨m, rfl⟩ := Int.eq_ofNat_of_zero_le h0
  have hlen := (Nat.length_toDigits_le_iff (b := 2) (by decide) hbits).mpr (by exact_mod_cast hhi)
  rw [fixedWidthBin_natCast, if_pos hlen]
  exact ⟨_, rfl⟩

end VivadoTest.Generator
