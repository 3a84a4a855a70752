import Mathlib.Algebra.Order.Ring.Nat
import Mathlib.Tactic.Ring

/-!
# `VivadoTest.Lib.Numeral`: numerals as text

`Spells b cs n` says that the characters `cs` are digits of the base `b`, the most
significant first, and that they write the number `n`. A reader of numerals is correct when
it returns `n` on every text that spells it, a writer when its text spells its argument.

* `spells_toDigits`: the library's `Nat.toDigits` is a correct writer.
* `Spells.leftpad`, `spells_toUpper_toDigits`: padding with zeros and upper case keep the number.
* `Spells.split`: a text cut in two spells a quotient and a remainder.

The relation stands between a text and a number, so a writer and a reader can be proved correct
apart from each other, and a numeral may go through any number of programs: padded, cut, or with
leading zeros. Values of a base are read with Horner's rule (`horner_append`).
-/

set_option autoImplicit false

namespace VivadoTest.Lib

/-- The value of a digit or of a letter counted on from `10`, in either case. -/
def digitValue (c : Char) : Option Nat :=
  if '0' ≤ c ∧ c ≤ '9' then some (c.toNat - '0'.toNat)
  else if 'a' ≤ c ∧ c ≤ 'z' then some (c.toNat - 'a'.toNat + 10)
  else if 'A' ≤ c ∧ c ≤ 'Z' then some (c.toNat - 'A'.toNat + 10)
  else none

/-- Horner's scheme on the digits of a text. -/
def horner (b : Nat) (acc : Nat) (cs : List Char) : Nat :=
  cs.foldl (fun acc c => acc * b + (digitValue c).getD 0) acc

/-- The text `cs` writes `n` in base `b`. -/
structure Spells (b : Nat) (cs : List Char) (n : Nat) : Prop where
  ne_nil : cs ≠ []
  digit : ∀ c ∈ cs, ∃ d < b, digitValue c = some d
  value : horner b 0 cs = n

section
variable {b : Nat}

/-- Horner's rule over no digits. -/
@[simp] theorem horner_nil (acc : Nat) : horner b acc [] = acc := rfl

/-- One digit more in front. -/
@[simp] theorem horner_cons (acc : Nat) (c : Char) (cs : List Char) :
    horner b acc (c :: cs) = horner b (acc * b + (digitValue c).getD 0) cs := rfl

/-- Two stretches of digits. -/
theorem horner_append (acc : Nat) (xs ys : List Char) :
    horner b acc (xs ++ ys) = horner b (horner b acc xs) ys := List.foldl_append

/-- What is read first is worth the powers of the base above the rest. -/
theorem horner_eq (acc : Nat) (cs : List Char) :
    horner b acc cs = acc * b ^ cs.length + horner b 0 cs := by
  induction cs generalizing acc with
  | nil => simp
  | cons c cs ih =>
    rw [horner_cons, horner_cons, ih, ih (0 * b + _), List.length_cons, pow_succ]
    ring

/-- A number is smaller than the power of its base that has one digit more. -/
theorem horner_lt {cs : List Char} (h : ∀ c ∈ cs, ∃ d < b, digitValue c = some d) :
    horner b 0 cs < b ^ cs.length := by
  induction cs with
  | nil => simp
  | cons c cs ih =>
    obtain ⟨d, hd, hc⟩ := h c List.mem_cons_self
    have hrest := ih fun x hx => h x (List.mem_cons_of_mem c hx)
    rw [horner_cons, horner_eq, hc, List.length_cons, pow_succ]
    have hmul : (d + 1) * b ^ cs.length ≤ b * b ^ cs.length := Nat.mul_le_mul_right _ hd
    simp only [Option.getD_some, Nat.zero_mul, Nat.zero_add]
    rw [Nat.mul_comm (b ^ cs.length) b]
    rw [Nat.add_mul, Nat.one_mul] at hmul
    omega

/-- So is a spelled number. -/
theorem Spells.lt {cs : List Char} {n : Nat} (h : Spells b cs n) : n < b ^ cs.length := by
  rw [← h.value]
  exact horner_lt h.digit

/-- A numeral consists of digits. -/
theorem Spells.not_mem {cs : List Char} {n : Nat} {c : Char} (h : Spells b cs n)
    (hc : digitValue c = none) : c ∉ cs := by
  intro hmem
  obtain ⟨d, -, hd⟩ := h.digit c hmem
  rw [hc] at hd
  exact absurd hd (by simp)

/-- A text cut in two. -/
theorem Spells.split {xs ys : List Char} {n : Nat} (h : Spells b (xs ++ ys) n) (hx : xs ≠ [])
    (hy : ys ≠ []) :
    Spells b xs (n / b ^ ys.length) ∧ Spells b ys (n % b ^ ys.length) := by
  have hdx : ∀ c ∈ xs, ∃ d < b, digitValue c = some d :=
    fun c hc => h.digit c (List.mem_append_left ys hc)
  have hdy : ∀ c ∈ ys, ∃ d < b, digitValue c = some d :=
    fun c hc => h.digit c (List.mem_append_right xs hc)
  have hlt := horner_lt hdy
  have hn : n = horner b 0 xs * b ^ ys.length + horner b 0 ys := by
    rw [← h.value, horner_append, horner_eq]
  refine ⟨⟨hx, hdx, ?_⟩, ⟨hy, hdy, ?_⟩⟩
  · rw [hn, Nat.mul_comm, Nat.mul_add_div (by omega), Nat.div_eq_of_lt hlt, Nat.add_zero]
  · rw [hn, Nat.mul_comm, Nat.mul_add_mod, Nat.mod_eq_of_lt hlt]

/-! ### Writers -/

/-- A digit read back. -/
theorem digitValue_digitChar {d : Nat} (h : d < 16) : digitValue d.digitChar = some d := by
  revert d
  decide

/-- A capital digit too. -/
theorem digitValue_toUpper_digitChar {d : Nat} (h : d < 16) :
    digitValue d.digitChar.toUpper = some d := by
  revert d
  decide

/-- The digits that `Nat.toDigits` prints. -/
theorem mem_toDigits (hb : 1 < b) {n : Nat} {c : Char} (h : c ∈ Nat.toDigits b n) :
    ∃ d < b, c = d.digitChar := by
  induction n using Nat.strong_induction_on with
  | _ n ih =>
    rw [Nat.toDigits_eq_if hb] at h
    split at h
    · next hlt => exact ⟨n, hlt, List.mem_singleton.mp h⟩
    · next hge =>
      rcases List.mem_append.mp h with h | h
      · exact ih (n / b) (Nat.div_lt_self (by omega) hb) h
      · exact ⟨n % b, Nat.mod_lt _ (by omega), List.mem_singleton.mp h⟩

/-- `f` may change the case of the digits. -/
theorem spells_map_toDigits {f : Char → Char}
    (hf : ∀ d < 16, digitValue (f d.digitChar) = some d) (hb : 1 < b) (hb' : b ≤ 16) (n : Nat) :
    Spells b ((Nat.toDigits b n).map f) n where
  ne_nil := by simp [Nat.toDigits_ne_nil]
  digit := by
    intro c hc
    obtain ⟨x, hx, rfl⟩ := List.mem_map.mp hc
    obtain ⟨d, hd, rfl⟩ := mem_toDigits hb hx
    exact ⟨d, hd, hf d (by omega)⟩
  value := by
    induction n using Nat.strong_induction_on with
    | _ n ih =>
      rw [Nat.toDigits_eq_if hb]
      split
      · next hlt => simp [hf n (by omega)]
      · next hge =>
        have hlt : n % b < b := Nat.mod_lt _ (by omega)
        rw [List.map_append, horner_append, ih (n / b) (Nat.div_lt_self (by omega) hb)]
        simp only [List.map_cons, List.map_nil, horner_cons, horner_nil, hf (n % b) (by omega),
          Option.getD_some]
        exact Nat.div_add_mod' n b

/-- They spell the number. -/
theorem spells_toDigits (hb : 1 < b) (hb' : b ≤ 16) (n : Nat) : Spells b (Nat.toDigits b n) n := by
  have h := spells_map_toDigits (f := id) (fun d hd => digitValue_digitChar hd) hb hb' n
  rwa [List.map_id] at h

/-- In capitals too. -/
theorem spells_toUpper_toDigits (hb : 1 < b) (hb' : b ≤ 16) (n : Nat) :
    Spells b ((Nat.toDigits b n).map Char.toUpper) n :=
  spells_map_toDigits (fun _ hd => digitValue_toUpper_digitChar hd) hb hb' n

/-- A zero in front changes nothing. -/
theorem Spells.cons_zero (hb : 0 < b) {cs : List Char} {n : Nat} (h : Spells b cs n) :
    Spells b ('0' :: cs) n where
  ne_nil := List.cons_ne_nil _ _
  digit := by
    intro c hc
    rcases List.mem_cons.mp hc with rfl | hc
    · exact ⟨0, hb, by decide⟩
    · exact h.digit c hc
  value := by
    rw [horner_cons, show digitValue '0' = some 0 by decide]
    simpa using h.value

/-- Any number of them does not. -/
theorem Spells.leftpad (hb : 0 < b) {cs : List Char} {n : Nat} (h : Spells b cs n) (w : Nat) :
    Spells b (cs.leftpad w '0') n := by
  unfold List.leftpad
  generalize w - cs.length = k
  induction k with
  | zero => exact h
  | succ k ih => exact ih.cons_zero hb

/-- A number of at most `w` digits, padded to exactly `w` of them. -/
theorem length_leftpad_toDigits (hb : 1 < b) {n w : Nat} (hw : 0 < w) (h : n < b ^ w) :
    ((Nat.toDigits b n).leftpad w '0').length = w := by
  have hle := (Nat.length_toDigits_le_iff hb hw).mpr h
  rw [List.length_leftpad]
  omega

/-- The first digit of a positive number is not zero. -/
theorem toDigits_head_ne_zero (hb : 1 < b) (hb' : b ≤ 16) {n : Nat} (hn : 0 < n) {c : Char}
    {cs : List Char} (h : Nat.toDigits b n = c :: cs) : c ≠ '0' := by
  induction n using Nat.strong_induction_on generalizing cs with
  | _ n ih =>
    rw [Nat.toDigits_eq_if hb] at h
    split at h
    · next hlt =>
      obtain ⟨rfl, -⟩ := List.cons.inj h
      rw [ne_eq, Nat.digitChar_eq_zero]
      omega
    · next hge =>
      obtain ⟨c', cs', hcs⟩ :=
        List.exists_cons_of_ne_nil (Nat.toDigits_ne_nil (n := n / b) (b := b))
      rw [hcs] at h
      obtain ⟨rfl, -⟩ := List.cons.inj h
      exact ih (n / b) (Nat.div_lt_self (by omega) hb) (Nat.div_pos (by omega) (by omega)) hcs

end

end VivadoTest.Lib
