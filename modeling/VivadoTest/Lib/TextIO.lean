import VivadoTest.Lib.PyText

/-!
# `VivadoTest.Lib.TextIO`: reading a line in VHDL

The procedures `read` and `hread` of `std.textio` and `ieee.std_logic_textio`, as functions
from a line to a value and the rest of the line. A procedure that reports an error, and a
metavalue of `std_logic`, is `none`.

* `readInteger_toDigits`, `readVector_spells`, `hread_spells`: numerals are read back.

The rest of the line is returned as VHDL leaves it in the variable, so that several values are read
one after the other. White space in front of a value is skipped, but not in front of a character.
-/

set_option autoImplicit false

namespace VivadoTest.Lib.TextIO

/-- A procedure that reads a value from the front of a line. -/
abbrev Reader (α : Type) := StateT (List Char) Option α

/-- A line without its leading white space. -/
def skipWhite (line : List Char) : List Char := line.dropWhile fun c => c = ' ' || c = '\t'

/-- `read` of a `character`. -/
def readCharacter : Reader Char
  | [] => none
  | c :: rest => some (c, rest)

/-- The digits that a decimal literal starts with. -/
def readNatural : Reader Nat := fun line =>
  let digits := line.takeWhile fun c => (digitValue c).any (· < 10)
  if digits = [] then none else some (horner 10 0 digits, line.drop digits.length)

/-- `read` of an `integer`. -/
def readInteger : Reader Int := fun line =>
  match skipWhite line with
  | '-' :: rest => (readNatural rest).map fun (n, rest) => (-(n : Int), rest)
  | line => (readNatural line).map fun (n, rest) => ((n : Int), rest)

/-- `count` digits of the base, as a number. -/
def readDigits (base count : Nat) : Reader Nat := fun line =>
  let line := skipWhite line
  let digits := line.take count
  if digits.length = count ∧ digits.all fun c => (digitValue c).any (· < base) then
    some (horner base 0 digits, line.drop count)
  else none

/-- `read` of a `std_logic`. -/
def readStdLogic : Reader Bool := do return (← readDigits 2 1) = 1

/-- `read` of a `std_logic_vector`. -/
def readVector (w : Nat) : Reader (BitVec w) := do return BitVec.ofNat w (← readDigits 2 w)

/-- `hread` of a `std_logic_vector`. -/
def hread (w : Nat) : Reader (BitVec w) := do return BitVec.ofNat w (← readDigits 16 (w / 4))

/-! ### Numerals are read back -/

/-- A line that starts with a digit has no white space to skip. -/
theorem skipWhite_of_digitValue {c : Char} {d : Nat} (h : digitValue c = some d)
    (line : List Char) :
    skipWhite (c :: line) = c :: line := by
  unfold skipWhite
  rw [List.dropWhile_cons_of_neg]
  simp only [Bool.or_eq_true, decide_eq_true_eq, not_or]
  exact ⟨ne_of_digitValue h (by decide), ne_of_digitValue h (by decide)⟩

/-- Nor has a line that starts with a numeral. -/
theorem skipWhite_of_spells {b : Nat} {cs : List Char} {n : Nat} (h : Spells b cs n)
    (rest : List Char) : skipWhite (cs ++ rest) = cs ++ rest := by
  obtain ⟨c, cs, rfl⟩ := List.exists_cons_of_ne_nil h.ne_nil
  obtain ⟨d, -, hd⟩ := h.digit c List.mem_cons_self
  exact skipWhite_of_digitValue hd _

/-- `read` of as many digits as the numeral has gives its number and what comes after. -/
theorem readDigits_spells {b : Nat} {cs : List Char} {n : Nat} (h : Spells b cs n)
    (rest : List Char) : readDigits b cs.length (cs ++ rest) = some (n, rest) := by
  have hall : (cs.all fun c => (digitValue c).any (· < b)) = true := by
    rw [List.all_eq_true]
    intro c hc
    obtain ⟨d, hd, hdc⟩ := h.digit c hc
    simp [hdc, hd]
  unfold readDigits
  simp only [skipWhite_of_spells h, List.take_left', List.drop_left']
  rw [if_pos ⟨trivial, hall⟩, h.value]

/-- `read` of a bit vector from a binary numeral of its width. -/
theorem readVector_spells {w : Nat} {cs : List Char} {n : Nat} (h : Spells 2 cs n)
    (hlen : cs.length = w) (rest : List Char) :
    readVector w (cs ++ rest) = some (BitVec.ofNat w n, rest) := by
  show (readDigits 2 w (cs ++ rest)).bind _ = _
  rw [← hlen, readDigits_spells h]
  rfl

/-- `hread` of a bit vector from a hexadecimal numeral of a quarter of its width. -/
theorem hread_spells {w : Nat} {cs : List Char} {n : Nat} (h : Spells 16 cs n)
    (hlen : cs.length = w / 4) (rest : List Char) :
    hread w (cs ++ rest) = some (BitVec.ofNat w n, rest) := by
  show (readDigits 16 (w / 4) (cs ++ rest)).bind _ = _
  rw [← hlen, readDigits_spells h]
  rfl

/-- `read` of a `std_logic` from one binary digit. -/
theorem readStdLogic_spells {c : Char} {n : Nat} (h : Spells 2 [c] n) (rest : List Char) :
    readStdLogic (c :: rest) = some (decide (n = 1), rest) := by
  show (readDigits 2 1 ([c] ++ rest)).bind _ = _
  rw [show 1 = [c].length from rfl, readDigits_spells h]
  rfl

/-- An integer that a character outside the digits ends. -/
theorem readInteger_toDigits (n : Nat) {c : Char} (hc : digitValue c = none) (rest : List Char) :
    readInteger (Nat.toDigits 10 n ++ c :: rest) = some ((n : Int), c :: rest) := by
  have h := spells_toDigits (b := 10) (by decide) (by decide) n
  have htake : ((Nat.toDigits 10 n ++ c :: rest).takeWhile fun c => (digitValue c).any (· < 10))
      = Nat.toDigits 10 n := by
    rw [List.takeWhile_append_of_pos]
    · simp [hc]
    · intro x hx
      obtain ⟨d, hd, hdx⟩ := h.digit x hx
      simp [hdx, hd]
  have hnat : readNatural (Nat.toDigits 10 n ++ c :: rest) = some (n, c :: rest) := by
    unfold readNatural
    simp only [htake]
    rw [if_neg Nat.toDigits_ne_nil, h.value, List.drop_left' rfl]
  unfold readInteger
  rw [skipWhite_of_spells h]
  split
  · next heq =>
    -- the first character is a digit
    obtain ⟨x, xs, hxs⟩ := List.exists_cons_of_ne_nil (Nat.toDigits_ne_nil (n := n) (b := 10))
    rw [hxs] at heq
    obtain ⟨d, -, hd⟩ := h.digit x (hxs ▸ List.mem_cons_self)
    exact absurd (List.cons.inj heq).1 (ne_of_digitValue hd (by decide))
  · rw [hnat]
    rfl

end VivadoTest.Lib.TextIO
