import VivadoTest.Lib.Numeral
import Mathlib.Data.List.DropRight
import Mathlib.Data.List.Forall2

/-!
# `VivadoTest.Lib.PyText`: text as Python programs read it

Text is a list of characters. `strip`, `words` and `pyInt` are `str.strip()`, `str.split()` and
`int(text, base)`, with Python's white space, decimal digits and underscores; `matchRegex` is the
fragment of `re` that matches one character class after another and backtracks.

* `pyInt_of_spells`, `pyInt_toDigits`, `pyInt_hex`: `pyInt` reads numerals.
* `pyInt_zero_of_spells`: where base `0` reads decimal digits.
* `wordsBy_pair`, `splitText_append`: two words on a line, a part before a separator.
* `textLines_unlines`, `wordsBy_unlines`: the lines of a text made of lines, and its words.

A function of Python that raises an exception is `none` here. A format of `re` is matched from the
left, a repetition as far as it goes and then back (`greedy`), so what a group has caught is
determined.
-/

set_option autoImplicit false

namespace VivadoTest.Lib

/-! ### White space -/

/-- `str.isspace`. -/
def isSpace (c : Char) : Bool :=
  [0x09, 0x0A, 0x0B, 0x0C, 0x0D, 0x1C, 0x1D, 0x1E, 0x1F, 0x20, 0x85, 0xA0, 0x1680, 0x2000, 0x2001,
    0x2002, 0x2003, 0x2004, 0x2005, 0x2006, 0x2007, 0x2008, 0x2009, 0x200A, 0x2028, 0x2029, 0x202F,
    0x205F, 0x3000].contains c.toNat

/-- `str.strip()`. -/
def strip (cs : List Char) : List Char := (cs.dropWhile isSpace).rdropWhile isSpace

/-- The maximal runs of characters outside a class of separators. -/
def wordsBy (sep : Char → Bool) (cs : List Char) : List (List Char) :=
  (cs.splitOnP sep).filter fun w => !w.isEmpty

/-- `str.split()`. -/
abbrev words (cs : List Char) : List (List Char) := wordsBy isSpace cs

/-- `str.split(sep)`; `skip` counts the characters of a separator still to pass. -/
def splitText (sep : List Char) : Nat → List Char → List (List Char)
  | _, [] => [[]]
  | skip + 1, _ :: cs => splitText sep skip cs
  | 0, c :: cs =>
    if sep.isPrefixOf (c :: cs) then [] :: splitText sep (sep.length - 1) cs
    else (splitText sep 0 cs).modifyHead (c :: ·)

/-- The lines of a text, without their terminators. The last one need not be terminated. -/
def textLines (text : List Char) : List (List Char) :=
  let parts := text.splitOn '\n'
  if parts.getLast? = some [] then parts.dropLast else parts

/-- Terminated lines, one after the other. -/
def unlines (ls : List (List Char)) : List Char := ls.flatMap (· ++ ['\n'])

/-! ### Numbers -/

/-- The code points of the decimal digits zero (Unicode category `Nd`); the digits of a script
follow its zero. -/
def decimalZeros : List Nat :=
  [0x0030, 0x0660, 0x06F0, 0x07C0, 0x0966, 0x09E6, 0x0A66, 0x0AE6, 0x0B66, 0x0BE6, 0x0C66, 0x0CE6,
    0x0D66, 0x0DE6, 0x0E50, 0x0ED0, 0x0F20, 0x1040, 0x1090, 0x17E0, 0x1810, 0x1946, 0x19D0, 0x1A80,
    0x1A90, 0x1B50, 0x1BB0, 0x1C40, 0x1C50, 0xA620, 0xA8D0, 0xA900, 0xA9D0, 0xA9F0, 0xAA50, 0xABF0,
    0xFF10, 0x104A0, 0x10D30, 0x11066, 0x110F0, 0x11136, 0x111D0, 0x112F0, 0x11450,
    0x114D0, 0x11650, 0x116C0, 0x11730, 0x118E0, 0x11950, 0x11C50, 0x11D50, 0x11DA0, 0x16A60,
    0x16AC0, 0x16B50, 0x1D7CE, 0x1D7D8, 0x1D7E2, 0x1D7EC, 0x1D7F6, 0x1E140, 0x1E2F0, 0x1E950,
    0x1FBF0]

/-- The zero of the script whose decimal digit `c` is. -/
def decimalZero (c : Char) : Option Nat :=
  decimalZeros.find? fun z => z ≤ c.toNat && c.toNat < z + 10

/-- `str.isdecimal`, the class `\d`. -/
def isDecimal (c : Char) : Bool := (decimalZero c).isSome

/-- What `int` does first: outside ASCII, white space becomes a blank and a decimal digit the
ASCII digit. -/
def toAscii (c : Char) : Char :=
  if c.toNat < 127 then c
  else if isSpace c then ' '
  else match decimalZero c with
    | some z => Nat.digitChar (c.toNat - z)
    | none => '?'

/-- The blanks that `int` ignores around a number. -/
def isBlank (c : Char) : Bool := c = ' ' || (0x09 ≤ c.toNat && c.toNat ≤ 0x0D)

/-- Digits of the base, single underscores between them. `digit` says that the character before
was a digit. -/
def scanDigits (base : Nat) : Nat → Bool → List Char → Option Nat
  | acc, digit, [] => if digit then some acc else none
  | acc, digit, c :: cs =>
    if c = '_' then if digit then scanDigits base acc false cs else none
    else match digitValue c with
      | some d => if d < base then scanDigits base (acc * base + d) true cs else none
      | none => none

/-- The base that a prefix letter announces. -/
def prefixBase (c : Char) : Option Nat :=
  if c = 'x' || c = 'X' then some 16
  else if c = 'o' || c = 'O' then some 8
  else if c = 'b' || c = 'B' then some 2
  else none

/-- The digits after a prefix; one underscore may stand before them. -/
def scanPrefixed (base : Nat) : List Char → Option Nat
  | '_' :: cs => scanDigits base 0 false cs
  | cs => scanDigits base 0 false cs

/-- The magnitude. In base `0` the prefix chooses the base, and without one only zero may start
with `0`. -/
def scanMagnitude (base : Nat) (cs : List Char) : Option Nat :=
  match cs with
  | '0' :: p :: rest =>
    match prefixBase p with
    | some announced =>
      if base = 0 ∨ base = announced then scanPrefixed announced rest
      else scanDigits base 0 false cs
    | none =>
      if base = 0 then (scanDigits 10 0 false cs).filter fun v => v = 0
      else scanDigits base 0 false cs
  | _ => scanDigits (if base = 0 then 10 else base) 0 false cs

/-- `int(text, base)`, `none` where it raises `ValueError`. -/
def pyInt (base : Nat) (text : List Char) : Option Int :=
  match ((text.map toAscii).dropWhile isBlank).rdropWhile isBlank with
  | '-' :: cs => (scanMagnitude base cs).map Int.negOfNat
  | '+' :: cs => (scanMagnitude base cs).map Int.ofNat
  | cs => (scanMagnitude base cs).map Int.ofNat

/-- The format `:0wX` of an integer. -/
def formatX (w : Nat) : Int → List Char
  | .ofNat n => ((Nat.toDigits 16 n).map Char.toUpper).leftpad w '0'
  | .negSucc n => '-' :: ((Nat.toDigits 16 (n + 1)).map Char.toUpper).leftpad (w - 1) '0'

/-! ### Regular expressions -/

/-- An element of a pattern. -/
inductive RegexItem
  /-- One character of a class. -/
  | one (p : Char → Bool)
  /-- A greedy repetition, `*`. -/
  | many (p : Char → Bool)
  /-- A capturing group around a greedy repetition, `(…+)`. -/
  | group (p : Char → Bool)
  /-- The end of the text or of its last line, `$`. -/
  | atEnd

/-- Takes characters of the class `p` for as long as it can and gives back one at a time until the
rest of the pattern, `k`, matches. -/
def greedy {α : Type} (p : Char → Bool) (k : List Char → List Char → Option α) :
    List Char → List Char → Option α
  | taken, [] => k taken.reverse []
  | taken, c :: cs =>
    if p c then (greedy p k (c :: taken) cs).orElse fun _ => k taken.reverse (c :: cs)
    else k taken.reverse (c :: cs)

/-- `re.match`: the groups of the first match at the start of the text. -/
def matchRegex : List RegexItem → List Char → Option (List (List Char))
  | [], _ => some []
  | .one _ :: _, [] => none
  | .one p :: items, c :: cs => if p c then matchRegex items cs else none
  | .many p :: items, cs => greedy p (fun _ rest => matchRegex items rest) [] cs
  | .group p :: items, cs =>
    greedy p (fun taken rest =>
      if taken.isEmpty then none else (matchRegex items rest).map (taken :: ·)) [] cs
  | .atEnd :: items, cs => if cs = [] ∨ cs = ['\n'] then matchRegex items cs else none

/-- The class of one character, and `.`. -/
def isChar (c : Char) : Char → Bool := fun x => x = c

/-- What `.` of a regular expression matches. -/
def notNewline (c : Char) : Bool := c ≠ '\n'

/-! ### Numerals are read back -/

/-- Characters at the end that are all dropped are dropped first. -/
theorem rdropWhile_append_of_forall {α : Type*} {p : α → Bool} {xs ys : List α}
    (h : ∀ y ∈ ys, p y = true) : (xs ++ ys).rdropWhile p = xs.rdropWhile p := by
  unfold List.rdropWhile
  rw [List.reverse_append, List.dropWhile_append_of_pos]
  exact fun y hy => h y (List.mem_reverse.mp hy)

/-- The characters that are digits of some base. -/
theorem digitValue_range {c : Char} {d : Nat} (h : digitValue c = some d) :
    (0x30 ≤ c.toNat ∧ c.toNat ≤ 0x39) ∨ (0x61 ≤ c.toNat ∧ c.toNat ≤ 0x7A) ∨
      (0x41 ≤ c.toNat ∧ c.toNat ≤ 0x5A) := by
  unfold digitValue at h
  split at h
  · next hr => exact Or.inl hr
  · split at h
    · next hr => exact Or.inr (Or.inl hr)
    · split at h
      · next hr => exact Or.inr (Or.inr hr)
      · exact absurd h (by simp)

/-- A digit is neither white space nor a sign nor an underscore, and it is ASCII. -/
theorem ne_of_digitValue {c x : Char} {d : Nat} (h : digitValue c = some d)
    (hx : digitValue x = none) : c ≠ x := by
  rintro rfl
  rw [h] at hx
  exact absurd hx (by simp)

/-- A digit is no white space for `isspace`. -/
theorem isSpace_eq_false_of_digitValue {c : Char} {d : Nat} (h : digitValue c = some d) :
    isSpace c = false := by
  have hr := digitValue_range h
  unfold isSpace
  rw [← Bool.not_eq_true, List.contains_iff_mem]
  intro hmem
  simp only [List.mem_cons, List.not_mem_nil, or_false] at hmem
  omega

/-- So no character of a number is. -/
theorem isSpace_of_spells {b : Nat} {cs : List Char} {n : Nat} (h : Spells b cs n) :
    ∀ c ∈ cs, isSpace c = false := by
  intro c hc
  obtain ⟨d, -, hd⟩ := h.digit c hc
  exact isSpace_eq_false_of_digitValue hd

/-- A digit is an ASCII character already. -/
theorem toAscii_of_digitValue {c : Char} {d : Nat} (h : digitValue c = some d) :
    toAscii c = c := by
  have hr := digitValue_range h
  unfold toAscii
  exact if_pos (by omega)

/-- A digit is not stripped from the end of a number. -/
theorem isBlank_eq_false_of_digitValue {c : Char} {d : Nat} (h : digitValue c = some d) :
    isBlank c = false := by
  have hr := digitValue_range h
  have hspace : c ≠ ' ' := ne_of_digitValue h (by decide)
  unfold isBlank
  simp only [hspace, decide_false, Bool.false_or, Bool.and_eq_false_iff, decide_eq_false_iff_not]
  omega

/-- The scanner over digits only computes the number by Horner's rule. -/
theorem scanDigits_eq_horner {b : Nat} {cs : List Char} (acc : Nat) (digit : Bool)
    (hcs : ∀ c ∈ cs, ∃ d < b, digitValue c = some d) (hne : digit = true ∨ cs ≠ []) :
    scanDigits b acc digit cs = some (horner b acc cs) := by
  induction cs generalizing acc digit with
  | nil =>
    rcases hne with rfl | hne
    · rfl
    · exact absurd rfl hne
  | cons c cs ih =>
    obtain ⟨d, hd, hc⟩ := hcs c List.mem_cons_self
    have hrest := ih (acc * b + d) true (fun x hx => hcs x (List.mem_cons_of_mem c hx)) (Or.inl rfl)
    unfold scanDigits
    rw [if_neg (ne_of_digitValue hc (by decide)), hc]
    simp only [hd, if_true, horner_cons, hc, Option.getD_some]
    exact hrest

/-- A spelled number is scanned as itself. -/
theorem Spells.scanDigits_eq {b : Nat} {cs : List Char} {n : Nat} (h : Spells b cs n) :
    scanDigits b 0 false cs = some n := by
  rw [scanDigits_eq_horner 0 false h.digit (Or.inr h.ne_nil), h.value]

/-- A prefix letter is no decimal digit, and it is worth at least the base it announces. -/
theorem exists_digitValue_of_prefixBase {p : Char} {announced : Nat}
    (hp : prefixBase p = some announced) :
    ∃ d, announced ≤ d ∧ 10 ≤ d ∧ digitValue p = some d := by
  unfold prefixBase at hp
  split_ifs at hp with hx ho hb
  · obtain rfl := Option.some.inj hp
    rcases (by simpa using hx : p = 'x' ∨ p = 'X') with rfl | rfl <;>
      exact ⟨33, by decide, by decide, by decide⟩
  · obtain rfl := Option.some.inj hp
    rcases (by simpa using ho : p = 'o' ∨ p = 'O') with rfl | rfl <;>
      exact ⟨24, by decide, by decide, by decide⟩
  · obtain rfl := Option.some.inj hp
    rcases (by simpa using hb : p = 'b' ∨ p = 'B') with rfl | rfl <;>
      exact ⟨11, by decide, by decide, by decide⟩

/-- In a fixed base no prefix is looked for. -/
theorem Spells.scanMagnitude_eq {b : Nat} (hb : b ≠ 0) {cs : List Char} {n : Nat}
    (h : Spells b cs n) : scanMagnitude b cs = some n := by
  unfold scanMagnitude
  split
  · next p rest =>
    split
    · next announced hp =>
      rw [if_neg, h.scanDigits_eq]
      rintro (rfl | rfl)
      · exact hb rfl
      · obtain ⟨d, hd, hpd⟩ := h.digit p (List.mem_cons_of_mem _ List.mem_cons_self)
        obtain ⟨d', hle, -, hpd'⟩ := exists_digitValue_of_prefixBase hp
        rw [hpd] at hpd'
        obtain rfl := Option.some.inj hpd'
        omega
    · rw [if_neg hb, h.scanDigits_eq]
  · rw [if_neg hb, h.scanDigits_eq]

/-- A text of digits and letters with blanks behind it is read without the blanks. -/
theorem pyInt_append_blanks (base : Nat) {cs : List Char} (hne : cs ≠ [])
    (hcs : ∀ c ∈ cs, ∃ d, digitValue c = some d) {tail : List Char}
    (htail : ∀ c ∈ tail, isBlank (toAscii c) = true) :
    pyInt base (cs ++ tail) = (scanMagnitude base cs).map Int.ofNat := by
  -- Digits are ASCII, so the conversion and both strippings leave them alone.
  have hmap : cs.map toAscii = cs := by
    refine (List.map_congr_left fun c hc => ?_).trans (List.map_id cs)
    obtain ⟨d, hd⟩ := hcs c hc
    exact toAscii_of_digitValue hd
  have hdrop : (cs ++ tail.map toAscii).dropWhile isBlank = cs ++ tail.map toAscii := by
    obtain ⟨c, rest, rfl⟩ := List.exists_cons_of_ne_nil hne
    obtain ⟨d, hd⟩ := hcs c List.mem_cons_self
    rw [List.cons_append, List.dropWhile_cons, if_neg]
    rw [isBlank_eq_false_of_digitValue hd]
    exact Bool.false_ne_true
  have hrdrop : (cs ++ tail.map toAscii).rdropWhile isBlank = cs := by
    have hblank : ∀ c ∈ tail.map toAscii, isBlank c = true := by
      intro c hc
      obtain ⟨x, hx, rfl⟩ := List.mem_map.mp hc
      exact htail x hx
    rw [rdropWhile_append_of_forall hblank]
    refine List.rdropWhile_eq_self_iff.mpr fun hl => ?_
    obtain ⟨d, hd⟩ := hcs _ (List.getLast_mem hl)
    rw [isBlank_eq_false_of_digitValue hd]
    exact Bool.false_ne_true
  -- A numeral begins with a digit, so neither sign is tried.
  unfold pyInt
  rw [List.map_append, hmap, hdrop, hrdrop]
  split
  · obtain ⟨d, hd⟩ := hcs '-' List.mem_cons_self
    exact absurd rfl (ne_of_digitValue hd (by decide))
  · obtain ⟨d, hd⟩ := hcs '+' List.mem_cons_self
    exact absurd rfl (ne_of_digitValue hd (by decide))
  · rfl

/-- `int(cs, b)` with white space behind the number, as in a line of a file. -/
theorem pyInt_of_spells_append {b : Nat} (hb : b ≠ 0) {cs : List Char} {n : Nat}
    (h : Spells b cs n) {tail : List Char} (htail : ∀ c ∈ tail, isBlank (toAscii c) = true) :
    pyInt b (cs ++ tail) = some (n : Int) := by
  rw [pyInt_append_blanks b h.ne_nil (fun c hc => (h.digit c hc).imp fun _ hd => hd.2) htail,
    h.scanMagnitude_eq hb]
  rfl

/-- And without any. -/
theorem pyInt_of_spells {b : Nat} (hb : b ≠ 0) {cs : List Char} {n : Nat} (h : Spells b cs n) :
    pyInt b cs = some (n : Int) := by
  have hr :=
    pyInt_of_spells_append hb h (show ∀ c ∈ [], _ from fun _ hc => absurd hc List.not_mem_nil)
  rwa [List.append_nil] at hr

/-- Without a prefix, base `0` reads decimal digits, but not zeros in front of another number. -/
theorem scanMagnitude_zero_of_spells {cs : List Char} {n : Nat} (h : Spells 10 cs n) :
    scanMagnitude 0 cs = if n = 0 ∨ cs.head? ≠ some '0' then some n else none := by
  unfold scanMagnitude
  split
  · next p rest =>
    -- the second character is a decimal digit, so it announces no base
    have hpre : prefixBase p = none := by
      cases hp : prefixBase p with
      | none => rfl
      | some announced =>
        obtain ⟨d, hd, hpd⟩ := h.digit p (List.mem_cons_of_mem _ List.mem_cons_self)
        obtain ⟨d', -, hge, hpd'⟩ := exists_digitValue_of_prefixBase hp
        rw [hpd] at hpd'
        obtain rfl := Option.some.inj hpd'
        omega
    rw [hpre]
    simp only [if_true, h.scanDigits_eq, Option.filter_some, List.head?_cons, ne_eq,
      not_true_eq_false, or_false, decide_eq_true_eq]
  -- No second character behind a zero: the numeral is `0`, or it does not begin with a zero.
  · next hne =>
    have hhead : n = 0 ∨ cs.head? ≠ some '0' := by
      by_cases hc : cs.head? = some '0'
      · obtain ⟨rest, rfl⟩ : ∃ rest, cs = '0' :: rest := by
          cases cs with
          | nil => exact absurd hc (by simp)
          | cons c rest => exact ⟨rest, by rw [Option.some.inj hc]⟩
        cases rest with
        | nil => exact Or.inl (h.value.symm.trans (by decide))
        | cons p rest => exact absurd rfl (hne p rest)
      · exact Or.inr hc
    rw [if_pos hhead, if_pos rfl, h.scanDigits_eq]

/-- In base 0 a decimal number must not start with a zero, unless all of its digits are zeros.
This is the rule of Python's literals. -/
theorem pyInt_zero_of_spells {cs : List Char} {n : Nat} (h : Spells 10 cs n) :
    pyInt 0 cs = if n = 0 ∨ cs.head? ≠ some '0' then some (n : Int) else none := by
  have hr := pyInt_append_blanks 0 h.ne_nil (fun c hc => (h.digit c hc).imp fun _ hd => hd.2)
    (show ∀ c ∈ [], _ from fun _ hc => absurd hc List.not_mem_nil)
  rw [List.append_nil, scanMagnitude_zero_of_spells h] at hr
  rw [hr]
  split <;> rfl

/-- Base `0` reads what `str` prints. -/
theorem pyInt_toDigits (n : Nat) : pyInt 0 (Nat.toDigits 10 n) = some (n : Int) := by
  rw [pyInt_zero_of_spells (spells_toDigits (by decide) (by decide) n), if_pos]
  rcases Nat.eq_zero_or_pos n with hn | hn
  · exact Or.inl hn
  · right
    intro hhead
    -- a positive number has no leading zero
    obtain ⟨c, cs, hcs⟩ := List.exists_cons_of_ne_nil (Nat.toDigits_ne_nil (n := n) (b := 10))
    rw [hcs] at hhead
    exact toDigits_head_ne_zero (by decide) (by decide) hn hcs (Option.some.inj hhead)

/-- Base `0` reads a hexadecimal literal. -/
theorem pyInt_hex {cs : List Char} {n : Nat} (h : Spells 16 cs n) :
    pyInt 0 ('0' :: 'x' :: cs) = some (n : Int) := by
  have hcs : ∀ c ∈ '0' :: 'x' :: cs, ∃ d, digitValue c = some d := by
    intro c hc
    rcases List.mem_cons.mp hc with rfl | hc
    · exact ⟨0, by decide⟩
    rcases List.mem_cons.mp hc with rfl | hc
    · exact ⟨33, by decide⟩
    · exact (h.digit c hc).imp fun _ hd => hd.2
  have hr := pyInt_append_blanks 0 (List.cons_ne_nil _ _) hcs
    (show ∀ c ∈ [], _ from fun _ hc => absurd hc List.not_mem_nil)
  rw [List.append_nil] at hr
  have hscan : scanPrefixed 16 cs = some n := by
    unfold scanPrefixed
    split
    · obtain ⟨d, -, hd⟩ := h.digit '_' List.mem_cons_self
      exact absurd rfl (ne_of_digitValue hd (by decide))
    · exact h.scanDigits_eq
  rw [hr]
  show (if 0 = 0 ∨ 0 = 16 then scanPrefixed 16 cs
    else scanDigits 0 0 false ('0' :: 'x' :: cs)).map Int.ofNat = _
  rw [if_pos (Or.inl rfl), hscan]
  rfl

/-- `"{:0wX}".format(n)` spells `n` in base 16. -/
theorem spells_formatX (w n : Nat) : Spells 16 (formatX w n) n :=
  (spells_toUpper_toDigits (by decide) (by decide) n).leftpad (by decide) w

/-! ### Words -/

section
variable {sep : Char → Bool}

/-- A separator in front of a text makes no word. -/
theorem wordsBy_cons_sep {c : Char} (hc : sep c = true) (cs : List Char) :
    wordsBy sep (c :: cs) = wordsBy sep cs := by
  unfold wordsBy
  rw [← List.nil_append (c :: cs), List.splitOnP_append_cons _ _ hc]
  rfl

/-- A word up to a separator. -/
theorem wordsBy_append_sep {w : List Char} (hne : w ≠ []) (hw : ∀ c ∈ w, sep c = false)
    {c : Char} (hc : sep c = true) (cs : List Char) :
    wordsBy sep (w ++ c :: cs) = w :: wordsBy sep cs := by
  unfold wordsBy
  rw [List.splitOnP_append_cons_of_forall_mem hw c hc, List.filter_cons_of_pos]
  simpa using hne

/-- Separators in front of a text make no words. -/
theorem wordsBy_append_of_forall_sep {pad : List Char} (h : ∀ c ∈ pad, sep c = true)
    (cs : List Char) : wordsBy sep (pad ++ cs) = wordsBy sep cs := by
  induction pad with
  | nil => rfl
  | cons c pad ih =>
    rw [List.cons_append, wordsBy_cons_sep (h c List.mem_cons_self)]
    exact ih fun x hx => h x (List.mem_cons_of_mem c hx)

/-- A text without separators is one word. -/
theorem wordsBy_singleton {w : List Char} (hne : w ≠ []) (hw : ∀ c ∈ w, sep c = false) :
    wordsBy sep w = [w] := by
  unfold wordsBy
  rw [List.splitOnP_eq_singleton hw, List.filter_cons_of_pos]
  · rfl
  · simpa using hne

/-- Two words with separators between them. -/
theorem wordsBy_pair {v w gap : List Char} (hv : v ≠ []) (hw : w ≠ [])
    (hvs : ∀ c ∈ v, sep c = false) (hws : ∀ c ∈ w, sep c = false) (hgap : gap ≠ [])
    (hgaps : ∀ c ∈ gap, sep c = true) : wordsBy sep (v ++ gap ++ w) = [v, w] := by
  obtain ⟨g, gap, rfl⟩ := List.exists_cons_of_ne_nil hgap
  rw [List.append_assoc, List.cons_append,
    wordsBy_append_sep hv hvs (hgaps g List.mem_cons_self),
    wordsBy_append_of_forall_sep (fun c hc => hgaps c (List.mem_cons_of_mem g hc)),
    wordsBy_singleton hw hws]

end

/-! ### Parts -/

/-- A text in which the separator does not even begin is one part. -/
theorem splitText_of_not_mem {s : Char} {sep cs : List Char} (h : s ∉ cs) :
    splitText (s :: sep) 0 cs = [cs] := by
  induction cs with
  | nil => rfl
  | cons c cs ih =>
    obtain ⟨hc, hcs⟩ := not_or.mp (mt List.mem_cons.mpr h)
    have hpre : (s :: sep).isPrefixOf (c :: cs) = false := by simp [List.isPrefixOf, hc]
    rw [splitText, hpre, ih hcs]
    rfl

/-- The characters of a separator that are still to pass. -/
theorem splitText_skip (sep skipped cs : List Char) :
    splitText sep skipped.length (skipped ++ cs) = splitText sep 0 cs := by
  induction skipped with
  | nil => rfl
  | cons c skipped ih =>
    rw [List.length_cons, List.cons_append, splitText]
    exact ih

/-- A part that ends in front of a separator. -/
theorem splitText_append {s : Char} (sep : List Char) {part : List Char} (h : s ∉ part)
    (cs : List Char) :
    splitText (s :: sep) 0 (part ++ (s :: sep) ++ cs) = part :: splitText (s :: sep) 0 cs := by
  induction part with
  | nil =>
    have hpre : (s :: sep).isPrefixOf (s :: (sep ++ cs)) = true :=
      List.isPrefixOf_iff_prefix.mpr ⟨cs, rfl⟩
    show splitText (s :: sep) 0 (s :: (sep ++ cs)) = _
    rw [splitText, hpre, if_pos rfl]
    exact congrArg _ (splitText_skip (s :: sep) sep cs)
  | cons c part ih =>
    obtain ⟨hc, hpart⟩ := not_or.mp (mt List.mem_cons.mpr h)
    have hpre : (s :: sep).isPrefixOf (c :: (part ++ (s :: sep) ++ cs)) = false := by
      simp [List.isPrefixOf, hc]
    show splitText (s :: sep) 0 (c :: (part ++ (s :: sep) ++ cs)) = _
    rw [splitText, hpre, ih hpart]
    rfl

/-! ### Lines -/

/-- The first line of a text. -/
theorem textLines_append {l : List Char} (hl : '\n' ∉ l) (text : List Char) :
    textLines (l ++ '\n' :: text) = l :: textLines text := by
  have hparts : (text.splitOn '\n') ≠ [] := List.splitOn_ne_nil _ _
  unfold textLines
  rw [List.splitOn_append_cons_self_of_not_mem hl]
  simp only [List.getLast?_cons_of_ne_nil hparts, List.dropLast_cons_of_ne_nil hparts]
  split <;> rfl

/-- The lines of a text made of lines. -/
theorem textLines_unlines {ls : List (List Char)} (h : ∀ l ∈ ls, '\n' ∉ l) :
    textLines (unlines ls) = ls := by
  induction ls with
  | nil => decide
  | cons l ls ih =>
    show textLines ((l ++ ['\n']) ++ unlines ls) = _
    rw [List.append_assoc, List.singleton_append, textLines_append (h l List.mem_cons_self),
      ih fun x hx => h x (List.mem_cons_of_mem l hx)]

/-- The last line need not be terminated when it is not empty. -/
theorem textLines_intercalate {ls : List (List Char)} (h : ∀ l ∈ ls, '\n' ∉ l)
    (hne : ∀ l ∈ ls, l ≠ []) : textLines (['\n'].intercalate ls) = ls := by
  induction ls with
  | nil => decide
  | cons l ls ih =>
    have hl : '\n' ∉ l := h l List.mem_cons_self
    cases ls with
    | nil =>
      have hne : l ≠ [] := hne l List.mem_cons_self
      unfold textLines
      rw [List.intercalate_singleton, List.splitOn_eq_singleton hl]
      simp [hne]
    | cons next ls =>
      rw [List.intercalate_cons_cons, List.append_assoc, List.singleton_append,
        textLines_append hl, ih (fun x hx => h x (List.mem_cons_of_mem l hx))
          (fun x hx => hne x (List.mem_cons_of_mem l hx))]

/-- Lines with separators between them and one behind are terminated lines. -/
theorem intercalate_append_newline {ls : List (List Char)} (hne : ls ≠ []) :
    ['\n'].intercalate ls ++ ['\n'] = unlines ls := by
  induction ls with
  | nil => exact absurd rfl hne
  | cons l ls ih =>
    show _ = (l ++ ['\n']) ++ unlines ls
    cases ls with
    | nil => simp [unlines]
    | cons next ls => rw [List.intercalate_cons_cons, List.append_assoc, ih (List.cons_ne_nil _ _)]

/-- Lines that are words. -/
theorem wordsBy_unlines {sep : Char → Bool} (hsep : sep '\n' = true) {ls : List (List Char)}
    (hne : ∀ l ∈ ls, l ≠ []) (hls : ∀ l ∈ ls, ∀ c ∈ l, sep c = false) :
    wordsBy sep (unlines ls) = ls := by
  induction ls with
  | nil => rfl
  | cons l ls ih =>
    show wordsBy sep ((l ++ ['\n']) ++ unlines ls) = _
    rw [List.append_assoc, List.singleton_append,
      wordsBy_append_sep (hne l List.mem_cons_self) (hls l List.mem_cons_self) hsep,
      ih (fun x hx => hne x (List.mem_cons_of_mem l hx))
        (fun x hx => hls x (List.mem_cons_of_mem l hx))]

/-- What a printed line has been made of. -/
theorem exists_of_mem_forall₂ {α β : Type*} {R : α → β → Prop} {xs : List α} {ys : List β}
    (h : List.Forall₂ R xs ys) {y : β} (hy : y ∈ ys) : ∃ x ∈ xs, R x y := by
  induction h with
  | nil => exact absurd hy List.not_mem_nil
  | @cons x y' xs ys hfirst _ ih =>
    rcases List.mem_cons.mp hy with rfl | hy
    · exact ⟨x, List.mem_cons_self, hfirst⟩
    · obtain ⟨x', hx', hR⟩ := ih hy
      exact ⟨x', List.mem_cons_of_mem x hx', hR⟩

/-- Printed lines without a newline in them. -/
theorem noNewline_of_forall₂ {α : Type*} {R : α → List Char → Prop} {xs : List α}
    {lines : List (List Char)} (hR : ∀ {x line}, R x line → '\n' ∉ line)
    (h : List.Forall₂ R xs lines) : ∀ line ∈ lines, '\n' ∉ line := by
  intro line hline
  obtain ⟨x, -, hx⟩ := exists_of_mem_forall₂ h hline
  exact hR hx

/-- A loop that stops at the first exception. -/
theorem mapM_eq_some_iff {α β : Type*} {f : α → Option β} {xs : List α} {ys : List β} :
    xs.mapM f = some ys ↔ List.Forall₂ (fun x y => f x = some y) xs ys := by
  induction xs generalizing ys with
  | nil => simp [eq_comm]
  | cons x xs ih =>
    rw [List.mapM_cons, List.forall₂_cons_left_iff]
    constructor
    · intro h
      obtain ⟨y, hy, h⟩ := Option.bind_eq_some_iff.mp h
      obtain ⟨ys', hys', h⟩ := Option.bind_eq_some_iff.mp h
      exact ⟨y, ys', hy, ih.mp hys', (Option.some.inj h).symm⟩
    · intro h
      obtain ⟨y, ys', hy, hys', rfl⟩ := h
      rw [hy, ih.mpr hys']
      rfl

/-- A loop without an exception. -/
theorem exists_mapM {α β : Type*} {f : α → Option β} {R : α → β → Prop} {xs : List α}
    (h : ∀ x ∈ xs, ∃ y, f x = some y ∧ R x y) :
    ∃ ys, xs.mapM f = some ys ∧ List.Forall₂ R xs ys := by
  induction xs with
  | nil => exact ⟨[], rfl, .nil⟩
  | cons x xs ih =>
    obtain ⟨y, hy, hR⟩ := h x List.mem_cons_self
    obtain ⟨ys, hys, hRs⟩ := ih fun x' hx => h x' (List.mem_cons_of_mem x hx)
    refine ⟨y :: ys, ?_, .cons hR hRs⟩
    rw [List.mapM_cons, hy, hys]
    rfl

end VivadoTest.Lib
