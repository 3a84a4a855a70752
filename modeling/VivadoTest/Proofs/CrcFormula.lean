import VivadoTest.InputTest.CrcFormula
import VivadoTest.Proofs.UsbCrc
import Mathlib.Data.Finset.SymmDiff
import Mathlib.Tactic.IntervalCases

/-!
# `VivadoTest.Proofs.CrcFormula`: what the generated formulae compute

A word of terms has a value in each assignment of the variables, and `updsymcrc` does to the value
what one bit does to a CRC register (`Holds.updsymcrc`). The relation `Holds` also covers the two
ways in which the script differs from the register: a buffer that is longer than the register, and
incoming bits that were added to the buffer in advance.

* `crcformula_correct`, `decomposedformula_correct`, `twicehalfformula_correct`: for every generator
  polynomial the script succeeds, its assertions included, and its formulae compute the CRC.
* `crcUpd_generated`: the formulae in `usb_packet.vhdl` are those of the
  script.

## The invariant of the script

`Holds` relates a word of the script to a register `C` and to the bits `ps` that were added to the
buffer in advance and are still to come into the register. Three operations keep it: an update
(`Holds.updsymcrc`), the cut of empty low terms (`Holds.truncate`), and a new name for a word
(`Holds.rename`). The three formulae are chains of these, so each of the three results is an
assembly and not an induction of its own.

The script computes with names, and its result holds in every assignment of bits to them
(`exists_uniform`): this is what a formula in the VHDL source needs.
-/

set_option autoImplicit false

namespace VivadoTest.InputTest.CrcFormula

open VivadoTest.Framework VivadoTest.Lib.Crc VivadoTest.Spec

/-! ### Values -/

/-- The value of a term: whether an odd number of its variables are high. -/
def value (ρ : Var → Bool) (z : Term) : Bool := decide ((z.filter (ρ · = true)).card % 2 = 1)

/-- The value of the bit `i` of a word. -/
def bitAt (ρ : Var → Bool) (y : List Term) (i : Nat) : Bool := value ρ (y.getD i ∅)

/-- A register from its bits, the lowest first. -/
def word (w : Nat) (bits : List Bool) : BitVec w := ofMsbs bits.reverse

/-- The generator that a polynomial stands for. -/
def generator (poly : List Nat) : BitVec poly.length :=
  word poly.length (poly.map fun n => decide (n ≠ 0))

variable {ρ : Var → Bool}

/-- A sum of no signals is low. -/
@[simp] theorem value_empty : value ρ ∅ = false := by simp [value]

/-- What is in both terms cancels out. -/
theorem value_xorsym (p q : Term) : value ρ (xorsym p q) = (value ρ p ^^ value ρ q) := by
  obtain ⟨P, hP⟩ : ∃ P, P = p.filter (ρ · = true) := ⟨_, rfl⟩
  obtain ⟨Q, hQ⟩ : ∃ Q, Q = q.filter (ρ · = true) := ⟨_, rfl⟩
  have hsplit : (xorsym p q).filter (ρ · = true) = (P \ Q) ∪ (Q \ P) := by
    ext v
    simp only [xorsym, hP, hQ, Finset.mem_filter, Finset.mem_union, Finset.mem_sdiff]
    tauto
  have hcard : ((P \ Q) ∪ (Q \ P)).card = (P \ Q).card + (Q \ P).card :=
    Finset.card_union_of_disjoint disjoint_sdiff_sdiff
  have hp := Finset.card_sdiff_add_card_inter P Q
  have hq := Finset.card_sdiff_add_card_inter Q P
  rw [Finset.inter_comm] at hq
  simp only [value, hsplit, hcard, ← hP, ← hQ]
  by_cases hPodd : P.card % 2 = 1 <;> by_cases hQodd : Q.card % 2 = 1
  all_goals simp only [hPodd, hQodd, decide_true, decide_false, Bool.xor_self, Bool.xor_false,
    Bool.false_xor, decide_eq_false_iff_not, decide_eq_true_eq]
  all_goals omega

/-- A sum of one signal is that signal. -/
@[simp] theorem value_singleton (v : Var) : value ρ {v} = ρ v := by
  cases h : ρ v <;> simp [value, Finset.filter_singleton, h]

/-- The bits of a word that is listed from its lowest bit on. -/
theorem getLsbD_word {w : Nat} {bits : List Bool} (h : bits.length = w) (i : Nat) :
    (word w bits).getLsbD i = bits.getD i false := by
  by_cases hi : i < w
  · rw [BitVec.getLsbD_eq_getElem hi, word, getElem_ofMsbs,
      List.getElem?_reverse (by omega), show bits.length - 1 - (w - 1 - i) = i by omega,
      List.getD_eq_getElem?_getD]
  · rw [BitVec.getLsbD_of_ge _ _ (by omega)]
    simp [show bits.length ≤ i by omega]

/-! ### One update -/

/-- A loop over the indices from `0` to `n - 1` that changes the entry `d` places behind an index,
where `p` holds of it: every entry is changed at most once. -/
theorem getElem?_loop {α : Type} (p : Nat → Prop) [DecidablePred p] (f : α → α) (d n j : Nat)
    (ys : List α) :
    ((List.range n).foldl (fun ys i => if p i then ys.modify (i + d) f else ys) ys)[j]? =
      if d ≤ j ∧ j < d + n ∧ p (j - d) then ys[j]?.map f else ys[j]? := by
  induction n with
  | zero =>
    rw [if_neg (by omega)]
    rfl
  | succ n ih =>
    rw [List.range_succ, List.foldl_append, List.foldl_cons, List.foldl_nil]
    by_cases hn : p n
    · rw [if_pos hn, List.getElem?_modify, ih]
      -- The last turn changes one entry, which no earlier turn has changed.
      by_cases hj : n + d = j
      · subst hj
        rw [if_neg (by omega), if_pos ⟨by omega, by omega, by simpa using hn⟩]
        simp
      · have hiff : d ≤ j ∧ j < d + (n + 1) ∧ p (j - d) ↔ d ≤ j ∧ j < d + n ∧ p (j - d) := by
          constructor
          · rintro ⟨h1, h2, h3⟩
            exact ⟨h1, by omega, h3⟩
          · rintro ⟨h1, h2, h3⟩
            exact ⟨h1, by omega, h3⟩
        simp [hj, hiff]
    · rw [if_neg hn, ih]
      have hiff : d ≤ j ∧ j < d + (n + 1) ∧ p (j - d) ↔ d ≤ j ∧ j < d + n ∧ p (j - d) := by
        constructor
        · rintro ⟨h1, h2, h3⟩
          refine ⟨h1, ?_, h3⟩
          by_contra hlt
          obtain rfl : j = n + d := by omega
          exact hn (by simpa using h3)
        · rintro ⟨h1, h2, h3⟩
          exact ⟨h1, by omega, h3⟩
      simp [hiff]

/-- It does not change the length. -/
theorem length_loop {α : Type} (p : Nat → Prop) [DecidablePred p] (f : α → α) (d : Nat)
    (is : List Nat) (ys : List α) :
    (is.foldl (fun ys i => if p i then ys.modify (i + d) f else ys) ys).length = ys.length := by
  induction is generalizing ys with
  | nil => rfl
  | cons i is ih =>
    rw [List.foldl_cons, ih]
    split <;> simp

/-- The terms of a word after an update: shifted up by one, and what goes in is added where the
polynomial says. -/
theorem getD_updsymcrc {y : List Term} (bit : Term) {poly : List Nat} (hy : y ≠ [])
    (hle : poly.length ≤ y.length) : ∃ y', updsymcrc y bit poly = some y' ∧
      y'.length = y.length ∧ ∀ i < y.length, y'.getD i ∅ =
        if y.length - poly.length ≤ i ∧ poly.getD (i - (y.length - poly.length)) 0 ≠ 0 then
          xorsym ((∅ :: y).getD i ∅) (xorsym bit (y.getD (y.length - 1) ∅))
        else (∅ :: y).getD i ∅ := by
  have hpos : 0 < y.length := List.length_pos_iff.mpr hy
  have hlast : y.getLast? = some (y.getD (y.length - 1) ∅) := by
    rw [List.getLast?_eq_getElem?, List.getD_eq_getElem?_getD,
      List.getElem?_eq_getElem (show y.length - 1 < y.length by omega)]
    rfl
  have hlen : (∅ :: y.dropLast).length = y.length := by
    rw [List.length_cons, List.length_dropLast]
    omega
  -- The word moves up by one place before the loop adds the feedback.
  have hshift : ∀ i < y.length, (∅ :: y.dropLast)[i]? = some ((∅ :: y).getD i ∅) := by
    intro i hi
    cases i with
    | zero => rfl
    | succ i =>
      rw [List.getElem?_cons_succ, List.getElem?_dropLast, if_pos (by omega),
        List.getD_cons_succ, List.getD_eq_getElem?_getD,
        List.getElem?_eq_getElem (show i < y.length by omega)]
      rfl
  refine ⟨_, by rw [updsymcrc, hlast]; rfl, ?_, fun i hi => ?_⟩
  · rw [length_loop, hlen]
  · rw [hlen, List.getD_eq_getElem?_getD, getElem?_loop, hshift i hi]
    have hiff : y.length - poly.length ≤ i ∧ i < y.length - poly.length + poly.length ∧
        poly.getD (i - (y.length - poly.length)) 0 ≠ 0 ↔
          y.length - poly.length ≤ i ∧ poly.getD (i - (y.length - poly.length)) 0 ≠ 0 :=
      and_congr_right fun _ => and_iff_right (by omega)
    simp only [hiff]
    split <;> rfl

/-! ### The value of a word and a register -/

/-- The high end of the word `y` has the value of the register `C` with the bits `ps` added, the
first of them to the highest bit. What is below the register is zero but for these bits. -/
structure Holds {w : Nat} (ρ : Var → Bool) (y : List Term) (C : BitVec w) (ps : List Bool) :
    Prop where
  le : w ≤ y.length
  fits : ps.length ≤ y.length
  bits : ∀ i < y.length, bitAt ρ y i =
    ((decide (y.length - w ≤ i) && C.getLsbD (i - (y.length - w))) ^^
      ps.getD (y.length - 1 - i) false)

/-- One bit of the register after a step: the bit below it, and the feedback where the generator
has a term. -/
theorem getLsbD_crcBit {w : Nat} (g C : BitVec w) (b : Bool) {i : Nat} (hi : i < w) :
    (crcBit g C b).getLsbD i =
      ((if i = 0 then false else C.getLsbD (i - 1)) ^^ (g.getLsbD i && (C.msb ^^ b))) := by
  simp only [crcBit, BitVec.getLsbD_xor, BitVec.getLsbD_shiftLeft, hi]
  cases C.msb ^^ b <;> cases i <;> simp

/-- The generator that the list of coefficients means. The source takes every number other than
zero for a coefficient of one. -/
theorem getLsbD_generator (poly : List Nat) (i : Nat) :
    (generator poly).getLsbD i = decide (poly.getD i 0 ≠ 0) := by
  rw [generator, getLsbD_word (by simp)]
  simp only [List.getD_eq_getElem?_getD, List.getElem?_map]
  cases poly[i]? <;> simp

/-- The bit that goes out. -/
theorem Holds.top {y : List Term} {w : Nat} {C : BitVec w} {ps : List Bool} (h : Holds ρ y C ps)
    (hpos : 0 < y.length) : bitAt ρ y (y.length - 1) = (C.msb ^^ ps.headD false) := by
  have hle := h.le
  rw [h.bits _ (by omega), Nat.sub_self, BitVec.msb_eq_getLsbD_last]
  have hhead : ps.getD 0 false = ps.headD false := by cases ps <;> rfl
  rw [hhead]
  rcases Nat.eq_zero_or_pos w with rfl | hw
  · simp
  · simp [show y.length - w ≤ y.length - 1 by omega,
      show y.length - 1 - (y.length - w) = w - 1 by omega]

/-- The bits below. -/
theorem Holds.shifted {y : List Term} {w : Nat} {C : BitVec w} {ps : List Bool}
    (h : Holds ρ y C ps) {i : Nat} (hi : i < y.length) : bitAt ρ (∅ :: y) i =
      ((decide (y.length - w < i) && C.getLsbD (i - (y.length - w) - 1)) ^^
        ps.tail.getD (y.length - 1 - i) false) := by
  have hfits := h.fits
  have hle := h.le
  cases i with
  | zero =>
    simp [bitAt, List.getElem?_eq_none (show ps.length ≤ y.length - 1 + 1 by omega)]
  | succ i =>
    have hprev : bitAt ρ (∅ :: y) (i + 1) = bitAt ρ y i := rfl
    rw [hprev, h.bits i (by omega), List.getD_eq_getElem?_getD, List.getD_eq_getElem?_getD,
      List.getElem?_tail, show y.length - 1 - (i + 1) + 1 = y.length - 1 - i by omega,
      show i + 1 - (y.length - w) - 1 = i - (y.length - w) by omega]
    simp only [Nat.lt_succ_iff]

/-- An update brings one bit into the register: the incoming one, with the pending one for the
highest bit. -/
theorem Holds.updsymcrc {y : List Term} {poly : List Nat} {C : BitVec poly.length}
    {ps : List Bool} (h : Holds ρ y C ps) (hy : y ≠ []) (bit : Term) :
    ∃ y', updsymcrc y bit poly = some y' ∧ y'.length = y.length ∧
      Holds ρ y' (crcBit (generator poly) C (value ρ bit ^^ ps.headD false)) ps.tail ∧
      ∀ i < y.length - poly.length, y'.getD i ∅ = (∅ :: y).getD i ∅ := by
  obtain ⟨y', hupd, hlen, hget⟩ := getD_updsymcrc bit hy h.le
  have hpos : 0 < y.length := List.length_pos_iff.mpr hy
  have hle := h.le
  have hfits := h.fits
  refine ⟨y', hupd, hlen, ⟨by omega, by simp; omega, fun i hi => ?_⟩, fun i hi => ?_⟩
  · rw [hlen] at hi ⊢
    have hprev := h.shifted hi
    have htop := h.top hpos
    simp only [bitAt] at hprev htop
    -- The high end is the register; below it there are only pending bits, which move up.
    by_cases hin : y.length - poly.length ≤ i
    · rw [getLsbD_crcBit _ _ _ (show i - (y.length - poly.length) < poly.length by omega),
        getLsbD_generator]
      have hlow : (if i - (y.length - poly.length) = 0 then false
          else C.getLsbD (i - (y.length - poly.length) - 1)) =
            (decide (y.length - poly.length < i) &&
              C.getLsbD (i - (y.length - poly.length) - 1)) := by
        by_cases h0 : y.length - poly.length < i
        · simp [h0, show i - (y.length - poly.length) ≠ 0 by omega]
        · simp [h0, show i - (y.length - poly.length) = 0 by omega]
      rw [hlow, bitAt, hget i hi]
      by_cases hgen : poly.getD (i - (y.length - poly.length)) 0 ≠ 0
      · rw [if_pos ⟨hin, hgen⟩, value_xorsym, value_xorsym, hprev, htop, decide_eq_true hgen,
          decide_eq_true hin, Bool.true_and, Bool.true_and]
        -- The same five bits, added in two orders.
        have hac : ∀ a b c d e : Bool,
            ((a ^^ b) ^^ (c ^^ (d ^^ e))) = ((a ^^ (d ^^ (c ^^ e))) ^^ b) := by decide
        exact hac _ _ _ _ _
      · rw [if_neg (fun h => hgen h.2), hprev, decide_eq_false hgen, decide_eq_true hin,
          Bool.true_and, Bool.false_and, Bool.xor_false]
    · rw [bitAt, hget i hi, if_neg (by omega), hprev]
      simp [hin, show ¬ y.length - poly.length < i by omega]
  · rw [hget i (by omega), if_neg (by omega)]

/-! ### Several updates -/

/-- A loop over a range with one more turn. -/
theorem foldlM_range_succ {α : Type} (f : α → Nat → Option α) (a : α) (n : Nat) :
    (List.range (n + 1)).foldlM f a = ((List.range n).foldlM f a).bind (f · n) := by
  rw [List.range_succ, List.foldlM_append]
  simp

/-- The pending bits go into the register one after the other, and zeros come in below. -/
theorem Holds.updZeros {y : List Term} {poly : List Nat} {C : BitVec poly.length}
    {ps : List Bool} (h : Holds ρ y C ps) (n : Nat) (hn : n ≤ ps.length) :
    ∃ y', updZeros poly n y = some y' ∧ y'.length = y.length ∧
      Holds ρ y' (crcBits (generator poly) C (ps.take n)) (ps.drop n) ∧
      ∀ i < y.length - poly.length, i < n → y'.getD i ∅ = ∅ := by
  induction n with
  | zero => exact ⟨y, rfl, rfl, by simpa using h, by omega⟩
  | succ n ih =>
    obtain ⟨y', hrun, hlen, hholds, hlow⟩ := ih (by omega)
    have hfits := h.fits
    have hne : y' ≠ [] := List.length_pos_iff.mp (by omega)
    obtain ⟨y'', hupd, hlen', hholds', hlow'⟩ := hholds.updsymcrc hne ∅
    refine ⟨y'', ?_, by omega, ?_, fun i hi hin => ?_⟩
    · rw [CrcFormula.updZeros, foldlM_range_succ]
      rw [CrcFormula.updZeros] at hrun
      rw [hrun]
      exact hupd
    -- One more update takes one more pending bit.
    · have htake : ps.take (n + 1) = ps.take n ++ [(ps.drop n).headD false] := by
        rw [List.take_add_one, List.headD_eq_head?_getD, List.head?_drop,
          List.getElem?_eq_getElem (show n < ps.length by omega)]
        rfl
      rw [htake, crcBits_append]
      simpa using hholds'
    · rw [hlow' i (by omega)]
      cases i with
      | zero => rfl
      | succ i => exact hlow i (by omega) (by omega)

/-- Empty low terms may go. -/
theorem Holds.truncate {y : List Term} {w : Nat} {C : BitVec w} {ps : List Bool}
    (h : Holds ρ y C ps) {n : Nat} (hw : w ≤ n) (hps : ps.length ≤ n)
    (hlow : ∀ i < y.length - n, y.getD i ∅ = ∅) : ∃ y', truncate y n = some y' ∧
      y'.length = min y.length n ∧ Holds ρ y' C ps := by
  have hle := h.le
  have hfits := h.fits
  -- the assertion of the script: what is cut off holds no variable
  have hempty : ((y.take (y.length - n)).map Finset.card).sum = 0 := by
    refine List.sum_eq_zero fun m hm => ?_
    obtain ⟨z, hz, rfl⟩ := List.mem_map.mp hm
    obtain ⟨i, hi, rfl⟩ := List.mem_iff_getElem.mp hz
    have hi' : i < y.length - n ∧ i < y.length := by
      rw [List.length_take] at hi
      omega
    have hnone := hlow i hi'.1
    rw [List.getD_eq_getElem?_getD, List.getElem?_eq_getElem hi'.2] at hnone
    rw [List.getElem_take]
    exact Finset.card_eq_zero.mpr hnone
  refine ⟨y.drop (y.length - n), by rw [CrcFormula.truncate, if_pos hempty],
    by rw [List.length_drop]; omega, ⟨by rw [List.length_drop]; omega,
    by rw [List.length_drop]; omega, fun i hi => ?_⟩⟩
  rw [List.length_drop] at hi ⊢
  have hget : bitAt ρ (y.drop (y.length - n)) i = bitAt ρ y (y.length - n + i) := by
    simp only [bitAt, List.getD_eq_getElem?_getD, List.getElem?_drop]
  rw [hget, h.bits _ (by omega),
    show y.length - n + i - (y.length - w) = i - (y.length - (y.length - n) - w) by omega,
    show y.length - 1 - (y.length - n + i) = y.length - (y.length - n) - 1 - i by omega,
    show decide (y.length - w ≤ y.length - n + i) =
      decide (y.length - (y.length - n) - w ≤ i) from decide_eq_decide.mpr (by omega)]

/-! ### The words at the start -/

section
variable (ρ)

/-- The values of the variables of a prefix, the lowest bit first. -/
def bitsOf (letter : Char) (n : Nat) : List Bool := (List.range n).map fun i => ρ (letter, i)

end

/-- The values of the signals of one letter. -/
theorem getD_bitsOf (letter : Char) (n i : Nat) :
    (bitsOf ρ letter n).getD i false = (decide (i < n) && ρ (letter, i)) := by
  by_cases hi : i < n
  · simp [bitsOf, List.getD_eq_getElem?_getD, hi]
  · simp [bitsOf, List.getD_eq_getElem?_getD, hi]

/-- A word of signals, each standing for itself. -/
theorem bitAt_symword (letter : Char) (n i : Nat) :
    bitAt ρ (symword letter n) i = (decide (i < n) && ρ (letter, i)) := by
  by_cases hi : i < n
  · simp [bitAt, symword, List.getD_eq_getElem?_getD, hi]
  · simp [bitAt, symword, List.getD_eq_getElem?_getD, hi]

/-- It holds the value of these signals, and no ones have to be added anywhere. -/
theorem holds_symword (letter : Char) (w : Nat) :
    Holds ρ (symword letter w) (word w (bitsOf ρ letter w)) [] := by
  have hlen : (symword letter w).length = w := by simp [symword]
  refine ⟨by omega, by simp, fun i hi => ?_⟩
  rw [hlen] at hi ⊢
  rw [bitAt_symword, getLsbD_word (by simp [bitsOf]), getD_bitsOf]
  simp

/-- What a word of the length of the register holds when nothing is pending. -/
theorem Holds.word_eq {y : List Term} {w : Nat} {C : BitVec w} (h : Holds ρ y C [])
    (hlen : y.length = w) : word w (y.map (value ρ)) = C := by
  refine BitVec.eq_of_getLsbD_eq fun i hi => ?_
  have hbit := h.bits i (by omega)
  rw [hlen] at hbit
  rw [getLsbD_word (by simp [hlen])]
  simp only [List.getD_eq_getElem?_getD, List.getElem?_map,
    List.getElem?_eq_getElem (show i < y.length by omega)]
  simpa [bitAt, List.getD_eq_getElem?_getD, show i < y.length by omega] using hbit

/-- The incoming bits, the highest first. -/
theorem bitAt_reverse (n i : Nat) :
    bitAt ρ (symword 'b' n).reverse i = (decide (i < n) && ρ ('b', n - 1 - i)) := by
  have hlen : (symword 'b' n).length = n := by simp [symword]
  by_cases hi : i < n
  · have hrev : (symword 'b' n).reverse[i]? = (symword 'b' n)[n - 1 - i]? := by
      rw [List.getElem?_reverse (by omega), hlen]
    have hbit := bitAt_symword (ρ := ρ) 'b' n (n - 1 - i)
    rw [bitAt, List.getD_eq_getElem?_getD] at hbit ⊢
    rw [hrev, hbit]
    simp [hi, show n - 1 - i < n by omega]
  · simp [bitAt, List.getD_eq_getElem?_getD, hi, symword]

/-- The shorter one of the two words decides. -/
theorem length_xorAligned (c b : List Term) : (xorAligned c b).length = min c.length b.length := by
  simp [xorAligned]

/-- The bits of the data meet the top bits of the register, the first data bit the highest one.
Both are counted from the end that they share. -/
theorem bitAt_xorAligned (w n k : Nat) (hk : k < min w n) :
    bitAt ρ (xorAligned (symword 'c' w) (symword 'b' n).reverse) k =
      (ρ ('c', w - min w n + k) ^^ ρ ('b', min w n - 1 - k)) := by
  have hc : (symword 'c' w).length = w := by simp [symword]
  have hb : (symword 'b' n).reverse.length = n := by simp [symword]
  have hget : (xorAligned (symword 'c' w) (symword 'b' n).reverse).getD k ∅ =
      xorsym ((symword 'c' w).getD (w - (min w n - k)) ∅)
        ((symword 'b' n).reverse.getD (n - (min w n - k)) ∅) := by
    simp only [xorAligned, hc, hb, List.getD_eq_getElem?_getD, List.getElem?_map,
      List.getElem?_range hk, Option.map_some, Option.getD_some]
  have h1 := bitAt_symword (ρ := ρ) 'c' w (w - (min w n - k))
  have h2 := bitAt_reverse (ρ := ρ) n (n - (min w n - k))
  simp only [bitAt] at h1 h2
  rw [bitAt, hget, value_xorsym, h1, h2]
  rw [decide_eq_true (show w - (min w n - k) < w by omega),
    decide_eq_true (show n - (min w n - k) < n by omega), Bool.true_and, Bool.true_and,
    show w - (min w n - k) = w - min w n + k by omega,
    show n - 1 - (n - (min w n - k)) = min w n - 1 - k by omega]

/-- A word that is cut and continued. -/
theorem bitAt_take_append (y z : List Term) {k : Nat} (hk : k ≤ y.length) (i : Nat) :
    bitAt ρ (y.take k ++ z) i = if i < k then bitAt ρ y i else bitAt ρ z (i - k) := by
  have hlen : (y.take k).length = k := by simp [hk]
  simp only [bitAt, List.getD_eq_getElem?_getD, List.getElem?_append, hlen]
  split
  · rw [List.getElem?_take, if_pos ‹_›]
  · rfl

/-- The old CRC value with the incoming bits added to it, when `t` stands for the sum. -/
theorem holds_prependUnused (w n : Nat)
    (ht : ∀ k < min w n, ρ ('t', k) =
      bitAt ρ (xorAligned (symword 'c' w) (symword 'b' n).reverse) k) :
    (prependUnused (symword 'c' w) (symword 'b' n).reverse
        (xorAligned (symword 'c' w) (symword 'b' n).reverse) (symword 't' (min w n))).length =
      max w n ∧
    Holds ρ (prependUnused (symword 'c' w) (symword 'b' n).reverse
        (xorAligned (symword 'c' w) (symword 'b' n).reverse) (symword 't' (min w n)))
      (word w (bitsOf ρ 'c' w)) (bitsOf ρ 'b' n) := by
  have hc : (symword 'c' w).length = w := by simp [symword]
  have hb : (symword 'b' n).reverse.length = n := by simp [symword]
  have htlen : (symword 't' (min w n)).length = min w n := by simp [symword]
  have hbits : (bitsOf ρ 'b' n).length = n := by simp [bitsOf]
  obtain ⟨y, hy⟩ : ∃ y, y = prependUnused (symword 'c' w) (symword 'b' n).reverse
    (xorAligned (symword 'c' w) (symword 'b' n).reverse) (symword 't' (min w n)) := ⟨_, rfl⟩
  rw [← hy]
  -- The word in its two parts: what was not used, and `t`.
  have hparts : y.length = max w n ∧ ∀ i < max w n, bitAt ρ y i =
      if i < max w n - min w n then
        if n < w then ρ ('c', i) else ρ ('b', n - 1 - i)
      else ρ ('t', i - (max w n - min w n)) := by
    simp only [prependUnused, length_xorAligned, hc, hb] at hy
    rcases Nat.lt_trichotomy n w with hlt | rfl | hlt
    · rw [if_neg (show ¬ min w n < n by omega), if_pos (show min w n < w by omega)] at hy
      refine ⟨by rw [hy, List.length_append, List.length_take, hc, htlen]; omega, fun i hi => ?_⟩
      rw [hy, bitAt_take_append _ _ (by omega), bitAt_symword, bitAt_symword,
        show max w n - min w n = w - min w n by omega, if_pos hlt]
      split
      · simp [show i < w by omega]
      · rw [decide_eq_true (show i - (w - min w n) < min w n by omega), Bool.true_and]
    · rw [if_neg (show ¬ min n n < n by omega), if_neg (show ¬ min n n < n by omega)] at hy
      refine ⟨by rw [hy, htlen]; omega, fun i hi => ?_⟩
      rw [hy, bitAt_symword, if_neg (by omega), decide_eq_true (show i < min n n by omega),
        Bool.true_and, show i - (max n n - min n n) = i by omega]
    · rw [if_pos (show min w n < n by omega), if_neg (show ¬ min w n < w by omega)] at hy
      refine ⟨by rw [hy, List.length_append, List.length_take, hb, htlen]; omega, fun i hi => ?_⟩
      rw [hy, bitAt_take_append _ _ (by omega), bitAt_reverse, bitAt_symword,
        show max w n - min w n = n - min w n by omega, if_neg (show ¬ n < w by omega)]
      split
      · simp [show i < n by omega]
      · rw [decide_eq_true (show i - (n - min w n) < min w n by omega), Bool.true_and]
  obtain ⟨hlen, hget⟩ := hparts
  refine ⟨hlen, by omega, by omega, fun i hi => ?_⟩
  rw [hlen] at hi ⊢
  -- Bit by bit: below the sum stand the old bits of the longer word, above them the sum itself.
  rw [hget i hi, getLsbD_word (by simp [bitsOf]), getD_bitsOf, getD_bitsOf]
  -- The bits that were not used come first.
  by_cases hin : i < max w n - min w n
  · rw [if_pos hin]
    by_cases hlt : n < w
    · simp [hlt, show max w n - w = 0 by omega, show i < w by omega,
        show ¬ max w n - 1 - i < n by omega]
    · simp [hlt, show ¬ max w n - w ≤ i by omega, show max w n - 1 - i = n - 1 - i by omega,
        show n - 1 - i < n by omega]
  · rw [if_neg hin, ht _ (by omega), bitAt_xorAligned w n _ (by omega)]
    simp [show max w n - w ≤ i by omega, show i - (max w n - w) < w by omega,
      show max w n - 1 - i < n by omega,
      show w - min w n + (i - (max w n - min w n)) = i - (max w n - w) by omega,
      show min w n - 1 - (i - (max w n - min w n)) = max w n - 1 - i by omega]

/-! ### The three formulae -/

/-- The updates of `crcformula`, which take the incoming bits one by one. -/
theorem holds_crcformula {poly : List Nat} (hpoly : poly ≠ []) (n : Nat) :
    ∃ y, crcformula poly n = some y ∧ y.length = poly.length ∧ ∀ ρ, Holds ρ y
      (crcBits (generator poly) (word poly.length (bitsOf ρ 'c' poly.length)) (bitsOf ρ 'i' n))
        [] := by
  have hpos : 0 < poly.length := List.length_pos_iff.mpr hpoly
  induction n with
  | zero => exact ⟨_, rfl, by simp [symword], fun ρ => by simpa [bitsOf] using holds_symword 'c' _⟩
  | succ n ih =>
    obtain ⟨y, hrun, hlen, hholds⟩ := ih
    have hne : y ≠ [] := List.length_pos_iff.mp (by omega)
    obtain ⟨y', hupd, hlen', -⟩ := (hholds fun _ => false).updsymcrc hne {('i', n)}
    refine ⟨y', ?_, by omega, fun ρ => ?_⟩
    · rw [crcformula, foldlM_range_succ]
      rw [crcformula] at hrun
      rw [hrun]
      exact hupd
    · obtain ⟨y'', hupd', -, hholds', -⟩ := (hholds ρ).updsymcrc hne {('i', n)}
      obtain rfl : y' = y'' := Option.some_injective _ (hupd.symm.trans hupd')
      have hbits : bitsOf ρ 'i' (n + 1) = bitsOf ρ 'i' n ++ [ρ ('i', n)] := by
        simp [bitsOf, List.range_succ]
      rw [hbits, crcBits_append]
      simpa using hholds'

/-- **The plain formula.** For every polynomial and any number of incoming bits, the formula gives
the register after these bits. -/
theorem crcformula_correct {poly : List Nat} (hpoly : poly ≠ []) (n : Nat) :
    ∃ y, crcformula poly n = some y ∧ ∀ ρ : Var → Bool,
      word poly.length (y.map (value ρ)) =
        crcBits (generator poly) (word poly.length (bitsOf ρ 'c' poly.length))
          (bitsOf ρ 'i' n) := by
  obtain ⟨y, hrun, hlen, hholds⟩ := holds_crcformula hpoly n
  exact ⟨y, hrun, fun ρ => (hholds ρ).word_eq hlen⟩

/-- Eight bits into the checksum of a token. -/
theorem crcformula_correct_poly5 : ∃ y, crcformula poly5 8 = some y ∧ ∀ ρ : Var → Bool,
    word 5 (y.map (value ρ)) =
      crcBits (generator poly5) (word 5 (bitsOf ρ 'c' 5)) (bitsOf ρ 'i' 8) :=
  @crcformula_correct poly5 (by simp [poly5]) 8

/-- The assignment in which the variables of `letter` are the bits of `t`. -/
def assign (ρ : Var → Bool) (letter : Char) (t : List Term) : Var → Bool := fun v =>
  if v.1 = letter then bitAt ρ t v.2 else ρ v

/-- An assignment to the signals of one letter does not touch those of another. -/
theorem bitsOf_assign (ρ : Var → Bool) {letter letter' : Char} (h : letter ≠ letter')
    (t : List Term) (n : Nat) : bitsOf (assign ρ letter' t) letter n = bitsOf ρ letter n := by
  simp [bitsOf, assign, h]

/-- What is computed does not depend on the assignment. -/
theorem exists_uniform {α : Type} {o : Option α} {P : (Var → Bool) → α → Prop}
    (h : ∀ ρ, ∃ a, o = some a ∧ P ρ a) : ∃ a, o = some a ∧ ∀ ρ, P ρ a := by
  obtain ⟨a, ha, -⟩ := h fun _ => false
  refine ⟨a, ha, fun ρ => ?_⟩
  obtain ⟨a', ha', hP⟩ := h ρ
  rwa [Option.some_injective _ (ha.symm.trans ha')]

/-- The sum of the old CRC value and the incoming bits, under the name `t`. -/
theorem holds_assign (ρ : Var → Bool) (w n : Nat) {t : List Term}
    (ht : t = xorAligned (symword 'c' w) (symword 'b' n).reverse) :
    (prependUnused (symword 'c' w) (symword 'b' n).reverse t (symword 't' t.length)).length =
      max w n ∧
    Holds (assign ρ 't' t)
      (prependUnused (symword 'c' w) (symword 'b' n).reverse t (symword 't' t.length))
      (word w (bitsOf ρ 'c' w)) (bitsOf ρ 'b' n) := by
  have hlen : t.length = min w n := by
    rw [ht, length_xorAligned]
    simp [symword]
  -- `t` itself has no variable `t`.
  have hself : ∀ k < min w n, assign ρ 't' t ('t', k) = bitAt (assign ρ 't' t) t k := by
    intro k hk
    rw [show assign ρ 't' t ('t', k) = bitAt ρ t k from if_pos rfl, ht,
      bitAt_xorAligned w n k hk, bitAt_xorAligned w n k hk]
    simp [assign]
  have hholds := holds_prependUnused (ρ := assign ρ 't' t) w n (by rwa [← ht])
  rw [← ht, ← hlen, bitsOf_assign ρ (by decide), bitsOf_assign ρ (by decide)] at hholds
  exact hholds

/-- A word down to `n` bits, if it is longer. -/
theorem Holds.truncate_if {y : List Term} {w : Nat} {C : BitVec w} {ps : List Bool}
    (h : Holds ρ y C ps) {n : Nat} (hw : w ≤ n) (hps : ps.length ≤ n)
    (hlow : ∀ i < y.length - n, y.getD i ∅ = ∅) {q : Prop} [Decidable q]
    (hq : q ↔ n < y.length) :
    ∃ y', (if q then CrcFormula.truncate y n else some y) = some y' ∧ y'.length = min y.length n ∧
      Holds ρ y' C ps := by
  by_cases hlt : n < y.length
  · rw [if_pos (hq.mpr hlt)]
    exact h.truncate hw hps hlow
  · rw [if_neg (fun hyes => hlt (hq.mp hyes))]
    exact ⟨y, rfl, by omega, h⟩

/-- What comes after a conditional step. -/
theorem ite_bind {α β : Type} {q : Prop} [Decidable q] {o : Option α} {a a' : α}
    (h : (if q then o else some a) = some a') (k : α → Option β) :
    (if q then o.bind k else k a) = k a' := by
  split at h
  · rw [if_pos ‹q›, h, Option.bind_some]
  · rw [if_neg ‹¬ q›, Option.some_injective _ h]

/-- The first formula is the sum, and the second one has the value of the register. -/
theorem decomposedformula_eq (poly : List Nat) (n : Nat) :
    ∃ y, decomposedformula poly n =
        some (xorAligned (symword 'c' poly.length) (symword 'b' n).reverse, y) ∧
      ∀ ρ : Var → Bool, word poly.length (y.map (value
          (assign ρ 't' (xorAligned (symword 'c' poly.length) (symword 'b' n).reverse)))) =
        crcBits (generator poly) (word poly.length (bitsOf ρ 'c' poly.length))
          (bitsOf ρ 'b' n) := by
  obtain ⟨t, ht⟩ : ∃ t, t = xorAligned (symword 'c' poly.length) (symword 'b' n).reverse :=
    ⟨_, rfl⟩
  -- For one assignment. That the formula does not depend on it is `exists_uniform`.
  have hrun : ∀ ρ : Var → Bool, ∃ ty, decomposedformula poly n = some ty ∧ (ty.1 = t ∧
      word poly.length (ty.2.map (value (assign ρ 't' t))) =
        crcBits (generator poly) (word poly.length (bitsOf ρ 'c' poly.length))
          (bitsOf ρ 'b' n)) := by
    intro ρ
    have hbits : (bitsOf ρ 'b' n).length = n := by simp [bitsOf]
    obtain ⟨hlen₀, hholds₀⟩ := holds_assign ρ poly.length n ht
    obtain ⟨y₁, hrun, hlen₁, hholds₁, hlow⟩ := hholds₀.updZeros n (by omega)
    rw [List.take_of_length_le (by omega), List.drop_eq_nil_of_le (by omega)] at hholds₁
    obtain ⟨y₂, htrunc, hlen₂, hholds₂⟩ := hholds₁.truncate_if (Nat.le_refl _) (by simp)
      (fun i hi => hlow i (by omega) (by omega)) Iff.rfl
    refine ⟨(t, y₂), ?_, rfl, hholds₂.word_eq (by omega)⟩
    simp only [decomposedformula, ← ht, hrun, Option.bind_eq_bind, Option.bind_some]
    exact ite_bind htrunc fun y => some (t, y)
  obtain ⟨⟨t', y⟩, hsome, hall⟩ := exists_uniform hrun
  obtain rfl : t' = t := (hall fun _ => false).1
  rw [← ht]
  exact ⟨y, hsome, fun ρ => (hall ρ).2⟩

/-- **The two-stage formula.** The assertion of the script holds, and the second formula, with the
value of the first one for `t`, gives the register after the incoming bits. -/
theorem decomposedformula_correct (poly : List Nat) (n : Nat) :
    ∃ ty, decomposedformula poly n = some ty ∧ ∀ ρ : Var → Bool,
      word poly.length (ty.2.map (value (assign ρ 't' ty.1))) =
        crcBits (generator poly) (word poly.length (bitsOf ρ 'c' poly.length))
          (bitsOf ρ 'b' n) := by
  obtain ⟨y, hsome, hall⟩ := decomposedformula_eq poly n
  exact ⟨_, hsome, hall⟩

/-- A word under a name of its own. -/
theorem Holds.rename {y : List Term} {w : Nat} {C : BitVec w} {ps : List Bool}
    (h : Holds ρ y C ps) (letter : Char) :
    Holds (assign ρ letter y) (symword letter y.length) C ps := by
  have hlen : (symword letter y.length).length = y.length := by simp [symword]
  refine ⟨by rw [hlen]; exact h.le, by rw [hlen]; exact h.fits, fun i hi => ?_⟩
  rw [hlen] at hi ⊢
  rw [← h.bits i hi, bitAt_symword, decide_eq_true hi, Bool.true_and]
  exact if_pos rfl

/-- **The three-stage formula.** As before, with a name for the register after four bits. -/
theorem twicehalfformula_correct (poly : List Nat) :
    ∃ txy, twicehalfformula poly = some txy ∧ ∀ ρ : Var → Bool,
      word poly.length (txy.2.2.map (value (assign (assign ρ 't' txy.1) 'x' txy.2.1))) =
        crcBits (generator poly) (word poly.length (bitsOf ρ 'c' poly.length))
          (bitsOf ρ 'b' 8) := by
  refine exists_uniform fun ρ => ?_
  obtain ⟨t, ht⟩ : ∃ t, t = xorAligned (symword 'c' poly.length) (symword 'b' 8).reverse :=
    ⟨_, rfl⟩
  have hbits : (bitsOf ρ 'b' 8).length = 8 := by simp [bitsOf]
  have hlast : ((bitsOf ρ 'b' 8).drop 4).length ≤ 4 := by rw [List.length_drop]; omega
  -- The first four bits.
  obtain ⟨hlen₀, hholds₀⟩ := holds_assign ρ poly.length 8 ht
  obtain ⟨x₁, hrun, hlen₁, hholds₁, hlow⟩ := hholds₀.updZeros 4 (by omega)
  obtain ⟨x₂, htrunc, hlen₂, hholds₂⟩ := hholds₁.truncate_if (Nat.le_max_left _ 4)
    (by rw [List.length_drop]; omega) (fun i hi => hlow i (by omega) (by omega))
    (show poly.length < x₁.length ∧ 4 < x₁.length ↔ max poly.length 4 < x₁.length by omega)
  -- The other four, from the register under the name `x`.
  obtain ⟨y₁, hrun', hlen₃, hholds₃, hlow'⟩ :=
    (hholds₂.rename 'x').updZeros 4 (by rw [List.length_drop]; omega)
  rw [List.take_of_length_le hlast, List.drop_eq_nil_of_le hlast, ← crcBits_append,
    List.take_append_drop] at hholds₃
  have hsym : (symword 'x' x₂.length).length = x₂.length := by simp [symword]
  obtain ⟨y₂, htrunc', hlen₄, hholds₄⟩ := hholds₃.truncate_if (Nat.le_refl _) (by simp)
    (fun i hi => hlow' i (by omega) (by omega)) Iff.rfl
  refine ⟨(t, x₂, y₂), ?_, hholds₄.word_eq (by omega)⟩
  simp only [twicehalfformula, ← ht, hrun, Option.bind_eq_bind, Option.bind_some]
  refine (ite_bind htrunc _).trans ?_
  simp only [hrun', Option.bind_some]
  exact ite_bind htrunc' fun y => some (t, x₂, y)

/-! ### The formulae of `usb_packet.vhdl` -/

/-- The variables of a register and of a byte. -/
def signals {w : Nat} (c : BitVec w) (b : Byte) : Var → Bool := fun v =>
  if v.1 = 'c' then c.getLsbD v.2 else b.getLsbD v.2

/-- The signals of the register have its value. -/
theorem word_bitsOf_signals {w : Nat} (c : BitVec w) (b : Byte) :
    word w (bitsOf (signals c b) 'c' w) = c := by
  refine BitVec.eq_of_getLsbD_eq fun i hi => ?_
  rw [getLsbD_word (by simp [bitsOf]), getD_bitsOf]
  simp [hi, signals]

/-- The signals of the byte have the bits of the byte, the lowest one first. -/
theorem bitsOf_signals {w : Nat} (c : BitVec w) (b : Byte) :
    bitsOf (signals c b) 'b' 8 = byteBits b := by
  simp [bitsOf, signals, byteBits]

/-- The first formula, bit by bit. -/
theorem getLsbD_word_xorAligned {w : Nat} (c : BitVec w) (b : Byte) {k : Nat} (hk : k < min w 8) :
    (word (min w 8) ((xorAligned (symword 'c' w) (symword 'b' 8).reverse).map
      (value (signals c b)))).getLsbD k =
        (c.getLsbD (w - min w 8 + k) ^^ b.getLsbD (min w 8 - 1 - k)) := by
  have hlen : (xorAligned (symword 'c' w) (symword 'b' 8).reverse).length = min w 8 := by
    simp [length_xorAligned, symword]
  rw [getLsbD_word (by simp [hlen]), List.getD_eq_getElem?_getD, List.getElem?_map,
    List.getElem?_eq_getElem (by omega)]
  have hbit := bitAt_xorAligned (ρ := signals c b) w 8 k hk
  rw [bitAt, List.getD_eq_getElem?_getD, List.getElem?_eq_getElem (by omega)] at hbit
  simpa [signals] using hbit

/-- The second formula, for a byte. -/
theorem exists_formula {poly : List Nat} {w : Nat} (hw : poly.length = w) {g : BitVec w}
    (hg : word w (poly.map fun n => decide (n ≠ 0)) = g) :
    ∃ y, decomposedformula poly 8 =
        some (xorAligned (symword 'c' w) (symword 'b' 8).reverse, y) ∧
      ∀ (c : BitVec w) (b : Byte), word w (y.map (value (assign (signals c b) 't'
        (xorAligned (symword 'c' w) (symword 'b' 8).reverse)))) = crcBits g c (byteBits b) := by
  subst hw hg
  obtain ⟨y, hsome, hall⟩ := decomposedformula_eq poly 8
  refine ⟨y, hsome, fun c b => ?_⟩
  rw [hall, word_bitsOf_signals, bitsOf_signals]
  rfl

/-- **The formulae of `crc5_upd` and `crc16_upd`.** The script writes two formulae for each of the
two polynomials. The first one has the value of the variable `t` of the function, and the second
one, with this value for `t`, that of the variable `y`. -/
theorem crcUpd_generated :
    (∃ ty, decomposedformula poly5 8 = some ty ∧ ∀ (c : BitVec 5) (b : Byte),
      word 5 (ty.1.map (value (signals c b))) = crc5UpdT c b ∧
      word 5 (ty.2.map (value (assign (signals c b) 't' ty.1))) = crc5UpdY b (crc5UpdT c b)) ∧
    ∃ ty, decomposedformula poly16 8 = some ty ∧ ∀ (c : BitVec 16) (b : Byte),
      word 8 (ty.1.map (value (signals c b))) = crc16UpdT c b ∧
      word 16 (ty.2.map (value (assign (signals c b) 't' ty.1))) =
        crc16UpdY c (crc16UpdT c b) := by
  constructor
  · obtain ⟨y, hsome, hall⟩ := @exists_formula poly5 5 rfl tokenGen (by decide)
    refine ⟨_, hsome, fun c b => ⟨?_, (hall c b).trans (crc5Upd_eq c b).symm⟩⟩
    refine BitVec.eq_of_getLsbD_eq fun k hk => (getLsbD_word_xorAligned c b hk).trans ?_
    rw [BitVec.getLsbD_eq_getElem hk, crc5UpdT, getElem_ofMsbs]
    interval_cases k <;> simp [Bool.xor_comm]
  · obtain ⟨y, hsome, hall⟩ := @exists_formula poly16 16 rfl dataGen (by decide)
    refine ⟨_, hsome, fun c b => ⟨?_, (hall c b).trans (crc16Upd_eq c b).symm⟩⟩
    refine BitVec.eq_of_getLsbD_eq fun k hk => (getLsbD_word_xorAligned c b hk).trans ?_
    rw [BitVec.getLsbD_eq_getElem hk, crc16UpdT, getElem_ofMsbs]
    interval_cases k <;> simp [Bool.xor_comm]

end VivadoTest.InputTest.CrcFormula
