import Mathlib.Data.List.Basic
import Mathlib.Algebra.Order.Ring.Nat
import Mathlib.Logic.Function.Iterate

/-!
# `VivadoTest.Lib.Crc`: cyclic redundancy checks

The register of a cyclic redundancy check of width `w`, one bit at a time: the register moves up
by one place, and where the bit that leaves it differs from the incoming bit the generator `g` is
added (`crcBit`). `crcBits` reads a whole message.

* `crcBits_eq_iterate`: at most `w` bits are read as if they were added to the top of the
  register before it moves (`ofMsbs`). Everything below rests on this equation.
* `crcBits_eq_residue_iff`: after a message, exactly the complement of the register itself takes
  the register to the `residue`. A receiver that checks for the residue checks the checksum.
* `eq_of_burst`: two messages that differ inside one window of at most `w` bits do not leave the
  same register.
* `parity_crcBits`: a generator of odd weight keeps the parity of what it has read.
* `crcBits_pair_ne`: nor do two messages that differ in two bits, less than the period of the
  generator apart.

The low bit of the generator has to be set for most of this. It makes `crcBit` injective.

## The register

`crcBit` is linear in the register and in the incoming bit together, so the register after a
message is a sum of one term for the start and one for each bit. Nothing is said of polynomials: a
generator is the word of its coefficients without the highest one, and what matters of it is its
low bit, its parity, and how long the register that it drives takes to come back (`ReturnsAfter`).
-/

set_option autoImplicit false

namespace VivadoTest.Lib.Crc

variable {w : Nat}

/-- One bit into the register. -/
def crcBit (g c : BitVec w) (b : Bool) : BitVec w :=
  (c <<< 1) ^^^ (if c.msb ^^ b then g else 0#w)

/-- A message into the register, first bit first. -/
def crcBits (g c : BitVec w) (bs : List Bool) : BitVec w := bs.foldl (crcBit g) c

/-- A register that no bit has gone through. -/
@[simp] theorem crcBits_nil (g c : BitVec w) : crcBits g c [] = c := rfl

/-- The bits go through the register from the first one on. -/
@[simp] theorem crcBits_cons (g c : BitVec w) (b : Bool) (bs : List Bool) :
    crcBits g c (b :: bs) = crcBits g (crcBit g c b) bs := rfl

/-- Two messages one after the other: the second starts with the register that the first leaves.
-/
theorem crcBits_append (g c : BitVec w) (bs bs' : List Bool) :
    crcBits g c (bs ++ bs') = crcBits g (crcBits g c bs) bs' := List.foldl_append

/-! ### Additivity -/

/-- One step is additive in the register and in the bit together: the feedback is a linear
condition on the two. -/
theorem crcBit_xor (g c d : BitVec w) (a b : Bool) :
    crcBit g (c ^^^ d) (a ^^ b) = crcBit g c a ^^^ crcBit g d b := by
  have hfeed : ((c ^^^ d).msb ^^ (a ^^ b)) = ((c.msb ^^ a) ^^ (d.msb ^^ b)) := by
    rw [BitVec.msb_xor]
    cases c.msb <;> cases d.msb <;> cases a <;> cases b <;> rfl
  simp only [crcBit, hfeed, BitVec.shiftLeft_xor_distrib]
  cases c.msb ^^ a <;> cases d.msb ^^ b
  · simp
  · simp [BitVec.xor_assoc]
  · simp [BitVec.xor_assoc, BitVec.xor_comm g]
  · -- Both registers add the generator, their sum does not.
    calc c <<< 1 ^^^ d <<< 1 ^^^ 0#w
        = c <<< 1 ^^^ d <<< 1 ^^^ (g ^^^ g) := by rw [BitVec.xor_self]
      _ = (c <<< 1 ^^^ g) ^^^ (d <<< 1 ^^^ g) := by ac_rfl

/-- So a whole message is. The difference of two registers is the register of the difference of
the two messages. -/
theorem crcBits_xor (g c d : BitVec w) (as bs : List Bool) (h : as.length = bs.length) :
    crcBits g (c ^^^ d) (List.zipWith xor as bs) = crcBits g c as ^^^ crcBits g d bs := by
  induction as generalizing bs c d with
  | nil =>
    cases bs with
    | nil => simp
    | cons b bs => simp at h
  | cons a as ih =>
    cases bs with
    | nil => simp at h
    | cons b bs =>
      simp only [List.length_cons, Nat.add_right_cancel_iff] at h
      rw [List.zipWith_cons_cons, crcBits_cons, crcBit_xor, ih _ _ _ h]
      simp

/-- Zeros do not change a register of zeros. -/
theorem crcBits_zero (g : BitVec w) (n : Nat) : crcBits g 0#w (List.replicate n false) = 0#w := by
  induction n with
  | zero => simp
  | succ n ih => simpa [List.replicate_succ, crcBit] using ih

/-! ### Injectivity -/

/-- The low bit of the result tells whether the generator was added. -/
theorem crcBit_injective {g : BitVec w} (hg : g.getLsbD 0 = true) (b : Bool) :
    Function.Injective (crcBit g · b) := by
  intro c d h
  have hw : 0 < w := BitVec.lt_of_getLsbD hg
  have hlow := congrArg (fun x => x.getLsbD 0) h
  have hmsb : c.msb = d.msb := by
    simp only [crcBit, BitVec.getLsbD_xor, BitVec.getLsbD_shiftLeft] at hlow
    cases hc : c.msb <;> cases hd : d.msb <;> cases b <;> simp_all
  have hshift : c <<< 1 = d <<< 1 := by
    simp only [crcBit, hmsb] at h
    exact (BitVec.xor_left_inj _).mp h
  ext i hi
  by_cases hlast : i = w - 1
  · -- The top bit is the one that the shift loses.
    subst hlast
    simpa only [BitVec.msb_eq_getLsbD_last, BitVec.getLsbD_eq_getElem hi] using hmsb
  · have hi' : i + 1 < w := by omega
    have := congrArg (fun x => x[i + 1]) hshift
    simpa using this

/-- A generator with a constant term loses nothing: two registers that differ before a message
differ after it. -/
theorem crcBits_injective {g : BitVec w} (hg : g.getLsbD 0 = true) (bs : List Bool) :
    Function.Injective (crcBits g · bs) := by
  intro c d h
  induction bs generalizing c d with
  | nil => simpa using h
  | cons b bs ih => exact crcBit_injective hg b (ih h)

/-! ### The message at the top of the register -/

/-- The bits at the top of a word, the first one highest. -/
def ofMsbs : List Bool → BitVec w
  | [] => 0#w
  | b :: bs => (if b then BitVec.twoPow w (w - 1) else 0#w) ^^^ (ofMsbs bs >>> 1)

/-- The bits of a word that is listed from its highest bit on. -/
theorem getElem_ofMsbs (bs : List Bool) {i : Nat} (hi : i < w) :
    (ofMsbs bs : BitVec w)[i] = bs[w - 1 - i]?.getD false := by
  induction bs generalizing i with
  | nil => simp [ofMsbs]
  | cons b bs ih =>
    have htop : (if b then BitVec.twoPow w (w - 1) else 0#w)[i] = (decide (i = w - 1) && b) := by
      cases b <;> simp [BitVec.getElem_twoPow]
    by_cases hlast : i = w - 1
    · subst hlast
      simp [ofMsbs, htop, BitVec.getLsbD_of_ge _ (1 + (w - 1)) (show w ≤ 1 + (w - 1) by omega)]
    · have hi' : 1 + i < w := by omega
      obtain ⟨k, hk⟩ : ∃ k, w - 1 - i = k + 1 := ⟨w - 1 - i - 1, by omega⟩
      simp [ofMsbs, htop, hlast, hk, BitVec.getLsbD_eq_getElem hi', ih hi',
        show w - 1 - (1 + i) = k by omega]

/-- Two lists of one length that fit into the word are the same when they make the same word. -/
theorem ofMsbs_injective {bs bs' : List Bool} (hlen : bs.length = bs'.length) (hw : bs.length ≤ w)
    (h : (ofMsbs bs : BitVec w) = ofMsbs bs') : bs = bs' := by
  refine List.ext_getElem hlen fun i hi hi' => ?_
  have hiw : w - 1 - i < w := by omega
  have := congrArg (fun x => x[w - 1 - i]) h
  simpa [getElem_ofMsbs, show w - 1 - (w - 1 - i) = i by omega, hi, hi'] using this

/-- A word listed with ones is the word of ones, the start value of every register here. -/
theorem ofMsbs_replicate_true : (ofMsbs (List.replicate w true) : BitVec w) = BitVec.allOnes w := by
  ext i hi
  simp [getElem_ofMsbs, show w - 1 - i < w by omega]

/-- A bit is read as if it had been added to the top of the register. -/
theorem crcBit_eq (hw : 0 < w) (g c : BitVec w) (b : Bool) :
    crcBit g c b = crcBit g (c ^^^ ofMsbs [b]) false := by
  have hlt : w - 1 < w := by omega
  have hmsb : (ofMsbs [b] : BitVec w).msb = b := by
    simp [BitVec.msb_eq_getLsbD_last, BitVec.getLsbD_eq_getElem hlt, getElem_ofMsbs]
  have hshift : (ofMsbs [b] : BitVec w) <<< 1 = 0#w := by
    ext i hi
    by_cases h0 : i < 1
    · simp [h0]
    · simp [getElem_ofMsbs, h0, show ¬ w - 1 - (i - 1) = 0 by omega]
  simp [crcBit, hmsb, BitVec.shiftLeft_xor_distrib, hshift]

/-- What stays clear of the bottom of the register only moves. -/
theorem crcBit_ushiftRight (g c d : BitVec w) (h : d.getLsbD 0 = false) :
    crcBit g (c ^^^ (d >>> 1)) false = crcBit g c false ^^^ d := by
  have hmsb : (d >>> 1).msb = false := by
    simp [BitVec.msb_eq_getLsbD_last, BitVec.getLsbD_ushiftRight, show 1 + (w - 1) ≥ w by omega]
  have hback : (d >>> 1) <<< 1 = d := by
    apply BitVec.eq_of_getLsbD_eq
    intro i hi
    by_cases h0 : i = 0
    · simp [h0, h]
    · simp [hi, h0, show 1 + (i - 1) = i by omega]
  simp only [crcBit, BitVec.msb_xor, hmsb, BitVec.shiftLeft_xor_distrib, hback]
  simp only [Bool.xor_false, BitVec.xor_assoc, BitVec.xor_comm d]

/-- Up to `w` bits are read as if they were all added to the top of the register first. -/
theorem crcBits_eq_iterate (g c : BitVec w) (bs : List Bool) (h : bs.length ≤ w) :
    crcBits g c bs = (crcBit g · false)^[bs.length] (c ^^^ ofMsbs bs) := by
  induction bs generalizing c with
  | nil => simp [ofMsbs]
  | cons b bs ih =>
    simp only [List.length_cons] at h
    have hlow : (ofMsbs bs : BitVec w).getLsbD 0 = false := by
      rw [BitVec.getLsbD_eq_getElem (by omega), getElem_ofMsbs,
        List.getElem?_eq_none (by omega), Option.getD_none]
    have hsplit : (ofMsbs (b :: bs) : BitVec w) = ofMsbs [b] ^^^ (ofMsbs bs >>> 1) := by
      simp [ofMsbs]
    calc crcBits g c (b :: bs)
        = (crcBit g · false)^[bs.length] (crcBit g c b ^^^ ofMsbs bs) := ih _ (by omega)
      _ = (crcBit g · false)^[bs.length] (crcBit g (c ^^^ ofMsbs (b :: bs)) false) := by
          rw [crcBit_eq (by omega) g c b, ← crcBit_ushiftRight g _ _ hlow, hsplit,
            BitVec.xor_assoc]
      _ = _ := (Function.iterate_succ_apply _ _ _).symm

/-- Two messages that are no longer than the register lead to one value exactly when the registers
differ before them as they do. This is why a receiver that has read a checksum ends in the
residue. -/
theorem crcBits_eq_iff {g : BitVec w} (hg : g.getLsbD 0 = true) (c d : BitVec w)
    {bs bs' : List Bool} (hlen : bs.length = bs'.length) (hw : bs.length ≤ w) :
    crcBits g c bs = crcBits g d bs' ↔ c ^^^ ofMsbs bs = d ^^^ ofMsbs bs' := by
  rw [crcBits_eq_iterate g c bs hw, crcBits_eq_iterate g d bs' (hlen ▸ hw), hlen]
  exact ((crcBit_injective hg false).iterate _).eq_iff

/-! ### The residue -/

/-- The bits of a word, the highest first. -/
def msbs (c : BitVec w) : List Bool := (List.range w).map c.getMsbD

/-- A word has as many bits as its width says. -/
@[simp] theorem length_msbs (c : BitVec w) : (msbs c).length = w := by simp [msbs]

/-- A word is the word of its bits. -/
theorem ofMsbs_msbs (c : BitVec w) : ofMsbs (msbs c) = c := by
  ext i hi
  simp [getElem_ofMsbs, msbs, BitVec.getMsbD_eq_getElem, show w - 1 - i < w by omega,
    show w - 1 - (w - 1 - i) = i by omega]

/-- The register after a message and its checksum: what a zero register makes of ones alone. -/
def residue (g : BitVec w) : BitVec w := crcBits g 0#w (List.replicate w true)

/-- The checksum of a message is the complement of the register. Its bits, and no other `w` bits,
take the register to the residue. -/
theorem crcBits_eq_residue_iff {g : BitVec w} (hg : g.getLsbD 0 = true) (c : BitVec w)
    {bs : List Bool} (hlen : bs.length = w) :
    crcBits g c bs = residue g ↔ bs = msbs (~~~c) := by
  have hcompl : ∀ d : BitVec w, c ^^^ d = BitVec.allOnes w ↔ d = ~~~c := by
    intro d
    rw [← BitVec.xor_right_inj c, ← BitVec.xor_assoc, BitVec.xor_self, BitVec.zero_xor,
      BitVec.xor_allOnes]
  rw [residue, crcBits_eq_iff hg c 0#w (by simp [hlen]) (by omega), ofMsbs_replicate_true,
    BitVec.zero_xor, hcompl]
  constructor
  · intro h
    exact ofMsbs_injective (by simp [hlen]) (by omega) (h.trans (ofMsbs_msbs _).symm)
  · intro h
    rw [h, ofMsbs_msbs]

/-! ### What is detected -/

/-- Two messages that differ only inside one window of at most `w` bits, and that leave the same
register, are the same message. -/
theorem eq_of_burst {g : BitVec w} (hg : g.getLsbD 0 = true) (c : BitVec w)
    {pre mid mid' post : List Bool} (hlen : mid.length = mid'.length) (hw : mid.length ≤ w)
    (h : crcBits g c (pre ++ mid ++ post) = crcBits g c (pre ++ mid' ++ post)) : mid = mid' := by
  simp only [crcBits_append] at h
  have hmid := crcBits_injective hg post h
  rw [crcBits_eq_iff hg _ _ hlen hw, BitVec.xor_right_inj] at hmid
  exact ofMsbs_injective hlen hw hmid

/-- The parity of a message. -/
def parity (bs : List Bool) : Bool := bs.foldr xor false

/-- The parity of no bits. -/
@[simp] theorem parity_nil : parity [] = false := rfl

/-- The parity, bit by bit. -/
@[simp] theorem parity_cons (b : Bool) (bs : List Bool) : parity (b :: bs) = (b ^^ parity bs) := rfl

/-- The parity of two messages one after the other. -/
@[simp] theorem parity_append (bs bs' : List Bool) :
    parity (bs ++ bs') = (parity bs ^^ parity bs') := by
  induction bs with
  | nil => simp
  | cons b bs ih => simp [ih]

/-- The parity is additive. -/
theorem parity_zipWith_xor (as bs : List Bool) (h : as.length = bs.length) :
    parity (List.zipWith xor as bs) = (parity as ^^ parity bs) := by
  induction as generalizing bs with
  | nil => cases bs with
    | nil => rfl
    | cons b bs => simp at h
  | cons a as ih =>
    cases bs with
    | nil => simp at h
    | cons b bs =>
      simp only [List.length_cons, Nat.add_right_cancel_iff] at h
      simp only [List.zipWith_cons_cons, parity_cons, ih bs h]
      cases a <;> cases b <;> simp

/-- The bits of a sum are the sums of the bits. -/
theorem msbs_xor (c d : BitVec w) : msbs (c ^^^ d) = List.zipWith xor (msbs c) (msbs d) := by
  simp [msbs, List.zipWith_map, List.zipWith_self, BitVec.getMsbD_xor]

/-- A shift moves the highest bit out in front and a zero in at the end. -/
theorem msbs_shiftLeft (c : BitVec w) (hw : 0 < w) :
    c.msb :: msbs (c <<< 1) = msbs c ++ [false] := by
  obtain ⟨n, rfl⟩ : ∃ n, w = n + 1 := ⟨w - 1, by omega⟩
  have hlast : (c <<< 1).getMsbD n = false := by simp [BitVec.getMsbD_eq_getLsbD]
  have htail : ∀ i, (c <<< 1).getMsbD i = c.getMsbD (i + 1) := fun i => by
    simp [BitVec.getMsbD_shiftLeft]
  conv_lhs => rw [msbs, List.range_succ, List.map_append]
  rw [msbs, List.range_succ_eq_map]
  simp [BitVec.msb_eq_getMsbD_zero, hlast, htail, Function.comp_def]

/-- Zeros have no parity. -/
@[simp] theorem parity_replicate_false (n : Nat) : parity (List.replicate n false) = false := by
  induction n with
  | zero => rfl
  | succ n ih => simpa [List.replicate_succ] using ih

/-- The bits of zero. -/
theorem msbs_zero : msbs (0#w) = List.replicate w false := by
  simp [msbs, List.eq_replicate_iff]

/-- A generator of odd weight: the register and what has been read have the parity that the
register had at first. -/
theorem parity_crcBits {g : BitVec w} (hodd : parity (msbs g) = true) (c : BitVec w)
    (bs : List Bool) : parity (msbs (crcBits g c bs)) = (parity (msbs c) ^^ parity bs) := by
  have hw : 0 < w := by
    rcases Nat.eq_zero_or_pos w with rfl | h
    · simp [msbs] at hodd
    · exact h
  induction bs generalizing c with
  | nil => simp
  | cons b bs ih =>
    have hmove : parity (msbs (c <<< 1)) = (c.msb ^^ parity (msbs c)) := by
      have := congrArg parity (msbs_shiftLeft c hw)
      simp only [parity_cons, parity_append, parity_nil, Bool.xor_false] at this
      rw [← this, ← Bool.xor_assoc, Bool.xor_self, Bool.false_xor]
    have hfeed : parity (msbs (if c.msb ^^ b then g else 0#w)) = (c.msb ^^ b) := by
      cases c.msb ^^ b <;> simp [hodd, msbs_zero]
    rw [crcBits_cons, ih, crcBit, msbs_xor, parity_zipWith_xor _ _ (by simp), hmove, hfeed,
      parity_cons]
    cases c.msb <;> cases b <;> cases parity (msbs c) <;> cases parity bs <;> rfl

/-- The top bit alone comes back to itself only after as many steps as the generator's period. -/
def ReturnsAfter (g : BitVec w) (k : Nat) : Prop :=
  crcBits g (ofMsbs [true]) (List.replicate k false) = ofMsbs [true]

/-- A one that goes through an empty register is the same as a register with its top bit set to
which a zero is added. It turns a single-bit error into a start value. -/
theorem crcBit_zero_true (hw : 0 < w) (g : BitVec w) :
    crcBit g 0#w true = crcBit g (ofMsbs [true]) false := by
  simpa using crcBit_eq hw g 0#w true

/-- A one cancels the top bit of the register: the two feed back together. -/
theorem crcBit_top_true (hw : 0 < w) (g : BitVec w) : crcBit g (ofMsbs [true]) true = 0#w := by
  rw [crcBit_eq hw, BitVec.xor_self]
  simp [crcBit]

/-- Two messages that differ in two bits do not leave the same register, unless the top bit comes
back to itself after the distance between the two. -/
theorem crcBits_pair_ne {g : BitVec w} (hg : g.getLsbD 0 = true) (c : BitVec w) (a b : Bool)
    (pre mid post : List Bool) (h : ¬ ReturnsAfter g (mid.length + 1)) :
    crcBits g c (pre ++ a :: (mid ++ b :: post)) ≠
      crcBits g c (pre ++ (!a) :: (mid ++ (!b) :: post)) := by
  intro heq
  have hw : 0 < w := BitVec.lt_of_getLsbD hg
  have hself : ∀ l : List Bool, List.zipWith xor l l = List.replicate l.length false := by
    intro l
    simp [List.zipWith_self]
  -- The difference of the two runs is the run on the difference.
  have hdiff := crcBits_xor g c c (pre ++ a :: (mid ++ b :: post))
    (pre ++ (!a) :: (mid ++ (!b) :: post)) (by simp)
  rw [heq, BitVec.xor_self, BitVec.xor_self, List.zipWith_append rfl, List.zipWith_cons_cons,
    List.zipWith_append rfl, List.zipWith_cons_cons, hself, hself, hself, crcBits_append,
    crcBits_zero, crcBits_cons, crcBits_append, crcBits_cons] at hdiff
  simp only [Bool.bne_not_self] at hdiff
  -- From there on only the two bits are in the register.
  have hlast := crcBits_injective hg _ (hdiff.trans (crcBits_zero g post.length).symm)
  rw [crcBit_zero_true hw, ← crcBits_cons, ← List.replicate_succ] at hlast
  exact h (crcBit_injective hg true (hlast.trans (crcBit_top_true hw g).symm))

/-- The places in which two messages differ. -/
def distance (as bs : List Bool) : Nat := (List.zipWith xor as bs).count true

/-- The first difference of two messages. -/
theorem exists_first_difference (as bs : List Bool) (hlen : as.length = bs.length) (hne : as ≠ bs) :
    ∃ pre a as' bs', as = pre ++ a :: as' ∧ bs = pre ++ (!a) :: bs' ∧
      as'.length = bs'.length ∧ distance as bs = distance as' bs' + 1 := by
  induction as generalizing bs with
  | nil =>
    cases bs with
    | nil => exact absurd rfl hne
    | cons b bs => simp at hlen
  | cons a as ih =>
    cases bs with
    | nil => simp at hlen
    | cons b bs =>
      simp only [List.length_cons, Nat.add_right_cancel_iff] at hlen
      by_cases hab : a = b
      · subst hab
        obtain ⟨pre, c, as', bs', has, hbs, hlen', hdist⟩ := ih bs hlen fun h => hne (by rw [h])
        refine ⟨a :: pre, c, as', bs', by simp [has], by simp [hbs], hlen', ?_⟩
        rw [← hdist]
        simp [distance]
      · have hb : b = !a := by cases a <;> cases b <;> simp_all
        refine ⟨[], a, as, bs, rfl, by simp [hb], hlen, ?_⟩
        simp [distance, hb]

/-- The parity says whether the number of ones is odd. -/
theorem parity_eq_count (bs : List Bool) : parity bs = decide (bs.count true % 2 = 1) := by
  induction bs with
  | nil => rfl
  | cons b bs ih =>
    cases b
    · simp [ih]
    · rcases Nat.mod_two_eq_zero_or_one (bs.count true) with h | h <;>
        simp [ih, h, show (bs.count true + 1) % 2 = (bs.count true % 2 + 1) % 2 by omega]

/-- A generator that does not return within the length of the messages: two different messages
that leave the same register differ in three places at least. -/
theorem three_le_distance {g : BitVec w} (hg : g.getLsbD 0 = true) (c : BitVec w)
    {as bs : List Bool} (hlen : as.length = bs.length)
    (hperiod : ∀ k, 0 < k → k < as.length → ¬ ReturnsAfter g k)
    (heq : crcBits g c as = crcBits g c bs) (hne : as ≠ bs) : 3 ≤ distance as bs := by
  obtain ⟨pre, a, as', bs', has, hbs, hlen', hdist⟩ := exists_first_difference as bs hlen hne
  have hne' : as' ≠ bs' := by
    rintro rfl
    -- One place alone: the register differs from there on.
    have hcrc : crcBits g c (pre ++ [a] ++ as') = crcBits g c (pre ++ [!a] ++ as') := by
      rw [has, hbs] at heq
      simpa using heq
    have hone : [a] = [!a] := eq_of_burst hg c rfl (BitVec.lt_of_getLsbD hg) hcrc
    cases a <;> simp at hone
  obtain ⟨mid, b, as'', bs'', has', hbs', hlen'', hdist'⟩ :=
    exists_first_difference as' bs' hlen' hne'
  by_contra hlt
  have hsame : as'' = bs'' := by
    by_contra hne''
    obtain ⟨_, _, _, _, _, _, _, hmore⟩ := exists_first_difference as'' bs'' hlen'' hne''
    omega
  -- Exactly two places are left, and they are too close to each other.
  refine crcBits_pair_ne hg c a b pre mid as'' (hperiod (mid.length + 1) (by omega) ?_) ?_
  · rw [has, has']
    simp
    omega
  · rw [has, has', hbs, hbs', ← hsame] at heq
    exact heq

/-- A generator of odd weight does not miss an odd number of places either. -/
theorem four_le_distance {g : BitVec w} (hg : g.getLsbD 0 = true) (hodd : parity (msbs g) = true)
    (c : BitVec w) {as bs : List Bool} (hlen : as.length = bs.length)
    (hperiod : ∀ k, 0 < k → k < as.length → ¬ ReturnsAfter g k)
    (heq : crcBits g c as = crcBits g c bs) (hne : as ≠ bs) : 4 ≤ distance as bs := by
  have hthree := three_le_distance hg c hlen hperiod heq hne
  have heven : distance as bs % 2 ≠ 1 := by
    have hpar : (parity as ^^ parity bs) = false := by
      have := congrArg (fun x => parity (msbs x)) heq
      simpa [parity_crcBits hodd] using this
    rwa [← parity_zipWith_xor _ _ hlen, parity_eq_count, decide_eq_false_iff_not] at hpar
  omega

/-! ### The period, computed -/

/-- `k` steps of the top bit on numbers, none of which brings it back. -/
def neverReturns (w g : Nat) : Nat → Nat → Bool
  | 0, _ => true
  | n + 1, x =>
    let y := if 2 ^ w ≤ 2 * x then (2 * x - 2 ^ w) ^^^ g else 2 * x
    y != 2 ^ (w - 1) && neverReturns w g n y

/-- A step of the register on numbers: doubling, and, when that runs over, the generator. It is
the form in which the search below computes. -/
theorem toNat_crcBit (g c : BitVec w) :
    (crcBit g c false).toNat =
      if 2 ^ w ≤ 2 * c.toNat then (2 * c.toNat - 2 ^ w) ^^^ g.toNat else 2 * c.toNat := by
  have hlt := c.isLt
  have hshift : (c <<< 1).toNat = 2 * c.toNat % 2 ^ w := by
    rw [BitVec.toNat_shiftLeft, Nat.shiftLeft_eq, Nat.pow_one, Nat.mul_comm]
  by_cases h : 2 ^ w ≤ 2 * c.toNat
  · have hmsb : c.msb = true := by
      rw [BitVec.msb_eq_decide, decide_eq_true_eq]
      cases w with
      | zero => omega
      | succ n => rw [Nat.pow_succ] at h; rw [Nat.add_sub_cancel]; omega
    rw [if_pos h, crcBit, BitVec.toNat_xor, hshift, Nat.mod_eq_sub_mod h,
      Nat.mod_eq_of_lt (by omega), hmsb]
    rfl
  · have hmsb : c.msb = false := by
      rw [BitVec.msb_eq_decide, decide_eq_false_iff_not]
      cases w with
      | zero => simp at h; omega
      | succ n => rw [Nat.pow_succ] at h; rw [Nat.add_sub_cancel]; omega
    rw [if_neg h, crcBit, BitVec.toNat_xor, hshift, Nat.mod_eq_of_lt (by omega), hmsb]
    simp

/-- The top bit as a number. -/
theorem toNat_ofMsbs_true (hw : 0 < w) : (ofMsbs [true] : BitVec w).toNat = 2 ^ (w - 1) := by
  have hlt : 2 ^ (w - 1) < 2 ^ w := Nat.pow_lt_pow_right (by omega) (by omega)
  simp [ofMsbs, BitVec.toNat_twoPow, Nat.mod_eq_of_lt hlt]

/-- What the search has found not to come back does not come back. The search goes through the `n`
next values of the register once, so it is linear in the length of the message. -/
theorem not_returnsAfter_of_neverReturns {g : BitVec w} (hw : 0 < w) {n : Nat}
    (h : neverReturns w g.toNat n (2 ^ (w - 1)) = true) {k : Nat} (hk : 0 < k) (hkn : k ≤ n) :
    ¬ ReturnsAfter g k := by
  have key : ∀ (n : Nat) (x : BitVec w), neverReturns w g.toNat n x.toNat = true →
      ∀ k, 0 < k → k ≤ n → crcBits g x (List.replicate k false) ≠ ofMsbs [true] := by
    intro n
    induction n with
    | zero => intro x _ k hk hkn; omega
    | succ n ih =>
      intro x hx k hk hkn
      simp only [neverReturns, ← toNat_crcBit, Bool.and_eq_true, bne_iff_ne] at hx
      obtain ⟨j, rfl⟩ : ∃ j, k = j + 1 := ⟨k - 1, by omega⟩
      rw [List.replicate_succ, crcBits_cons]
      rcases Nat.eq_zero_or_pos j with rfl | hj
      · intro hret
        refine hx.1 ?_
        rw [← toNat_ofMsbs_true hw, ← hret]
        rfl
      · exact ih _ hx.2 j hj (by omega)
  exact key n (ofMsbs [true]) (by rwa [toNat_ofMsbs_true hw]) k hk hkn

/-! ### Additive functions of words -/

/-- Two additive functions that agree on the words with one bit set are equal. -/
theorem additive_ext {m n : Nat} {f h : BitVec m → BitVec n}
    (hf : ∀ x y, f (x ^^^ y) = f x ^^^ f y) (hh : ∀ x y, h (x ^^^ y) = h x ^^^ h y)
    (hbasis : ∀ i < m, f (BitVec.twoPow m i) = h (BitVec.twoPow m i)) (x : BitVec m) :
    f x = h x := by
  have hzero : ∀ {k : BitVec m → BitVec n}, (∀ x y, k (x ^^^ y) = k x ^^^ k y) →
      k 0#m = 0#n := by
    intro k hk
    have := hk 0#m 0#m
    simpa using this
  -- The induction is on the number of low bits that may be set: the step takes the highest of them
  -- out.
  have key : ∀ k ≤ m, ∀ x : BitVec m, (∀ i, k ≤ i → x.getLsbD i = false) → f x = h x := by
    intro k
    induction k with
    | zero =>
      intro _ x hx
      have : x = 0#m := BitVec.eq_of_getLsbD_eq fun i _ => by simp [hx i (Nat.zero_le i)]
      rw [this, hzero hf, hzero hh]
    | succ k ih =>
      intro hk x hx
      cases hbit : x.getLsbD k
      · refine ih (by omega) x fun i hi => ?_
        rcases Nat.eq_or_lt_of_le hi with rfl | hlt
        · exact hbit
        · exact hx i hlt
      · -- Bit `k` is taken out of the word and put back.
        have hput : x = (x ^^^ BitVec.twoPow m k) ^^^ BitVec.twoPow m k := by
          rw [BitVec.xor_assoc, BitVec.xor_self, BitVec.xor_zero]
        rw [hput, hf, hh, hbasis k (by omega)]
        congr 1
        refine ih (by omega) _ fun i hi => ?_
        rcases Nat.eq_or_lt_of_le hi with rfl | hlt
        · simp [hbit, show k < m by omega]
        · simp [hx i hlt, BitVec.getLsbD_twoPow, show k ≠ i by omega]
  exact key m (Nat.le_refl m) x fun i hi => BitVec.getLsbD_of_ge x i hi

/-- The same for two functions of two words. -/
theorem additive_ext₂ {l m n : Nat} {f h : BitVec l → BitVec m → BitVec n}
    (hf : ∀ c d a b, f (c ^^^ d) (a ^^^ b) = f c a ^^^ f d b)
    (hh : ∀ c d a b, h (c ^^^ d) (a ^^^ b) = h c a ^^^ h d b)
    (hleft : ∀ i < l, f (BitVec.twoPow l i) 0#m = h (BitVec.twoPow l i) 0#m)
    (hright : ∀ i < m, f 0#l (BitVec.twoPow m i) = h 0#l (BitVec.twoPow m i))
    (c : BitVec l) (a : BitVec m) : f c a = h c a := by
  have hsplit : ∀ {k : BitVec l → BitVec m → BitVec n},
      (∀ c d a b, k (c ^^^ d) (a ^^^ b) = k c a ^^^ k d b) → k c a = k c 0#m ^^^ k 0#l a := by
    intro k hk
    simpa using hk c 0#l 0#m a
  rw [hsplit hf, hsplit hh]
  congr 1
  · exact additive_ext (f := (f · 0#m)) (h := (h · 0#m)) (fun x y => by simpa using hf x y 0#m 0#m)
      (fun x y => by simpa using hh x y 0#m 0#m) hleft c
  · exact additive_ext (f := f 0#l) (h := h 0#l) (fun x y => by simpa using hf 0#l 0#l x y)
      (fun x y => by simpa using hh 0#l 0#l x y) hright a

end VivadoTest.Lib.Crc
