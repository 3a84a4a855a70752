import VivadoTest.InputTest.UsbPacket
import VivadoTest.Spec.UsbFormat

/-!
# `VivadoTest.Proofs.UsbCrc`: the byte formulas of the CRCs

`crc5_upd` and `crc16_upd` take a whole byte at once. They are additive, as the register of
`Lib.Crc` is, and they agree with eight steps of it on the words with one bit set
(`crc5Upd_eq`, `crc16Upd_eq`). So the constants that the receiver compares with are the
residues. `VivadoTest.Proofs.UsbReceive` concludes from this that what it accepts is what carries
its own checksum (`goodPacket_token_iff`, `goodPacket_data_iff`).

The generators and the order of the bits are those of the standard, the formulas are those of the
entity. Additivity leaves a finite check: eight words for the byte and as many as the register has
bits, for each of the two CRCs.
-/

set_option autoImplicit false

namespace VivadoTest.InputTest

open VivadoTest.Framework
open VivadoTest.Lib.Crc
open VivadoTest.Spec

/-! ### A byte at a time -/

/-- The bits of the sum of two bytes. -/
theorem byteBits_xor (a b : Byte) :
    byteBits (a ^^^ b) = List.zipWith xor (byteBits a) (byteBits b) := by
  simp [byteBits, List.zipWith_map, List.zipWith_self]

/-- The register of `Lib.Crc` is additive over a byte. -/
theorem crcBits_byteBits_xor {w : Nat} (g c d : BitVec w) (a b : Byte) :
    crcBits g (c ^^^ d) (byteBits (a ^^^ b)) =
      crcBits g c (byteBits a) ^^^ crcBits g d (byteBits b) := by
  rw [byteBits_xor, crcBits_xor g c d _ _ (by simp)]

/-- A word listed as a sum is the sum of the two words. -/
theorem ofMsbs_xor {w : Nat} {as bs cs : List Bool} (h : as.length = bs.length)
    (hcs : cs = List.zipWith xor as bs) : (ofMsbs cs : BitVec w) = ofMsbs as ^^^ ofMsbs bs := by
  subst hcs
  ext i hi
  simp only [getElem_ofMsbs, BitVec.getElem_xor, List.getElem?_zipWith]
  by_cases hlt : w - 1 - i < as.length
  · simp [List.getElem?_eq_getElem hlt, List.getElem?_eq_getElem (h ▸ hlt)]
  · simp [List.getElem?_eq_none (Nat.le_of_not_lt hlt),
      List.getElem?_eq_none (h ▸ Nat.le_of_not_lt hlt)]

/-- A sum of two sums, a summand at a time. -/
theorem xor_halves {x y a b c d : Bool} (hx : x = (a ^^ b)) (hy : y = (c ^^ d)) :
    (x ^^ y) = ((a ^^ c) ^^ (b ^^ d)) := by
  rw [hx, hy]
  cases a <;> cases b <;> cases c <;> cases d <;> rfl

/-- The first half of `crc5_upd` is additive: each of its bits is a sum of bits. -/
theorem crc5UpdT_xor (c d : BitVec 5) (a b : Byte) :
    crc5UpdT (c ^^^ d) (a ^^^ b) = crc5UpdT c a ^^^ crc5UpdT d b := by
  refine ofMsbs_xor rfl ?_
  simp only [List.zipWith_cons_cons, List.zipWith_nil_left, BitVec.getElem_xor,
    List.cons.injEq, and_true]
  and_intros <;> repeat first | rfl | apply xor_halves

/-- So is the second. -/
theorem crc5UpdY_xor (a b : Byte) (t u : BitVec 5) :
    crc5UpdY (a ^^^ b) (t ^^^ u) = crc5UpdY a t ^^^ crc5UpdY b u := by
  refine ofMsbs_xor rfl ?_
  simp only [List.zipWith_cons_cons, List.zipWith_nil_left, BitVec.getElem_xor,
    List.cons.injEq, and_true]
  and_intros <;> repeat first | rfl | apply xor_halves

/-- And the whole function. -/
theorem crc5Upd_xor (c d : BitVec 5) (a b : Byte) :
    crc5Upd (c ^^^ d) (a ^^^ b) = crc5Upd c a ^^^ crc5Upd d b := by
  simp only [crc5Upd, crc5UpdT_xor, crc5UpdY_xor]

/-- The same for the first half of `crc16_upd`. -/
theorem crc16UpdT_xor (c d : BitVec 16) (a b : Byte) :
    crc16UpdT (c ^^^ d) (a ^^^ b) = crc16UpdT c a ^^^ crc16UpdT d b := by
  refine ofMsbs_xor rfl ?_
  simp only [List.zipWith_cons_cons, List.zipWith_nil_left, BitVec.getElem_xor,
    List.cons.injEq, and_true]
  and_intros <;> repeat first | rfl | apply xor_halves

/-- For its second half. -/
theorem crc16UpdY_xor (c d : BitVec 16) (t u : BitVec 8) :
    crc16UpdY (c ^^^ d) (t ^^^ u) = crc16UpdY c t ^^^ crc16UpdY d u := by
  refine ofMsbs_xor rfl ?_
  simp only [List.zipWith_cons_cons, List.zipWith_nil_left, BitVec.getElem_xor,
    List.cons.injEq, and_true, true_and]
  and_intros <;> repeat first | rfl | apply xor_halves

/-- And for the whole function. -/
theorem crc16Upd_xor (c d : BitVec 16) (a b : Byte) :
    crc16Upd (c ^^^ d) (a ^^^ b) = crc16Upd c a ^^^ crc16Upd d b := by
  simp only [crc16Upd, crc16UpdT_xor, crc16UpdY_xor]

/-- `crc5_upd` reads the eight bits of a byte, the lowest first. -/
theorem crc5Upd_eq (c : BitVec 5) (b : Byte) : crc5Upd c b = crcBits tokenGen c (byteBits b) :=
  additive_ext₂ (h := fun c b => crcBits tokenGen c (byteBits b)) crc5Upd_xor
    (crcBits_byteBits_xor tokenGen) (by decide) (by decide) c b

/-- `crc16_upd` reads the eight bits of a byte, the lowest first. -/
theorem crc16Upd_eq (c : BitVec 16) (b : Byte) : crc16Upd c b = crcBits dataGen c (byteBits b) :=
  additive_ext₂ (h := fun c b => crcBits dataGen c (byteBits b)) crc16Upd_xor
    (crcBits_byteBits_xor dataGen) (by decide) (by decide) c b

/-- `crc5_buf` after some bytes. -/
theorem foldl_crc5Upd (c : BitVec 5) (bs : List Byte) :
    bs.foldl crc5Upd c = crcBits tokenGen c (wireBits bs) := by
  induction bs generalizing c with
  | nil => rfl
  | cons b bs ih => rw [List.foldl_cons, ih, crc5Upd_eq, wireBits_cons, crcBits_append]

/-- `crc16_buf` after some bytes. -/
theorem foldl_crc16Upd (c : BitVec 16) (bs : List Byte) :
    bs.foldl crc16Upd c = crcBits dataGen c (wireBits bs) := by
  induction bs generalizing c with
  | nil => rfl
  | cons b bs ih => rw [List.foldl_cons, ih, crc16Upd_eq, wireBits_cons, crcBits_append]

/-- The bits of a byte that is listed from its highest bit on come in the reverse order on the
wire. -/
theorem byteBits_ofMsbs (bs : List Bool) (h : bs.length = 8) :
    byteBits (ofMsbs bs) = bs.reverse := by
  refine List.ext_getElem (by simp [h]) fun i hi _ => ?_
  simp only [length_byteBits] at hi
  have hback : 7 - i < bs.length := by omega
  simp [byteBits, getElem_ofMsbs, List.getElem?_eq_getElem hback, hi, h]

/-- The CRC is sent with its highest bit first. -/
theorem wireBits_crc16 (c : BitVec 16) :
    wireBits [crc16First c, crc16Second c] = msbs (~~~c) := by
  have hbit : ∀ i < 16, (~~~c).getMsbD i = !c.getLsbD (15 - i) := fun i hi => by
    simp [BitVec.getMsbD_eq_getLsbD, hi, show 15 - i < 16 by omega]
  simp only [wireBits_cons, wireBits_nil, crc16First, crc16Second]
  rw [byteBits_ofMsbs _ rfl, byteBits_ofMsbs _ rfl]
  simp [msbs, List.range_succ, hbit]

/-! ### What the residues accept -/

/-- The constant that the receiver compares a token with is the residue of the token's generator.
-/
theorem crc5Res_eq : crc5Res = residue tokenGen := by decide

/-- The same for a data packet. -/
theorem crc16Res_eq : crc16Res = residue dataGen := by decide

/-- The last byte ends the packet where the bits before its checksum end. -/
theorem exists_checksum {w : Nat} {g : BitVec w} (hg : g.getLsbD 0 = true) (body : List Byte)
    (hlen : w ≤ 8 * body.length) :
    crcBits g (BitVec.allOnes w) (wireBits body) = residue g ↔
      ∃ field, wireBits body = field ++ checksum g field := by
  constructor
  · intro h
    let n := 8 * body.length - w
    have hcheck : ((wireBits body).drop n).length = w := by simp [n]; omega
    refine ⟨(wireBits body).take n, ?_⟩
    rw [← (crcBits_append_checksum hg _ _ hcheck).mp (by rw [List.take_append_drop, h]),
      List.take_append_drop]
  · rintro ⟨field, hfield⟩
    rw [hfield]
    exact (crcBits_append_checksum hg _ _ (by simp)).mpr rfl

/-- The condition under which the receiver takes the rest of a token for good. -/
theorem token_residue_iff (body : List Byte) :
    (body ≠ [] ∧ body.foldl crc5Upd 0b11111 = crc5Res) ↔
      ∃ field, wireBits body = field ++ checksum tokenGen field := by
  have hones : (0b11111 : BitVec 5) = BitVec.allOnes 5 := by decide
  rw [foldl_crc5Upd, crc5Res_eq, hones]
  cases body with
  | nil =>
    have hnil : ∀ field : List Bool, [] ≠ field ++ checksum tokenGen field := by
      intro field h
      have := congrArg List.length h
      simp at this
    simp [hnil]
  | cons b bs =>
    rw [← exists_checksum (by decide) (b :: bs) (by simp; omega)]
    simp

/-- No byte is the checksum of the empty payload, so that what is good has two bytes more than
the payload. -/
theorem crc16Upd_ne_crc16Res (b : Byte) : crc16Upd 0xFFFF b ≠ crc16Res := by
  intro h
  -- One byte only moves this bit up.
  have h14 : (crc16Upd 0xFFFF b)[14] = false := by rw [h]; rfl
  simp [crc16Upd, crc16UpdY, getElem_ofMsbs] at h14

/-- The condition under which the receiver takes the rest of a data packet for good. -/
theorem data_residue_iff (body : List Byte) :
    (body ≠ [] ∧ body.foldl crc16Upd 0xFFFF = crc16Res) ↔
      ∃ payload crc, body = payload ++ crc ∧
        wireBits crc = checksum dataGen (wireBits payload) := by
  have hones : (0xFFFF : BitVec 16) = BitVec.allOnes 16 := by decide
  constructor
  · rintro ⟨hne, hres⟩
    -- One byte is too short, from two on the last two are the checksum.
    have htwo : 2 ≤ body.length := by
      match body, hne with
      | [b], _ => exact absurd hres (crc16Upd_ne_crc16Res b)
      | _ :: _ :: _, _ => simp
    let payload := body.take (body.length - 2)
    let crc := body.drop (body.length - 2)
    have hbody : body = payload ++ crc := (List.take_append_drop _ _).symm
    have hcrc : (wireBits crc).length = 16 := by simp [crc]; omega
    refine ⟨payload, crc, hbody, (crcBits_append_checksum (by decide) _ _ hcrc).mp ?_⟩
    rw [← wireBits_append, ← hbody, ← crc16Res_eq, ← hres, foldl_crc16Upd, hones]
  · rintro ⟨payload, crc, rfl, hcrc⟩
    have hlen : 8 * crc.length = 16 := by rw [← length_wireBits, hcrc, length_checksum]
    refine ⟨fun h => ?_, ?_⟩
    · simp only [List.append_eq_nil_iff] at h
      simp [h.2] at hlen
    · rw [foldl_crc16Upd, crc16Res_eq, hones, wireBits_append]
      exact (crcBits_append_checksum (by decide) _ _ (by simp [hlen])).mpr hcrc

end VivadoTest.InputTest
