import VivadoTest.Proofs.ExpectedUpdates

/-!
# `VivadoTest.Proofs.UpdateRoundTrip`: expected updates are decoded as they were written

An expected update reaches the board as six bytes, written one at a time into a word of the
expected-update memory, and the testbench as a line of three numerals.

* `Board.expupdRam_of_initExpectedUpdates`: the words on the board.
* `Tb.initExpectedUpdatesFromFile_eq`: the array of the testbench.
* `expectedUpdates_roundTrip`: both decode to the updates of the test.

The round trip has two arms. On the board, an update is packed into 43 bits (`ExpectedUpdate.raw`),
written byte by byte, and decoded by the monitor: `decodeUpdate_raw` is about the bits of one
entry, `expupdRam_of_initExpectedUpdates` about where the bytes go. In the simulation the testbench
reads the line of the same update (`IsLine.readExpectedUpdate`), and the loop over the file fills
the array in the order of the lines. Both arms end in the same three numbers (`DecodesTo`).
-/

set_option autoImplicit false

namespace VivadoTest.Generator

open VivadoTest.Lib VivadoTest.Lib.TextIO VivadoTest.Framework VivadoTest.Host

/-- The decoded update `e` is `u`: its destination kind, its address and its value modulo
`2 ^ 32`. -/
structure ExpectedUpdate.DecodesTo (u : ExpectedUpdate) (e : ExpectedStateUpdate) : Prop where
  dest : e.dest = .dmemUpdate ↔ u.isDestDmem = true
  addr : (e.addr.toNat : Int) = u.addr
  value : (e.value.toNat : Int) = u.value % 2 ^ 32

/-- A target that decodes the three numbers of an update. -/
theorem ExpectedUpdate.Accepted.decodesTo {u : ExpectedUpdate} (hu : u.Accepted 1024)
    {dest : StateUpdateDest} (hdest : dest = .dmemUpdate ↔ u.isDestDmem = true) :
    u.DecodesTo
      ⟨dest, BitVec.ofNat 10 u.addr.toNat, BitVec.ofNat 32 (u.value % 2 ^ 32).toNat⟩ where
  dest := hdest
  addr := by
    have h0 := hu.addr_nonneg
    have hlt := hu.addr_lt
    show ((u.addr.toNat % 1024 : Nat) : Int) = u.addr
    omega
  value := by
    show (((u.value % 2 ^ 32).toNat % 4294967296 : Nat) : Int) = u.value % 2 ^ 32
    omega

/-! ### A word of the expected-update memory -/

/-- Two words that agree in the bits that the memory keeps are the same update. -/
theorem decodeUpdate_congr {x y : RawExpectedUpdate}
    (h : ∀ k < 6, byteAt x (5 - k) &&& (if k = 0 then 0x07 else 0xFF)
      = byteAt y (5 - k) &&& (if k = 0 then 0x07 else 0xFF)) :
    decodeUpdate x = decodeUpdate y := by
  have h07 : ∀ i < 8, (0x07 : Byte).getLsbD i = decide (i < 3) := by decide
  have hff : ∀ i < 8, (0xFF : Byte).getLsbD i = true := by decide
  have hbit : ∀ i < 43, x.getLsbD i = y.getLsbD i := by
    intro i hi
    have hlane := congrArg (fun v => v.getLsbD (i % 8)) (h (5 - i / 8) (by omega))
    have hi8 : i % 8 < 8 := Nat.mod_lt _ (by decide)
    simp only [BitVec.getLsbD_and, getLsbD_byteAt, hi8, decide_true, Bool.true_and,
      show 8 * (5 - (5 - i / 8)) + i % 8 = i by omega] at hlane
    by_cases htop : 5 - i / 8 = 0
    · rw [if_pos htop, h07 _ hi8, decide_eq_true (show i % 8 < 3 by omega)] at hlane
      simpa using hlane
    · rw [if_neg htop, hff _ hi8] at hlane
      simpa using hlane
  unfold decodeUpdate
  congr 1
  · rw [hbit 42 (by decide)]
  · refine BitVec.eq_of_getLsbD_eq fun i hi => ?_
    simp [hi, hbit (32 + i) (by omega)]
  · refine BitVec.eq_of_getLsbD_eq fun i hi => ?_
    simp [hi, hbit i (by omega)]

/-- The word that the host's filter packs is decoded as the update. -/
theorem ExpectedUpdate.Accepted.decodeUpdate_raw {u : ExpectedUpdate} (hu : u.Accepted 1024) :
    u.DecodesTo (decodeUpdate (BitVec.ofNat 48 u.raw)) := by
  have h0 := hu.addr_nonneg
  have hlt := hu.addr_lt
  have hv : (u.value % 2 ^ 32).toNat < 2 ^ 32 := by omega
  have ha : u.addr.toNat < 2 ^ 10 := by omega
  -- the three fields of the word do not overlap, as each value is below the next field
  have hdest : (BitVec.ofNat 48 u.raw).getLsbD 42 = u.isDestDmem := by
    rw [BitVec.getLsbD_ofNat, decide_eq_true (by decide), Bool.true_and,
      Nat.testBit_eq_decide_div_mod_eq]
    unfold raw
    cases u.isDestDmem
    · rw [decide_eq_false_iff_not, if_neg Bool.false_ne_true]
      omega
    · rw [decide_eq_true_iff, if_pos rfl]
      omega
  have haddr : (BitVec.ofNat 48 u.raw).extractLsb' 32 10 = BitVec.ofNat 10 u.addr.toNat := by
    refine BitVec.eq_of_toNat_eq ?_
    rw [BitVec.extractLsb'_toNat, BitVec.toNat_ofNat, BitVec.toNat_ofNat,
      Nat.shiftRight_eq_div_pow]
    unfold raw
    split <;> omega
  have hvalue : (BitVec.ofNat 48 u.raw).extractLsb' 0 32
      = BitVec.ofNat 32 (u.value % 2 ^ 32).toNat := by
    refine BitVec.eq_of_toNat_eq ?_
    rw [BitVec.extractLsb'_toNat, BitVec.toNat_ofNat, BitVec.toNat_ofNat, Nat.shiftRight_zero]
    unfold raw
    split <;> omega
  unfold decodeUpdate
  rw [hdest, haddr, hvalue]
  refine hu.decodesTo ?_
  cases u.isDestDmem <;> simp

/-! ### The words on the board -/

/-- Byte `k` of entry `i`. -/
theorem extractLsb'_entry {i k : Nat} (hk : k < 8) :
    (BitVec.ofNat 12 (8 * i + k)).extractLsb' 3 9 = BitVec.ofNat 9 i ∧
      ((BitVec.ofNat 12 (8 * i + k)).extractLsb' 0 3).toNat = k := by
  constructor
  · refine BitVec.eq_of_toNat_eq ?_
    rw [BitVec.extractLsb'_toNat, BitVec.toNat_ofNat, BitVec.toNat_ofNat,
      Nat.shiftRight_eq_div_pow]
    omega
  · rw [BitVec.extractLsb'_toNat, BitVec.toNat_ofNat, Nat.shiftRight_zero]
    omega

/-- A byte of an entry after the writes. -/
theorem writes_entryWrites (st : Store) {raws : List Nat} (hlen : raws.length ≤ 512) {i k raw : Nat}
    (hi : raws[i]? = some raw) (hk : k < 6) :
    Store.writes st (HostcommProxy.based 0x2000 (entryWrites 0 raws))
        (.expupd (BitVec.ofNat 12 (8 * i + k)))
      = BitVec.ofNat 8 (raw >>> (8 * (5 - k)) % 256) &&&
          (Cell.expupd (BitVec.ofNat 12 (8 * i + k))).mask := by
  have hlt := (List.getElem?_eq_some_iff.mp hi).1
  refine Store.writes_of_hits st ?_ ?_
  · refine ⟨(0x2000 + (8 * i + k), raw >>> (8 * (5 - k)) % 256), ?_, cellOf_expupdAddr (by omega)⟩
    refine List.mem_map.mpr ⟨(8 * i + k, raw >>> (8 * (5 - k)) % 256), ?_, rfl⟩
    exact mem_entryWrites.mpr ⟨i, raw, k, hi, hk, by rw [Nat.zero_add]⟩
  · intro w hw hhits
    obtain ⟨w', hw', rfl⟩ := List.mem_map.mp hw
    obtain ⟨i', raw', k', hi', hk', rfl⟩ := mem_entryWrites.mp hw'
    have hlt' := (List.getElem?_eq_some_iff.mp hi').1
    -- no two entries share an address
    have haddr : cellOf (BitVec.ofNat 16 (0x2000 + (0 + 8 * i' + k')))
        = some (.expupd (BitVec.ofNat 12 (8 * i + k))) := hhits
    rw [cellOf_expupdAddr (by omega)] at haddr
    have hoffset := congrArg BitVec.toNat (Cell.expupd.inj (Option.some.inj haddr))
    rw [BitVec.toNat_ofNat, BitVec.toNat_ofNat] at hoffset
    obtain rfl : i' = i := by omega
    obtain rfl : k' = k := by omega
    obtain rfl := Option.some.inj (hi'.symm.trans hi)
    rfl

variable {N : Nat}

/-- The words on the board, whatever they were before. -/
theorem Board.expupdRam_of_initExpectedUpdates {b : Board N} {p : UartParser}
    (hp : p.mainSm = .mainIdle) {raws : List Nat} (hlen : raws.length ≤ 512)
    {ins : List (BoardIn N)}
    (h : Transfers p (commands (HostcommProxy.based 0x2000 (entryWrites 0 raws))) ins) {i raw : Nat}
    (hi : raws[i]? = some raw) :
    decodeUpdate ((ins.foldl Board.step b).testMonitor.expupdRam (BitVec.ofNat 9 i))
      = decodeUpdate (BitVec.ofNat 48 raw) := by
  have hlt := (List.getElem?_eq_some_iff.mp hi).1
  refine decodeUpdate_congr fun k hk => ?_
  obtain ⟨hword, hsel⟩ := extractLsb'_entry (i := i) (k := k) (by omega)
  have hmask : (Cell.expupd (BitVec.ofNat 12 (8 * i + k))).mask = if k = 0 then 0x07 else 0xFF := by
    rw [Cell.mask_expupd, hsel, if_neg (show ¬ 6 ≤ k by omega)]
  have hcell := (Board.content_of_configuration (b := b) hp h
    (c := .expupd (BitVec.ofNat 12 (8 * i + k))) rfl).trans (writes_entryWrites _ hlen hi hk)
  rw [Board.content_expupd, hword, hsel, hmask] at hcell
  rw [hcell, byteAt_ofNat _ (by omega)]

/-! ### The array of the testbench -/

/-- The testbench reads the line of an update. -/
theorem ExpectedUpdate.IsLine.readExpectedUpdate {u : ExpectedUpdate} (hu : u.Accepted 1024)
    {line : List Char} (h : u.IsLine u.dmemAddrWidth line) :
    ∃ e, Tb.readExpectedUpdate line = some e ∧ u.DecodesTo e := by
  obtain ⟨binAddr, hexVal, rfl, hbin, hwidth, hhex, hlen⟩ := h.eq
  have hwidth' : binAddr.length = 10 := by
    rw [hwidth, hu.width]
    rfl
  have hval := hread_spells (w := 32) hhex hlen []
  rw [List.append_nil] at hval
  have hdest : (if u.isDestDmem then StateUpdateDest.dmemUpdate else .regfileUpdate) = .dmemUpdate
      ↔ u.isDestDmem = true := by
    cases u.isDestDmem <;> simp
  refine ⟨_, ?_, hu.decodesTo hdest⟩
  · unfold Tb.readExpectedUpdate
    rw [readStdLogic_spells (spells_kind u)]
    simp only [Option.bind_eq_bind, Option.bind_some, readCharacter,
      readVector_spells hbin hwidth', hval]
    cases u.isDestDmem <;> rfl

/-- The loop over the lines leaves what it has read before and adds one update for each line. -/
theorem initExpectedUpdatesLoop_eq {us : List ExpectedUpdate} {lines : List (List Char)}
    (h : List.Forall₂ (fun u line => u.Accepted 1024 ∧ u.IsLine u.dmemAddrWidth line) us lines)
    (g : Tb.Generics) (i : Nat) (before : Tb.TbArray)
    (hfits : i + us.length ≤ g.NUM_EXPECTED_UPDATES) :
    ∃ arr, Tb.initExpectedUpdatesLoop g before i lines = some (arr, i + us.length) ∧
      (∀ j < i, arr j = before j) ∧ ∀ k (u : ExpectedUpdate), us[k]? = some u →
        u.DecodesTo (arr (i + k)) := by
  induction h generalizing i before with
  | nil => exact ⟨before, rfl, fun j _ => rfl, fun k u hk => absurd hk (by simp)⟩
  | @cons u line us lines hline _ ih =>
    rw [List.length_cons] at hfits
    obtain ⟨e, hread, hdecodes⟩ := hline.2.readExpectedUpdate hline.1
    -- the later lines only write behind this one
    obtain ⟨arr, hloop, hbelow, hentries⟩ := ih (i + 1) (Function.update before i e) (by omega)
    have hi : arr i = e := by rw [hbelow i (Nat.lt_succ_self i), Function.update_self]
    refine ⟨arr, ?_, fun j hj => ?_, fun k u' hk => ?_⟩
    · rw [Tb.initExpectedUpdatesLoop, if_neg (by omega), hread]
      simp only [Option.bind_eq_bind, Option.bind_some]
      rw [hloop, List.length_cons, Nat.add_assoc, Nat.add_comm 1]
    · rw [hbelow j (by omega), Function.update_of_ne (by omega)]
    · cases k with
      | zero =>
        obtain rfl := Option.some.inj hk
        rwa [Nat.add_zero, hi]
      | succ k =>
        have hrest := hentries k u' hk
        rwa [show i + (k + 1) = i + 1 + k by omega]

/-- The array of the testbench once the file has been read. -/
theorem Tb.initExpectedUpdatesFromFile_eq {stdin file : List Char}
    (h : genExpectedUpdatesFile 1024 stdin = some file) {g : Tb.Generics}
    (hg : g.NUM_EXPECTED_UPDATES = (expectedUpdates 1024 stdin).length) (before : Tb.TbArray) :
    ∃ arr, Tb.initExpectedUpdatesFromFile g before file = some arr ∧
      ∀ i (u : ExpectedUpdate), (expectedUpdates 1024 stdin)[i]? = some u →
        u.DecodesTo (arr i) := by
  obtain ⟨lines, rfl, hlines⟩ := genExpectedUpdatesFile_eq h
  have hboth := (List.forall₂_and_left _ _).mpr ⟨fun u hu => accepted_of_mem hu, hlines⟩
  obtain ⟨arr, hloop, -, hentries⟩ := initExpectedUpdatesLoop_eq hboth g 0 before (by omega)
  refine ⟨Function.update arr (expectedUpdates 1024 stdin).length
    ⟨.dmemUpdate, BitVec.allOnes 10, BitVec.allOnes 32⟩, ?_, fun i u hi => ?_⟩
  · unfold Tb.initExpectedUpdatesFromFile
    rw [textLines_unlines (noNewline_of_isLine hlines), hloop]
    simp only [Option.bind_eq_bind, Option.bind_some, Nat.zero_add, guard, hg, if_true]
    rfl
  · -- the entry behind the last one is only a filler
    have hlt := (List.getElem?_eq_some_iff.mp hi).1
    have hentry := hentries i u hi
    rw [Nat.zero_add] at hentry
    rwa [Function.update_of_ne (by omega)]

/-! ### Both targets -/

/-- Whatever a board does while the host sends `text` to it, and whatever its memories held before,
the test monitor then decodes entry `i` of each of them as the update `us[i]`. -/
def DecodedOnBoard (text : List Char) (us : List ExpectedUpdate) : Prop :=
  ∀ (N : Nat) (b : Board N) (p : UartParser) (ins : List (BoardIn N)), p.mainSm = .mainIdle →
    Transfers p text ins → ∀ (j : Fin (N + 1)) (i : Nat) (u : ExpectedUpdate), us[i]? = some u →
      u.DecodesTo (decodeUpdate
        ((ins.foldl Board.step b).testMonitor.expectedUpdatesRam j (BitVec.ofNat 9 i)))

/-- A testbench for `us.length` updates reads `file`, and entry `i` of its array is the update
`us[i]`. -/
def DecodedByTb (file : List Char) (us : List ExpectedUpdate) : Prop :=
  ∀ (g : Tb.Generics) (before : Tb.TbArray), g.NUM_EXPECTED_UPDATES = us.length →
    ∃ arr, Tb.initExpectedUpdatesFromFile g before file = some arr ∧
      ∀ (i : Nat) (u : ExpectedUpdate), us[i]? = some u → u.DecodesTo (arr i)

/-- Up to 512 expected updates are decoded on both targets as the lines of the test state them. -/
theorem expectedUpdates_roundTrip {stdin : List Char}
    (hlen : (expectedUpdates 1024 stdin).length ≤ 512) :
    ∃ file fpgaFile text, genExpectedUpdatesFile 1024 stdin = some file ∧
      genFpgaExpupdFile file = some fpgaFile ∧
      HostcommProxy.initExpectedUpdates fpgaFile = some text ∧
      DecodedOnBoard text (expectedUpdates 1024 stdin) ∧
      DecodedByTb file (expectedUpdates 1024 stdin) := by
  have hdepth : (1 : Int) < 1024 := by decide
  obtain ⟨file, hfile⟩ := exists_genExpectedUpdatesFile hdepth stdin
  obtain ⟨fpgaFile, hfpga, hcommands⟩ := initExpectedUpdates_eq hfile
  refine ⟨file, fpgaFile, _, hfile, hfpga, hcommands, ?_, fun g before hg => ?_⟩
  · intro N b p ins hp hins j i u hi
    have hraw : ((expectedUpdates 1024 stdin).map ExpectedUpdate.raw)[i]? = some u.raw := by
      rw [List.getElem?_map, hi]
      rfl
    have hword := Board.expupdRam_of_initExpectedUpdates (b := b) hp (by rwa [List.length_map])
      hins hraw
    rw [TestMonitorState.expectedUpdatesRam_eq, hword]
    exact (accepted_of_mem (List.mem_of_getElem? hi)).decodeUpdate_raw
  · exact Tb.initExpectedUpdatesFromFile_eq hfile hg before

/-- A negative value for a register and a word of the data memory. -/
def mixedUpdates : List Char := "r3 = -2\ndmem_word[0x3FF] = 0xFFFFFFFF\n".toList

/-- A register and a data memory update, with their two files, come back on the board and in the
testbench. -/
theorem expectedUpdates_roundTrip_mixedUpdates :
    (expectedUpdates 1024 mixedUpdates).length = 2 ∧
      ∃ file fpgaFile text, genExpectedUpdatesFile 1024 mixedUpdates = some file ∧
        genFpgaExpupdFile file = some fpgaFile ∧
        HostcommProxy.initExpectedUpdates fpgaFile = some text ∧
        DecodedOnBoard text (expectedUpdates 1024 mixedUpdates) ∧
        DecodedByTb file (expectedUpdates 1024 mixedUpdates) := by
  have hlen : (expectedUpdates 1024 mixedUpdates).length = 2 := by decide +kernel
  exact ⟨hlen, expectedUpdates_roundTrip (hlen.trans_le (by decide))⟩

end VivadoTest.Generator
