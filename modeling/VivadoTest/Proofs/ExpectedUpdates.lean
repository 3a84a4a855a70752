import VivadoTest.Framework.SimInit
import VivadoTest.Proofs.InitMem
import VivadoTest.Proofs.InitStateUtil

/-!
# `VivadoTest.Proofs.ExpectedUpdates`: expected updates on their way to the targets

An expected update is printed as a line of three numerals. The host's filter packs the line
into the 48 bits of `ExpectedUpdate.raw`, whose bytes are written big-endian into an entry of
eight byte addresses; the testbench reads the line itself.

* `initExpectedUpdates_eq`: the commands that load the updates of a test.
* `mem_entryWrites`: the bytes they write.

## Three readers of one line

The generated line is read by the simulation, by the generator of the host's file and by
`gen_test_files.sh`, which counts the lines. `IsLine` is what all three need of it: a digit for the
kind, an address of the configured width in binary, and a value of 32 bits in hexadecimal. The
address is as wide as the address of the data memory, one bit at least, which is why a memory of
more than one word is needed (`exists_genExpectedUpdatesFile`).
-/

set_option autoImplicit false

namespace VivadoTest.Generator

open VivadoTest.Lib VivadoTest.Framework VivadoTest.Host

/-! ### Accepted updates -/

namespace ExpectedUpdate

/-- What the constructor checks. -/
structure Accepted (u : ExpectedUpdate) (dmemDepth : Int) : Prop where
  addr_nonneg : 0 ≤ u.addr
  addr_lt : u.addr < dmemDepth
  value_lo : -(2 ^ 31) ≤ u.value
  value_hi : u.value < 2 ^ 32
  width : u.dmemAddrWidth = Nat.clog 2 dmemDepth.toNat

/-- The constructor accepts what its checks let through. -/
theorem accepted_of_init {isDestDmem : Bool} {addr value dmemDepth : Int} {u : ExpectedUpdate}
    (h : init isDestDmem addr value dmemDepth = some u) : u.Accepted dmemDepth := by
  unfold init assertInRange guard at h
  split at h
  · next haddr =>
    split at h
    · next hvalue =>
      obtain rfl := Option.some.inj h
      exact ⟨haddr.1, Int.lt_of_le_sub_one haddr.2, hvalue.1, Int.lt_of_le_sub_one hvalue.2, rfl⟩
    · exact absurd h (by simp)
  · exact absurd h (by simp)

/-- A line is accepted through the constructor. -/
theorem accepted_of_fromLine {line : List Char} {dmemDepth : Int} {u : ExpectedUpdate}
    (h : fromLine line dmemDepth = some u) : u.Accepted dmemDepth := by
  unfold fromLine at h
  split at h
  · obtain ⟨⟨addr, value⟩, -, h⟩ := Option.bind_eq_some_iff.mp h
    exact accepted_of_init h
  · obtain ⟨groups, -, h⟩ := Option.bind_eq_some_iff.mp h
    obtain ⟨⟨addr, value⟩, -, h⟩ := Option.bind_eq_some_iff.mp h
    exact accepted_of_init h

/-- The entry of the board's memory that states the update. -/
def raw (u : ExpectedUpdate) : Nat :=
  (if u.isDestDmem then 1 else 0) * 2 ^ 42 + u.addr.toNat * 2 ^ 32 + (u.value % 2 ^ 32).toNat

/-! ### The line of an update -/

/-- A line that states the update: its kind, its address in `width` binary digits and its value
in eight hexadecimal ones. -/
structure IsLine (u : ExpectedUpdate) (width : Nat) (line : List Char) : Prop where
  eq : ∃ binAddr hexVal,
    line = (if u.isDestDmem then '1' else '0') :: ' ' :: (binAddr ++ ' ' :: hexVal) ∧
      Spells 2 binAddr u.addr.toNat ∧ binAddr.length = width ∧
      Spells 16 hexVal (u.value % 2 ^ 32).toNat ∧ hexVal.length = 8

/-- The printed line has the three fields: the kind as a digit, the address in binary, and the
two's complement of the value in hexadecimal. -/
theorem isLine_of_str {u : ExpectedUpdate} {dmemDepth : Int} (hu : u.Accepted dmemDepth)
    {line : List Char} (h : u.str = some line) : u.IsLine u.dmemAddrWidth line := by
  obtain ⟨hexVal, hhex, hlen, hspells⟩ :=
    exists_fixedWidthHex 7 hu.value_lo hu.value_hi
  unfold str at h
  obtain ⟨binAddr, hbin, h⟩ := Option.bind_eq_some_iff.mp h
  obtain ⟨hexVal', hhex', h⟩ := Option.bind_eq_some_iff.mp h
  obtain rfl := Option.some.inj (hhex.symm.trans hhex')
  obtain ⟨hbin, hwidth⟩ := fixedWidthBin_spells hu.addr_nonneg hbin
  obtain rfl := Option.some.inj h
  exact ⟨binAddr, hexVal, by simp, hbin, hwidth, hspells, hlen⟩

/-- Every accepted update can be printed. -/
theorem exists_str {u : ExpectedUpdate} {dmemDepth : Int} (hu : u.Accepted dmemDepth)
    (hwidth : 0 < u.dmemAddrWidth) : ∃ line, u.str = some line := by
  obtain ⟨hexVal, hhex, -, -⟩ := exists_fixedWidthHex 7 hu.value_lo hu.value_hi
  have hfits : u.addr < 2 ^ u.dmemAddrWidth := by
    have hclog := Nat.le_pow_clog (b := 2) (by decide) dmemDepth.toNat
    have hlt := hu.addr_lt
    rw [hu.width]
    have hcast : (dmemDepth.toNat : Int) ≤ 2 ^ Nat.clog 2 dmemDepth.toNat := by exact_mod_cast hclog
    omega
  obtain ⟨binAddr, hbin⟩ := exists_fixedWidthBin hwidth hu.addr_nonneg hfits
  unfold str
  rw [hbin, hhex]
  exact ⟨_, rfl⟩

variable {u : ExpectedUpdate} {width : Nat} {line : List Char}

/-- The kind is a single bit. -/
theorem spells_kind (u : ExpectedUpdate) :
    Spells 2 [if u.isDestDmem then '1' else '0'] (if u.isDestDmem then 1 else 0) := by
  cases u.isDestDmem
  · exact spells_toDigits (b := 2) (by decide) (by decide) 0
  · exact spells_toDigits (b := 2) (by decide) (by decide) 1

/-- A printed line is one line. -/
theorem IsLine.noNewline (h : u.IsLine width line) : '\n' ∉ line := by
  obtain ⟨binAddr, hexVal, rfl, hbin, -, hhex, -⟩ := h.eq
  have hkind := (spells_kind u).not_mem (show digitValue '\n' = none by decide)
  rw [List.mem_singleton] at hkind
  simp only [List.mem_cons, List.mem_append, not_or]
  exact ⟨hkind, by decide, hbin.not_mem (by decide), by decide, hhex.not_mem (by decide)⟩

/-- The host's filter packs the line. -/
theorem IsLine.expupdVal_eq (h : u.IsLine width line) : expupdVal line = some (u.raw : Int) := by
  obtain ⟨binAddr, hexVal, rfl, hbin, -, hhex, -⟩ := h.eq
  have hkind := spells_kind u
  have hwords : words ((if u.isDestDmem then '1' else '0') :: ' ' :: (binAddr ++ ' ' :: hexVal))
      = [[if u.isDestDmem then '1' else '0'], binAddr, hexVal] := by
    have hfirst := wordsBy_append_sep hkind.ne_nil (isSpace_of_spells hkind) (c := ' ') (by decide)
      (binAddr ++ ' ' :: hexVal)
    rw [wordsBy_append_sep hbin.ne_nil (isSpace_of_spells hbin) (by decide),
      wordsBy_singleton hhex.ne_nil (isSpace_of_spells hhex)] at hfirst
    exact hfirst
  unfold expupdVal
  rw [hwords]
  simp only [pyInt_of_spells (by decide) hkind, pyInt_of_spells (by decide) hbin,
    pyInt_of_spells (by decide) hhex, Int.shiftLeft_eq]
  show some _ = some _
  unfold raw
  push_cast
  rfl

end ExpectedUpdate

/-- The updates of a test are accepted ones. -/
theorem accepted_of_mem {dmemDepth : Int} {stdin : List Char} {u : ExpectedUpdate}
    (h : u ∈ expectedUpdates dmemDepth stdin) : u.Accepted dmemDepth := by
  obtain ⟨line, -, hline⟩ := List.mem_filterMap.mp h
  dsimp only at hline
  split at hline
  · exact absurd hline (by simp)
  · exact ExpectedUpdate.accepted_of_fromLine hline

/-! ### The file of the updates -/

/-- The generated file is the printed lines of the accepted updates, in the order of the test. -/
theorem genExpectedUpdatesFile_eq {dmemDepth : Int} {stdin file : List Char}
    (h : genExpectedUpdatesFile dmemDepth stdin = some file) :
    ∃ lines, file = unlines lines ∧
      List.Forall₂ (fun u line => u.IsLine u.dmemAddrWidth line) (expectedUpdates dmemDepth stdin)
        lines := by
  obtain ⟨lines, hlines, h⟩ := Option.bind_eq_some_iff.mp h
  refine ⟨lines, (Option.some.inj h).symm, ?_⟩
  have hboth := (List.forall₂_and_left _ _).mpr
    ⟨fun u hu => accepted_of_mem hu, mapM_eq_some_iff.mp hlines⟩
  exact hboth.imp fun u line hu => ExpectedUpdate.isLine_of_str hu.1 hu.2

/-- A memory of more than one word has an address to write. -/
theorem exists_genExpectedUpdatesFile {dmemDepth : Int} (hdepth : 1 < dmemDepth)
    (stdin : List Char) : ∃ file, genExpectedUpdatesFile dmemDepth stdin = some file := by
  have heach : ∀ u ∈ expectedUpdates dmemDepth stdin, ∃ line, u.str = some line ∧
      u.IsLine u.dmemAddrWidth line := by
    intro u hmem
    have hu := accepted_of_mem hmem
    have hwidth : 0 < u.dmemAddrWidth := by
      rw [hu.width]
      exact Nat.clog_pos (by decide) (by omega)
    obtain ⟨line, hline⟩ := ExpectedUpdate.exists_str hu hwidth
    exact ⟨line, hline, ExpectedUpdate.isLine_of_str hu hline⟩
  obtain ⟨lines, hlines, -⟩ := exists_mapM heach
  refine ⟨unlines lines, ?_⟩
  unfold genExpectedUpdatesFile
  rw [hlines]
  rfl

section
variable {us : List ExpectedUpdate} {lines : List (List Char)}
  (h : List.Forall₂ (fun u line => u.IsLine u.dmemAddrWidth line) us lines)
include h

/-- No line of it has a newline in it. -/
theorem noNewline_of_isLine : ∀ line ∈ lines, '\n' ∉ line :=
  noNewline_of_forall₂ ExpectedUpdate.IsLine.noNewline h

/-- Each update has a line of its own. -/
theorem wcLines_unlines : wcLines (unlines lines) = us.length := by
  have hnl := noNewline_of_isLine h
  rw [h.length_eq]
  clear h
  unfold wcLines
  induction lines with
  | nil => rfl
  | cons line lines ih =>
    show ((line ++ ['\n']) ++ unlines lines).count '\n' = _
    rw [List.count_append, List.count_append, List.count_eq_zero.mpr (hnl line List.mem_cons_self),
      ih fun x hx => hnl x (List.mem_cons_of_mem line hx)]
    simp [Nat.add_comm]

end

/-! ### The bytes of the entries -/

/-- The bytes of some entries, one entry every eight addresses. -/
def entryWrites (offset : Nat) : List Nat → List (Nat × Nat)
  | [] => []
  | raw :: raws => HostcommProxy.bigEndianWrites offset raw 6 ++ entryWrites (offset + 8) raws

/-- The byte writes of the entries: six for each, the most significant byte first, and the entries
eight addresses apart. -/
theorem mem_entryWrites {raws : List Nat} {offset : Nat} {w : Nat × Nat} :
    w ∈ entryWrites offset raws ↔ ∃ i raw k, raws[i]? = some raw ∧ k < 6 ∧
      w = (offset + 8 * i + k, raw >>> (8 * (5 - k)) % 256) := by
  induction raws generalizing offset with
  | nil => simp [entryWrites]
  | cons raw raws ih =>
    rw [entryWrites, List.mem_append, ih]
    constructor
    · intro h
      rcases h with h | ⟨i, raw', k, hi, hk, rfl⟩
      · obtain ⟨k, hk, rfl⟩ := List.mem_map.mp h
        exact ⟨0, raw, k, rfl, List.mem_range.mp hk, rfl⟩
      · exact ⟨i + 1, raw', k, hi, hk, by congr 1; omega⟩
    · intro h
      obtain ⟨i, raw', k, hi, hk, rfl⟩ := h
      cases i with
      | zero =>
        obtain rfl := Option.some.inj hi
        exact Or.inl (List.mem_map.mpr ⟨k, List.mem_range.mpr hk, rfl⟩)
      | succ i => exact Or.inr ⟨i, raw', k, hi, hk, by congr 1; omega⟩

/-- A line of the second generator is one of these writes. -/
theorem isByteLine_expupdByteLine (offset raw i : Nat) :
    IsByteLine (expupdByteLine offset raw i) (offset + i, raw >>> (8 * (5 - i)) % 256) := by
  have h := isByteLine_hex (offset + i) [' '] (spells_formatX 2 (raw >>> (8 * (5 - i)) % 256))
    (List.cons_ne_nil _ _) isSpace_blank
  unfold expupdByteLine
  rw [List.append_assoc] at h ⊢
  exact h

/-- The second generator turns the lines of the first into the byte writes of their entries. -/
theorem fpgaExpupdLines_eq (offset : Nat) {lines : List (List Char)} {raws : List Nat}
    (h : List.Forall₂ (fun line (raw : Nat) => expupdVal line = some (raw : Int)) lines raws) :
    ∃ out, fpgaExpupdLines offset lines = some out ∧
      List.Forall₂ IsByteLine out (entryWrites offset raws) := by
  induction h generalizing offset with
  | nil => exact ⟨[], rfl, .nil⟩
  | @cons line raw lines raws hline _ ih =>
    obtain ⟨out, hout, hbytes⟩ := ih (offset + 8)
    refine ⟨(List.range 6).map (expupdByteLine offset raw) ++ out, ?_, ?_⟩
    · rw [fpgaExpupdLines, hline, hout]
      rfl
    · refine List.rel_append ?_ hbytes
      unfold HostcommProxy.bigEndianWrites
      rw [List.forall₂_map_left_iff, List.forall₂_map_right_iff, List.forall₂_same]
      exact fun i _ => isByteLine_expupdByteLine offset raw i

/-- The addresses of the expected-update memory. -/
theorem cellOf_expupdAddr {offset : Nat} (h : offset < 4096) :
    cellOf (BitVec.ofNat 16 (0x2000 + offset)) = some (.expupd (BitVec.ofNat 12 offset)) := by
  refine (cellOf_eq_some_iff _ (.expupd _)).mpr ⟨?_, ?_⟩
  · refine BitVec.eq_of_toNat_eq ?_
    rw [BitVec.extractLsb'_toNat, BitVec.toNat_ofNat, Nat.shiftRight_eq_div_pow]
    show (0x2000 + offset) % 65536 / 4096 % 16 = 2
    omega
  · refine BitVec.eq_of_toNat_eq ?_
    rw [BitVec.extractLsb'_toNat, BitVec.toNat_ofNat, BitVec.toNat_ofNat, Nat.shiftRight_zero]
    omega

/-- Up to 512 expected updates stay in their memory. -/
theorem expupdWrites_inside {updates : List ExpectedUpdate} (h : updates.length ≤ 512)
    {w : Nat × Nat} (hw : w ∈ HostcommProxy.based 0x2000
      (entryWrites 0 (updates.map ExpectedUpdate.raw))) :
    ∃ offset, cellOf (BitVec.ofNat 16 w.1) = some (.expupd offset) := by
  obtain ⟨w', hw', rfl⟩ := List.mem_map.mp hw
  obtain ⟨i, raw, k, hi, hk, rfl⟩ := mem_entryWrites.mp hw'
  have hlt := (List.getElem?_eq_some_iff.mp hi).1
  rw [List.length_map] at hlt
  exact ⟨_, cellOf_expupdAddr (by omega)⟩

/-- The commands that load the expected updates of a test. -/
theorem initExpectedUpdates_eq {dmemDepth : Int} {stdin file : List Char}
    (h : genExpectedUpdatesFile dmemDepth stdin = some file) :
    ∃ fpgaFile, genFpgaExpupdFile file = some fpgaFile ∧
      HostcommProxy.initExpectedUpdates fpgaFile = some (commands (HostcommProxy.based 0x2000
        (entryWrites 0 ((expectedUpdates dmemDepth stdin).map ExpectedUpdate.raw)))) := by
  obtain ⟨lines, rfl, hlines⟩ := genExpectedUpdatesFile_eq h
  have hvals : List.Forall₂ (fun line (raw : Nat) => expupdVal line = some (raw : Int)) lines
      ((expectedUpdates dmemDepth stdin).map ExpectedUpdate.raw) := by
    rw [List.forall₂_map_right_iff]
    exact hlines.flip.imp fun line u hline => hline.expupdVal_eq
  obtain ⟨out, hout, hbytes⟩ := fpgaExpupdLines_eq 0 hvals
  refine ⟨unlines out, ?_, HostcommProxy.initMem_unlines 0x2000 hbytes⟩
  unfold genFpgaExpupdFile
  rw [textLines_unlines (noNewline_of_isLine hlines), hout]
  rfl

end VivadoTest.Generator
