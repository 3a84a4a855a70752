import VivadoTest.Framework.SimInit
import VivadoTest.Proofs.InitialState
import VivadoTest.Proofs.InitMem
import VivadoTest.Proofs.InitStateUtil

/-!
# `VivadoTest.Proofs.InitialFiles`: the initial state on its way to the host

The dictionaries are printed as numerals of a fixed width, and a shell filter turns each file into
bytes with their addresses. The program is one long numeral, which is cut into bytes. In all three
files the bytes are those of some words (`wordWrites`).

* `initRegfile_eq`, `initDmem_eq`, `initImem_eq`: the commands that load the files.
* `fileBasedInit_eq`: the registers of the simulation.

## Printed and read back

On the way to the host a word is printed by Python, cut into fields or pairs of digits by a shell
filter, printed again by `awk`, and read by the host. Each of the three files has its own filter,
and for each there is a lemma about a line and one about the file: what a line is
(`IsRegisterLine`, `IsDmemEntry`, `IsHexPair`), that the generator prints such lines
(`exists_registerLines`, `exists_programPairs`), and that the filter makes the byte writes of them
(`flatMap_awkBytes_of_isWordLine`, `isByteLine_nl`).

A negative value is printed in two's complement, so what arrives is the value modulo `2 ^ 32`
(`ofNat_emod`).
-/

set_option autoImplicit false

namespace VivadoTest.Generator

open VivadoTest.Lib VivadoTest.Framework VivadoTest.Host

/-! ### Words -/

/-- The bytes of some words, each given by its word address and its value. -/
def wordWrites (ws : List (Nat × Nat)) : List (Nat × Nat) :=
  ws.flatMap fun w => HostcommProxy.bigEndianWrites (4 * w.1) w.2 4

/-- The byte writes of a list of words: four for each, the most significant byte at the lowest
address. -/
theorem mem_wordWrites {ws : List (Nat × Nat)} {x : Nat × Nat} :
    x ∈ wordWrites ws ↔ ∃ a v k, (a, v) ∈ ws ∧ k < 4 ∧
      x = (4 * a + k, v >>> (8 * (3 - k)) % 256) := by
  unfold wordWrites HostcommProxy.bigEndianWrites
  constructor
  · intro h
    obtain ⟨⟨a, v⟩, hw, hx⟩ := List.mem_flatMap.mp h
    obtain ⟨k, hk, rfl⟩ := List.mem_map.mp hx
    exact ⟨a, v, k, hw, List.mem_range.mp hk, rfl⟩
  · intro h
    obtain ⟨a, v, k, hw, hk, rfl⟩ := h
    exact List.mem_flatMap.mpr ⟨(a, v), hw, List.mem_map.mpr ⟨k, List.mem_range.mpr hk, rfl⟩⟩

/-- The entries of a dictionary as the board is to hold them. -/
def dictWords (d : Dict) : List (Nat × Nat) :=
  d.toList.map fun e => (e.1.toNat, (e.2 % 2 ^ 32).toNat)

/-- The words that the filters find in the file of a dictionary. That of an empty one is an empty
line, which they take for the word 0 at address 0. -/
def printedWords (d : Dict) : List (Nat × Nat) :=
  if d.toList = [] then [(0, 0)] else dictWords d

/-- The instructions of a program. -/
def programWords (program : List (BitVec 32)) : List (Nat × Nat) :=
  program.zipIdx.map fun (word, k) => (k, word.toNat)

/-- The `awk` loop prints the four byte writes of a word. -/
theorem isByteLine_awkBytes (a v : Nat) :
    List.Forall₂ IsByteLine (awkBytes a v) (HostcommProxy.bigEndianWrites (4 * a) v 4) := by
  unfold awkBytes HostcommProxy.bigEndianWrites
  rw [List.forall₂_map_left_iff, List.forall₂_map_right_iff, List.forall₂_same]
  intro i _
  have hmask : (v >>> (8 * (3 - i))) &&& 0xFF = v >>> (8 * (3 - i)) % 256 :=
    Nat.and_two_pow_sub_one_eq_mod _ 8
  rw [hmask]
  exact isByteLine_decimal _ _

/-- What the two `awk` programs print for some words. -/
theorem isByteLine_flatMap_awkBytes (ws : List (Nat × Nat)) :
    List.Forall₂ IsByteLine (ws.flatMap fun w => awkBytes w.1 w.2) (wordWrites ws) := by
  induction ws with
  | nil => exact .nil
  | cons w ws ih => exact List.rel_append (isByteLine_awkBytes w.1 w.2) ih

/-- The fields of a line as `awk` reads them, the first one by `address`. -/
def IsWordLine (address : List Char → Nat) (w : Nat × Nat) (line : List Char) : Prop :=
  address (Shell.field 1 line) = w.1 ∧ Shell.strtonumHex (Shell.field 2 line) = w.2

/-- Over a file it prints those of all its words, provided that the fields of each line are read
as the word. -/
theorem flatMap_awkBytes_of_isWordLine {address : List Char → Nat} {ws : List (Nat × Nat)}
    {lines : List (List Char)} (h : List.Forall₂ (IsWordLine address) ws lines) :
    (lines.flatMap fun line => awkBytes (address (Shell.field 1 line))
        (Shell.strtonumHex (Shell.field 2 line)))
      = ws.flatMap fun w => awkBytes w.1 w.2 := by
  induction h with
  | nil => rfl
  | cons hline _ ih => rw [List.flatMap_cons, List.flatMap_cons, hline.1, hline.2, ih]

/-- An empty line. -/
theorem isWordLine_nil {address : List Char → Nat} (h : address [] = 0) :
    IsWordLine address (0, 0) [] := ⟨h, rfl⟩

/-- A line of two numerals. -/
theorem isWordLine_pair {address : List Char → Nat} {b : Nat} {addr hex : List Char} {a v : Nat}
    (hread : ∀ {cs n}, Spells b cs n → address cs = n) (haddr : Spells b addr a)
    (hhex : Spells 16 hex v) : IsWordLine address (a, v) (addr ++ ' ' :: hex) := by
  obtain ⟨h1, h2⟩ := Shell.field_pair haddr.ne_nil hhex.ne_nil (Shell.isBlank_of_spells haddr)
    (Shell.isBlank_of_spells hhex)
  unfold IsWordLine
  rw [h1, h2]
  exact ⟨hread haddr, Shell.strtonumHex_of_spells hhex⟩

/-! ### The registers -/

/-- A line of the file of the registers. -/
def IsRegisterLine (e : Int × Int) (line : List Char) : Prop :=
  ∃ hex, line = Nat.toDigits 10 e.1.toNat ++ ' ' :: hex ∧ Spells 16 hex (e.2 % 2 ^ 32).toNat ∧
    hex.length = 8

/-- The generator can print an entry for a register. It is one line of an index and the
hexadecimal word. -/
theorem exists_registerLine {r value : Int} (hr : 0 ≤ r) (hv : Is32Bit value) :
    ∃ line, RegisterState.line r value = some line ∧ IsRegisterLine (r, value) line := by
  obtain ⟨hex, hhex, hlen, hspells⟩ :=
    exists_fixedWidthHex 7 hv.1 (Int.lt_of_le_sub_one hv.2)
  obtain ⟨n, rfl⟩ := Int.eq_ofNat_of_zero_le hr
  have hdigits : (toString (n : Int)).toList = Nat.toDigits 10 n := by
    show (Nat.repr n).toList = _
    exact Nat.toList_repr
  refine ⟨Nat.toDigits 10 n ++ ' ' :: hex, ?_, hex, rfl, hspells, hlen⟩
  unfold RegisterState.line
  rw [hdigits, hhex]
  simp

/-- The line is one line. -/
theorem IsRegisterLine.noNewline {e : Int × Int} {line : List Char} (h : IsRegisterLine e line) :
    '\n' ∉ line := by
  obtain ⟨hex, rfl, hhex, -⟩ := h
  have hdigits := spells_toDigits (b := 10) (by decide) (by decide) e.1.toNat
  simp only [List.mem_append, List.mem_cons, not_or]
  exact ⟨hdigits.not_mem (by decide), by decide, hhex.not_mem (by decide)⟩

/-- `awk` reads it as the word at the index. A negative value has become its two's complement by
then. -/
theorem IsRegisterLine.isWordLine {e : Int × Int} {line : List Char} (h : IsRegisterLine e line) :
    IsWordLine Shell.number (e.1.toNat, (e.2 % 2 ^ 32).toNat) line := by
  obtain ⟨hex, rfl, hhex, -⟩ := h
  exact isWordLine_pair Shell.number_of_spells (spells_toDigits (by decide) (by decide) _) hhex

/-- The dictionary holds values of registers. -/
def HoldsRegisters (d : Dict) : Prop := ∀ e ∈ d.toList, (1 ≤ e.1 ∧ e.1 ≤ 31) ∧ Is32Bit e.2

/-- The lines of the file of the registers. -/
theorem exists_registerLines {d : Dict} (hd : HoldsRegisters d) :
    ∃ lines, RegisterState.str d = some (['\n'].intercalate lines) ∧
      List.Forall₂ IsRegisterLine d.toList lines := by
  have heach : ∀ e ∈ d.toList, ∃ line, RegisterState.line e.1 e.2 = some line ∧
      IsRegisterLine e line := by
    intro e he
    exact exists_registerLine (Int.le_trans (by decide) (hd e he).1.1) (hd e he).2
  obtain ⟨lines, hlines, hall⟩ := exists_mapM heach
  refine ⟨lines, ?_, hall⟩
  show (d.toList.mapM fun e => RegisterState.line e.1 e.2).bind _ = _
  rw [hlines]
  rfl

/-- The lines of a printed file. -/
theorem intercalate_newline_eq (lines : List (List Char)) :
    ['\n'].intercalate lines ++ ['\n'] = unlines (if lines = [] then [[]] else lines) := by
  split
  · next h =>
    rw [h]
    rfl
  · next h => exact intercalate_append_newline h

/-- The lines that the filter of the registers reads. -/
theorem isWordLine_of_registerLines {d : Dict} {lines : List (List Char)}
    (h : List.Forall₂ IsRegisterLine d.toList lines) :
    List.Forall₂ (IsWordLine Shell.number) (printedWords d)
      (if lines = [] then [[]] else lines) := by
  unfold printedWords dictWords
  by_cases hnil : d.toList = []
  · rw [hnil, List.forall₂_nil_left_iff] at h
    rw [if_pos hnil, if_pos h]
    exact .cons (isWordLine_nil rfl) .nil
  · have hlines : lines ≠ [] := by
      rintro rfl
      exact hnil (List.forall₂_nil_right_iff.mp h)
    rw [if_neg hnil, if_neg hlines, List.forall₂_map_left_iff]
    exact h.imp fun e line hline => hline.isWordLine

/-- The commands that load the registers. -/
theorem initRegfile_eq {d : Dict} {lines : List (List Char)}
    (h : List.Forall₂ IsRegisterLine d.toList lines) :
    HostcommProxy.initRegfile (genFpgaInitRegfile (['\n'].intercalate lines ++ ['\n']))
      = some (commands (HostcommProxy.based 0x3000 (wordWrites (printedWords d)))) := by
  have hnl : ∀ line ∈ (if lines = [] then [[]] else lines), '\n' ∉ line := by
    split
    · intro line hline
      rw [List.mem_singleton.mp hline]
      exact List.not_mem_nil
    · exact noNewline_of_forall₂ IsRegisterLine.noNewline h
  unfold genFpgaInitRegfile
  rw [intercalate_newline_eq, textLines_unlines hnl,
    flatMap_awkBytes_of_isWordLine (isWordLine_of_registerLines h)]
  exact HostcommProxy.initMem_unlines 0x3000 (isByteLine_flatMap_awkBytes _)

/-- A value modulo `2 ^ 32` as a word. -/
theorem ofNat_emod (value : Int) :
    BitVec.ofNat 32 (value % 2 ^ 32).toNat = BitVec.ofInt 32 value := by
  refine BitVec.eq_of_toNat_eq ?_
  rw [BitVec.toNat_ofNat, BitVec.toNat_ofInt]
  omega

/-- The simulation reads a line of the file. -/
theorem IsRegisterLine.initLine {e : Int × Int} {line : List Char} (h : IsRegisterLine e line)
    (h0 : 0 ≤ e.1) (hlt : e.1 < 32) (rf : Regfile) :
    rf.initLine line = some (Function.update rf (BitVec.ofInt 5 e.1) (BitVec.ofInt 32 e.2)) := by
  obtain ⟨hex, rfl, hhex, hlen⟩ := h
  have hread : TextIO.hread 32 hex = some (BitVec.ofNat 32 (e.2 % 2 ^ 32).toNat, []) := by
    have hspells := TextIO.hread_spells (w := 32) hhex hlen []
    rwa [List.append_nil] at hspells
  unfold Regfile.initLine
  rw [if_neg (by simp)]
  simp only [Option.bind_eq_bind,
    TextIO.readInteger_toDigits e.1.toNat (show digitValue ' ' = none by decide),
    Option.bind_some, TextIO.readCharacter, hread, guard, ofNat_emod, Int.toNat_of_nonneg h0,
    if_pos (And.intro h0 hlt)]
  rfl

/-- The registers of the simulation, one update for each entry. -/
theorem foldlM_initLine {es : List (Int × Int)} {lines : List (List Char)}
    (h : List.Forall₂ IsRegisterLine es lines) (hes : ∀ e ∈ es, 0 ≤ e.1 ∧ e.1 < 32) (rf : Regfile) :
    lines.foldlM Regfile.initLine rf = some (es.foldl
      (fun rf e => Function.update rf (BitVec.ofInt 5 e.1) (BitVec.ofInt 32 e.2)) rf) := by
  induction h generalizing rf with
  | nil => rfl
  | @cons e line es lines hline _ ih =>
    obtain ⟨h0, hlt⟩ := hes e List.mem_cons_self
    rw [List.foldlM_cons, hline.initLine h0 hlt, List.foldl_cons]
    exact ih (fun e' he' => hes e' (List.mem_cons_of_mem e he')) _

/-- The registers of the simulation. -/
theorem fileBasedInit_eq {stdin : List Char} {lines : List (List Char)} {d : Dict}
    (hd : ∀ {r value : Int}, (r, value) ∈ d.toList ↔ lastRegisterValue stdin r = some value)
    (h : List.Forall₂ IsRegisterLine d.toList lines) :
    Regfile.fileBasedInit (['\n'].intercalate lines ++ ['\n']) = some (statedRegister stdin) := by
  have hrange : ∀ e ∈ d.toList, (1 ≤ e.1 ∧ e.1 ≤ 31) ∧ Is32Bit e.2 :=
    fun e he => register_inRange (hd.mp he)
  have hloop := foldlM_initLine h (fun e he => by have := hrange e he; omega) fun _ => 0
  -- The file is read line by line. An empty dictionary is printed as one empty line, which is
  -- skipped.
  have hlines : Regfile.fileBasedInit (['\n'].intercalate lines ++ ['\n'])
      = lines.foldlM Regfile.initLine fun _ => 0 := by
    unfold Regfile.fileBasedInit
    rw [intercalate_newline_eq]
    split
    · next hnil =>
      rw [hnil]
      rfl
    · rw [textLines_unlines (noNewline_of_forall₂ IsRegisterLine.noNewline h)]
  rw [hlines, hloop]
  congr 1
  funext r
  have hr : (r.toNat : Int) < 32 := by have := r.isLt; omega
  -- an entry for `r` has the number `r`
  have hkey : ∀ e ∈ d.toList, BitVec.ofInt 5 e.1 = r ↔ e.1 = r.toNat := by
    intro e he
    have hrange := (hrange e he).1
    rw [← BitVec.toNat_inj, BitVec.toNat_ofInt]
    omega
  unfold statedRegister
  -- A register with an entry gets its value, which is the only one for its number; any other keeps
  -- its zero.
  cases hlast : lastRegisterValue stdin r.toNat with
  | some value =>
    refine foldl_update_of_mem (k := fun e : Int × Int => BitVec.ofInt 5 e.1)
      (hd.mpr hlast) (by simp) fun e he hek => ?_
    obtain ⟨r', value'⟩ := e
    obtain rfl : r' = r.toNat := (hkey _ he).mp hek
    obtain rfl := Option.some.inj ((hd.mp he).symm.trans hlast)
    rfl
  | none =>
    refine foldl_update_of_not_mem (k := fun e : Int × Int => BitVec.ofInt 5 e.1) fun e he hek => ?_
    obtain ⟨r', value'⟩ := e
    obtain rfl : r' = r.toNat := (hkey _ he).mp hek
    exact absurd ((hd.mp he).symm.trans hlast) (by simp)

/-! ### The data memory -/

/-- The two lines of an entry of the file of the data memory. The value has nine digits, which the
filter cuts down to eight. -/
def IsDmemEntry (e : Int × Int) (lines : List Char × List Char) : Prop :=
  ∃ addr digit hex, lines = ('@' :: addr, digit :: hex) ∧ Spells 16 addr e.1.toNat ∧
    Spells 16 hex (e.2 % 2 ^ 32).toNat ∧ digit ≠ '\n'

/-- The generator can print an entry for the data memory. It is two lines, an address with `@` in
front and a word of nine digits. -/
theorem exists_dmemEntry {a value : Int} (ha : 0 ≤ a) (ha' : a < 2 ^ 32) (hlo : -(2 ^ 31) ≤ value)
    (hhi : value ≤ 2 ^ 32) :
    ∃ lines : List Char × List Char, DmemState.line a value = some (lines.1 ++ '\n' :: lines.2) ∧
      IsDmemEntry (a, value) lines := by
  have halo : -(2 ^ (4 * 7 + 3)) ≤ a := by omega
  obtain ⟨addr, haddr, -, hspells⟩ := exists_fixedWidthHex 7 halo ha'
  have hlo9 : -(2 ^ (4 * 8 + 3)) ≤ value := by omega
  have hhi9 : value < 2 ^ (4 * (8 + 1)) := by omega
  obtain ⟨hex9, hhex, hlen, hspells9⟩ := exists_fixedWidthHex 8 hlo9 hhi9
  obtain ⟨digit, hex, rfl⟩ := List.exists_cons_of_length_eq_add_one hlen
  have hlen8 : hex.length = 8 := by simpa using hlen
  have hdigits : Spells 16 ([digit] ++ hex) (value % 2 ^ (4 * (8 + 1))).toNat := hspells9
  -- Of the nine digits the filter keeps the lower eight, the value modulo `2 ^ 32`.
  obtain ⟨hdigit, hlow⟩ := hdigits.split (List.cons_ne_nil _ _)
    (List.ne_nil_of_length_eq_add_one hlen8)
  refine ⟨('@' :: addr, digit :: hex), ?_, addr, digit, hex, rfl, ?_, ?_, ?_⟩
  · unfold DmemState.line
    rw [haddr, hhex]
    simp
  · rw [Int.emod_eq_of_lt ha (by omega)] at hspells
    exact hspells
  · rw [hlen8] at hlow
    have hval : (value % 2 ^ (4 * (8 + 1))).toNat % 16 ^ 8 = (value % 2 ^ 32).toNat := by omega
    rwa [hval] at hlow
  · rintro rfl
    exact hdigit.not_mem (show digitValue '\n' = none by decide) List.mem_cons_self

/-- The dictionary holds values of data memory words. -/
def HoldsDmem (d : Dict) : Prop :=
  ∀ e ∈ d.toList, (0 ≤ e.1 ∧ e.1 < 2 ^ 32) ∧ -(2 ^ 31) ≤ e.2 ∧ e.2 ≤ 2 ^ 32

/-- The lines of the file of the data memory. -/
def dmemLines (entries : List (List Char × List Char)) : List (List Char) :=
  entries.flatMap fun lines => [lines.1, lines.2]

/-- The generator can print the whole dictionary, entry by entry. -/
theorem exists_dmemEntries {d : Dict} (hd : HoldsDmem d) :
    ∃ entries, DmemState.str d = some (['\n'].intercalate
        (entries.map fun lines => lines.1 ++ '\n' :: lines.2)) ∧
      List.Forall₂ IsDmemEntry d.toList entries := by
  have heach : ∀ e ∈ d.toList, ∃ text, DmemState.line e.1 e.2 = some text ∧
      ∃ lines, text = lines.1 ++ '\n' :: lines.2 ∧ IsDmemEntry e lines := by
    intro e he
    obtain ⟨lines, hline, hentry⟩ := exists_dmemEntry (hd e he).1.1 (hd e he).1.2 (hd e he).2.1
      (hd e he).2.2
    exact ⟨_, hline, lines, rfl, hentry⟩
  obtain ⟨texts, htexts, hall⟩ := exists_mapM heach
  have hentries : ∃ entries, texts = entries.map (fun lines => lines.1 ++ '\n' :: lines.2) ∧
      List.Forall₂ IsDmemEntry d.toList entries := by
    clear htexts heach
    generalize d.toList = es at hall
    induction hall with
    | nil => exact ⟨[], rfl, .nil⟩
    | cons hfirst _ ih =>
      obtain ⟨lines, rfl, hentry⟩ := hfirst
      obtain ⟨entries, rfl, hrest⟩ := ih
      exact ⟨lines :: entries, rfl, .cons hentry hrest⟩
  obtain ⟨entries, rfl, hentries⟩ := hentries
  refine ⟨entries, ?_, hentries⟩
  show (d.toList.mapM fun e => DmemState.line e.1 e.2).bind _ = _
  rw [htexts]
  rfl

/-- The file is the lines of its entries, two for each. -/
theorem unlines_dmemEntries (entries : List (List Char × List Char)) :
    unlines (entries.map fun lines => lines.1 ++ '\n' :: lines.2) =
      unlines (dmemLines entries) := by
  unfold unlines dmemLines
  rw [List.flatMap_map, List.flatMap_assoc]
  simp

/-- Neither line of an entry has a newline in it. -/
theorem IsDmemEntry.noNewline {e : Int × Int} {lines : List Char × List Char}
    (h : IsDmemEntry e lines) : '\n' ∉ lines.1 ∧ '\n' ∉ lines.2 := by
  obtain ⟨addr, digit, hex, rfl, haddr, hhex, hdigit⟩ := h
  have hnl : digitValue '\n' = none := by decide
  simp only [List.mem_cons, not_or]
  exact ⟨⟨by decide, haddr.not_mem hnl⟩, hdigit.symm, hhex.not_mem hnl⟩

/-- What `cut` leaves of the two lines of an entry. -/
def cutEntry (lines : List Char × List Char) : List Char × List Char :=
  (lines.1.drop 1, lines.2.drop 1)

section
variable {es : List (Int × Int)} {entries : List (List Char × List Char)}

/-- No line of the file has. -/
theorem noNewline_dmemLines (h : List.Forall₂ IsDmemEntry es entries) :
    ∀ line ∈ dmemLines entries, '\n' ∉ line := by
  induction h with
  | nil => exact fun line hline => absurd hline List.not_mem_nil
  | cons hfirst _ ih =>
    intro line hline
    obtain ⟨h1, h2⟩ := hfirst.noNewline
    rcases List.mem_append.mp hline with hline | hline
    · rcases List.mem_cons.mp hline with rfl | hline
      · exact h1
      · rw [List.mem_singleton.mp hline]
        exact h2
    · exact ih line hline

/-- `cut` takes the first character off every line: the `@` off the addresses, and the ninth digit
off the words, which are printed with 36 bits. -/
theorem cut_dmemLines (h : List.Forall₂ IsDmemEntry es entries) :
    Shell.cut (unlines (dmemLines entries)) = unlines (dmemLines (entries.map cutEntry)) := by
  unfold Shell.cut
  rw [textLines_unlines (noNewline_dmemLines h)]
  unfold dmemLines
  rw [List.map_flatMap, List.flatMap_map]
  rfl

/-- The items of the file are numerals. -/
theorem item_of_mem_dmemLines (h : List.Forall₂ IsDmemEntry es entries) {item : List Char}
    (hitem : item ∈ dmemLines (entries.map cutEntry)) :
    item ≠ [] ∧ ∀ c ∈ item, Shell.isBlank c = false := by
  induction h with
  | nil => exact absurd hitem List.not_mem_nil
  | cons hfirst _ ih =>
    obtain ⟨addr, digit, hex, rfl, haddr, hhex, -⟩ := hfirst
    rcases List.mem_append.mp hitem with hitem | hitem
    · rcases List.mem_cons.mp hitem with rfl | hitem
      · exact ⟨haddr.ne_nil, Shell.isBlank_of_spells haddr⟩
      · rw [List.mem_singleton.mp hitem]
        exact ⟨hhex.ne_nil, Shell.isBlank_of_spells hhex⟩
    · exact ih hitem

/-- The lines of two items that `xargs` makes. -/
theorem xargs_dmemLines (h : List.Forall₂ IsDmemEntry es entries) (hne : entries ≠ []) :
    Shell.xargs (unlines (dmemLines (entries.map cutEntry)))
      = unlines ((entries.map cutEntry).map fun p => p.1 ++ ' ' :: p.2) := by
  have hwords : wordsBy Shell.isBlank (unlines (dmemLines (entries.map cutEntry)))
      = dmemLines (entries.map cutEntry) :=
    wordsBy_unlines (by decide) (fun item hitem => (item_of_mem_dmemLines h hitem).1)
      fun item hitem => (item_of_mem_dmemLines h hitem).2
  obtain ⟨first, rest, rfl⟩ := List.exists_cons_of_ne_nil hne
  have hpairs := Shell.xargsPairs_flatMap ((first :: rest).map cutEntry)
  unfold Shell.xargs
  rw [hwords, ← hpairs]
  rfl

/-- The two cut lines, which `xargs` puts on one, are one line. -/
theorem IsDmemEntry.noNewline_cut {e : Int × Int} {lines : List Char × List Char}
    (h : IsDmemEntry e lines) : '\n' ∉ (cutEntry lines).1 ++ ' ' :: (cutEntry lines).2 := by
  obtain ⟨h1, h2⟩ := h.noNewline
  simp only [List.mem_append, List.mem_cons, not_or]
  exact ⟨fun hmem => h1 (List.mem_of_mem_drop hmem), by decide,
    fun hmem => h2 (List.mem_of_mem_drop hmem)⟩

/-- `awk` reads it as the word at its address. -/
theorem IsDmemEntry.isWordLine {e : Int × Int} {lines : List Char × List Char}
    (h : IsDmemEntry e lines) : IsWordLine Shell.strtonumHex (e.1.toNat, (e.2 % 2 ^ 32).toNat)
      ((cutEntry lines).1 ++ ' ' :: (cutEntry lines).2) := by
  obtain ⟨addr, digit, hex, rfl, haddr, hhex, -⟩ := h
  exact isWordLine_pair Shell.strtonumHex_of_spells haddr hhex

end

/-- The lines that the filter of the data memory reads. -/
theorem textLines_xargs_dmem {d : Dict} {entries : List (List Char × List Char)}
    (h : List.Forall₂ IsDmemEntry d.toList entries) :
    List.Forall₂ (IsWordLine Shell.strtonumHex) (printedWords d) (textLines (Shell.xargs (Shell.cut
      (['\n'].intercalate (entries.map fun lines => lines.1 ++ '\n' :: lines.2) ++ ['\n'])))) := by
  unfold printedWords dictWords
  by_cases hnil : d.toList = []
  · rw [hnil, List.forall₂_nil_left_iff] at h
    rw [if_pos hnil, h]
    exact .cons (isWordLine_nil rfl) .nil
  · have hne : entries ≠ [] := by
      rintro rfl
      exact hnil (List.forall₂_nil_right_iff.mp h)
    have hnl : ∀ line ∈ (entries.map cutEntry).map fun p => p.1 ++ ' ' :: p.2, '\n' ∉ line := by
      have hall : List.Forall₂ (fun _ line => '\n' ∉ line) d.toList
          ((entries.map cutEntry).map fun p => p.1 ++ ' ' :: p.2) := by
        rw [List.map_map, List.forall₂_map_right_iff]
        exact h.imp fun e lines hentry => hentry.noNewline_cut
      exact noNewline_of_forall₂ id hall
    rw [intercalate_append_newline (by simpa using hne), unlines_dmemEntries, cut_dmemLines h,
      xargs_dmemLines h hne, textLines_unlines hnl, if_neg hnil, List.map_map,
      List.forall₂_map_left_iff, List.forall₂_map_right_iff]
    exact h.imp fun e lines hentry => hentry.isWordLine

/-- The commands that load the data memory. -/
theorem initDmem_eq {d : Dict} {entries : List (List Char × List Char)}
    (h : List.Forall₂ IsDmemEntry d.toList entries) :
    HostcommProxy.initDmem (genFpgaInitDmem
        (['\n'].intercalate (entries.map fun lines => lines.1 ++ '\n' :: lines.2) ++ ['\n']))
      = some (commands (HostcommProxy.based 0x8000 (wordWrites (printedWords d)))) := by
  unfold genFpgaInitDmem
  rw [flatMap_awkBytes_of_isWordLine (textLines_xargs_dmem h)]
  exact HostcommProxy.initMem_unlines 0x8000 (isByteLine_flatMap_awkBytes _)

/-! ### The program -/

/-- The bytes of a word, the most significant one first. -/
def wordBytes (v : Nat) : List Nat := (List.range 4).map fun k => v >>> (8 * (3 - k)) % 256

/-- Two hexadecimal digits of a byte. -/
def IsHexPair (x : Nat) (pair : List Char) : Prop := Spells 16 pair x ∧ pair.length = 2

/-- A numeral of eight digits, cut into pairs. -/
theorem exists_hexPairs {cs : List Char} {v : Nat} (h : Spells 16 cs v) (hlen : cs.length = 8) :
    ∃ pairs : List (List Char), pairs.flatten = cs ∧
      List.Forall₂ IsHexPair (wordBytes v) pairs := by
  match cs, hlen with
  | [c0, c1, c2, c3, c4, c5, c6, c7], _ =>
    have hlt : v < 16 ^ 8 := h.lt
    -- Two digits are cut off at the low end, three times.
    have hcut6 : Spells 16 ([c0, c1, c2, c3, c4, c5] ++ [c6, c7]) v := h
    obtain ⟨h6, hp3⟩ := hcut6.split (List.cons_ne_nil _ _) (List.cons_ne_nil _ _)
    have hcut4 : Spells 16 ([c0, c1, c2, c3] ++ [c4, c5]) _ := h6
    obtain ⟨h4, hp2⟩ := hcut4.split (List.cons_ne_nil _ _) (List.cons_ne_nil _ _)
    have hcut2 : Spells 16 ([c0, c1] ++ [c2, c3]) _ := h4
    obtain ⟨hp0, hp1⟩ := hcut2.split (List.cons_ne_nil _ _) (List.cons_ne_nil _ _)
    have hbytes : wordBytes v = [v / 16 ^ 2 / 16 ^ 2 / 16 ^ 2, v / 16 ^ 2 / 16 ^ 2 % 16 ^ 2,
        v / 16 ^ 2 % 16 ^ 2, v % 16 ^ 2] := by
      have h0 : v >>> 24 % 256 = v / 16 ^ 2 / 16 ^ 2 / 16 ^ 2 := by
        rw [Nat.shiftRight_eq_div_pow]
        omega
      have h1 : v >>> 16 % 256 = v / 16 ^ 2 / 16 ^ 2 % 16 ^ 2 := by
        rw [Nat.shiftRight_eq_div_pow]
        omega
      have h2 : v >>> 8 % 256 = v / 16 ^ 2 % 16 ^ 2 := by
        rw [Nat.shiftRight_eq_div_pow]
        omega
      show [v >>> 24 % 256, v >>> 16 % 256, v >>> 8 % 256, v >>> 0 % 256] = _
      rw [h0, h1, h2]
      rfl
    refine ⟨[[c0, c1], [c2, c3], [c4, c5], [c6, c7]], rfl, ?_⟩
    rw [hbytes]
    exact .cons ⟨hp0, rfl⟩ (.cons ⟨hp1, rfl⟩ (.cons ⟨hp2, rfl⟩ (.cons ⟨hp3, rfl⟩ .nil)))

/-- `od` prints a word in eight hexadecimal digits. -/
theorem spells_odWord (word : BitVec 32) :
    Spells 16 (odWord word) word.toNat ∧ (odWord word).length = 8 := by
  have hlt : word.toNat < 16 ^ 8 := word.isLt
  exact ⟨(spells_toDigits (by decide) (by decide) _).leftpad (by decide) 8,
    length_leftpad_toDigits (by decide) (by decide) hlt⟩

/-- The program, each word cut into pairs of digits. -/
theorem exists_programPairs (program : List (BitVec 32)) :
    ∃ words : List (List (List Char)), words.map List.flatten = program.map odWord ∧
      List.Forall₂ (fun word pairs => List.Forall₂ IsHexPair (wordBytes word.toNat) pairs)
        program words := by
  induction program with
  | nil => exact ⟨[], rfl, .nil⟩
  | cons word program ih =>
    obtain ⟨words, hflatten, hall⟩ := ih
    obtain ⟨hspells, hlen⟩ := spells_odWord word
    obtain ⟨pairs, hpairs, hbytes⟩ := exists_hexPairs hspells hlen
    refine ⟨pairs :: words, ?_, .cons hbytes hall⟩
    rw [List.map_cons, List.map_cons, hpairs, hflatten]

/-- What `fold` asks of the pairs. -/
theorem hexPairs_of_words {program : List (BitVec 32)} {words : List (List (List Char))}
    (h : List.Forall₂ (fun word pairs => List.Forall₂ IsHexPair (wordBytes word.toNat) pairs)
      program words) :
    ∀ pairs ∈ words, pairs ≠ [] ∧ ∀ pair ∈ pairs, pair.length = 2 ∧ '\n' ∉ pair := by
  intro pairs hmem
  obtain ⟨word, -, hpairs⟩ := exists_of_mem_forall₂ h hmem
  refine ⟨?_, fun pair hp => ?_⟩
  · rintro rfl
    exact absurd (List.forall₂_nil_right_iff.mp hpairs) (by simp [wordBytes])
  · obtain ⟨x, -, hpair⟩ := exists_of_mem_forall₂ hpairs hp
    exact ⟨hpair.2, hpair.1.not_mem (by decide)⟩

/-- The pairs of the program in one row. -/
theorem forall₂_flatten_words {program : List (BitVec 32)} {words : List (List (List Char))}
    (h : List.Forall₂ (fun word pairs => List.Forall₂ IsHexPair (wordBytes word.toNat) pairs)
      program words) :
    List.Forall₂ IsHexPair (program.flatMap fun word => wordBytes word.toNat) words.flatten := by
  induction h with
  | nil => exact .nil
  | cons hfirst _ ih => exact List.rel_append hfirst ih

/-- The numbered lines of some pairs. -/
theorem isByteLine_nl {bytes : List Nat} {pairs : List (List Char)}
    (h : List.Forall₂ IsHexPair bytes pairs) (number : Nat) :
    List.Forall₂ IsByteLine
      (Shell.nl number (pairs.map fun pair => "0x".toList ++ Shell.field 1 pair))
      ((bytes.zipIdx number).map Prod.swap) := by
  induction h generalizing number with
  | nil => exact .nil
  | @cons x pair bytes pairs hpair _ ih =>
    have hfield : Shell.field 1 pair = pair := by
      unfold Shell.field
      rw [wordsBy_singleton hpair.1.ne_nil (Shell.isBlank_of_spells hpair.1)]
      rfl
    have hline : "0x".toList ++ Shell.field 1 pair = '0' :: 'x' :: pair := by
      rw [hfield]
      rfl
    rw [List.map_cons, hline, Shell.nl, if_neg (List.cons_ne_nil _ _), List.zipIdx_cons,
      List.map_cons]
    refine .cons ⟨?_, ?_⟩ (ih (number + 1))
    · exact Shell.noNewline_nlLine number (by
        rw [List.mem_cons, List.mem_cons, not_or, not_or]
        exact ⟨by decide, by decide, hpair.1.not_mem (by decide)⟩)
    · exact ⟨_, _, Shell.words_nlLine number (List.cons_ne_nil _ _) (isSpace_hexLiteral hpair.1),
        pyInt_toDigits number, pyInt_hex hpair.1⟩

/-- The bytes of the program with their addresses. -/
theorem zipIdx_programBytes (program : List (BitVec 32)) :
    ((program.flatMap fun word => wordBytes word.toNat).zipIdx 0).map Prod.swap
      = wordWrites (programWords program) := by
  -- The induction needs the number of words in front.
  suffices h : ∀ k,
    ((program.flatMap fun word => wordBytes word.toNat).zipIdx (4 * k)).map Prod.swap
      = wordWrites ((program.zipIdx k).map fun (word, k) => (k, word.toNat)) from h 0
  intro k
  induction program generalizing k with
  | nil => rfl
  | cons word program ih =>
    rw [List.flatMap_cons, List.zipIdx_append, List.map_append]
    have hlen : (wordBytes word.toNat).length = 4 := by simp [wordBytes]
    rw [hlen, show 4 * k + 4 = 4 * (k + 1) by omega, ih]
    rfl

/-- The commands that load the program. -/
theorem initImem_eq (program : List (BitVec 32)) :
    HostcommProxy.initImem (genFpgaInitImem (genInitImemFile program))
      = some (commands (HostcommProxy.based 0xC000 (wordWrites (programWords program)))) := by
  obtain ⟨words, hflatten, hwords⟩ := exists_programPairs program
  have hpairs := forall₂_flatten_words hwords
  have hnl : digitValue '\n' = none := by decide
  -- one line of nine digits for each instruction, the first of which is cut
  have hblocks : genInitImemFile program
      = (program.map fun word => '0' :: odWord word).flatten := by
    unfold genInitImemFile
    rw [List.flatMap_def]
  have hfold9 : textLines (Shell.fold 9 0 (genInitImemFile program))
      = program.map fun word => '0' :: odWord word := by
    rw [hblocks]
    refine Shell.textLines_fold (by decide) ?_ ?_
    · intro block hblock
      obtain ⟨word, -, rfl⟩ := List.mem_map.mp hblock
      rw [List.length_cons, (spells_odWord word).2]
    · intro block hblock
      obtain ⟨word, -, rfl⟩ := List.mem_map.mp hblock
      have hword := (spells_odWord word).1.not_mem hnl
      simp [hword]
  have hcut : Shell.cut (Shell.fold 9 0 (genInitImemFile program))
      = unlines (words.map List.flatten) := by
    unfold Shell.cut
    rw [hfold9, hflatten, List.map_map]
    rfl
  -- one line of two digits for each byte
  have hfold2 : textLines (Shell.fold 2 0 (unlines (words.map List.flatten))) = words.flatten := by
    have hpair : ∀ pairs ∈ words, pairs ≠ [] ∧ ∀ pair ∈ pairs, pair.length = 2 ∧ '\n' ∉ pair :=
      hexPairs_of_words hwords
    rw [Shell.fold_unlines (by decide) (fun pairs hmem => (hpair pairs hmem).1)
      (fun pairs hmem pair hp => ((hpair pairs hmem).2 pair hp).1)
      fun pairs hmem pair hp => ((hpair pairs hmem).2 pair hp).2]
    refine textLines_unlines fun pair hp => ?_
    obtain ⟨pairs, hmem, hp⟩ := List.mem_flatten.mp hp
    exact ((hpair pairs hmem).2 pair hp).2
  unfold genFpgaInitImem
  rw [hcut, hfold2]
  refine HostcommProxy.initMem_unlines 0xC000 ?_
  rw [← zipIdx_programBytes]
  exact isByteLine_nl hpairs 0

end VivadoTest.Generator
