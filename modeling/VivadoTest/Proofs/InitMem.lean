import VivadoTest.Proofs.Transfer
import VivadoTest.Host.FpgaTest

/-!
# `VivadoTest.Proofs.InitMem`: from a generated file to the commands

`_init_mem` reads a file of lines, each of them an offset and a byte, and sends a write command
for each. `IsByteLine` relates a line to what it says, so a generator only has to be shown to
print such lines.

* `initMem_unlines`: a file of byte lines becomes the commands that write the bytes.
* `parseTestConfig_testConfigFile`, `initTestConfig_eq`: the commands of a test configuration.
* `Board.testConfig_of_transfers`: the registers that the configuration leaves.

## Read by lines

`IsByteLine` does not care how a line is printed: `isByteLine_hex` and `isByteLine_decimal` are the
two ways of the generators. The commands of a file are those of its lines in their order, so all
that is proved about a list of writes holds of the file.

The configuration is a file of its own with two fields, `num_expected_updates` and `timeout`
(`testConfigFile`). `Board.testConfig_of_transfers` reads the registers back from the cells of the
store: of the high byte of the number of expected updates one bit is implemented.
-/

set_option autoImplicit false

namespace VivadoTest.Host

open VivadoTest.Lib VivadoTest.Framework VivadoTest.Generator

/-! ### Byte lines -/

/-- A line of a byte offset and a byte, the way `_init_mem` reads it. -/
structure IsByteLine (line : List Char) (w : Nat × Nat) : Prop where
  noNewline : '\n' ∉ line
  reads : ∃ offset val, words line = [offset, val] ∧ pyInt 0 offset = some (w.1 : Int) ∧
    pyInt 0 val = some (w.2 : Int)

/-- Two numerals with white space between them. -/
theorem isByteLine_of_pair (gap : List Char) {offset val : List Char} {w : Nat × Nat}
    (hoffset : pyInt 0 offset = some (w.1 : Int)) (hval : pyInt 0 val = some (w.2 : Int))
    (hne : offset ≠ []) (hne' : val ≠ []) (hos : ∀ c ∈ offset, isSpace c = false)
    (hvs : ∀ c ∈ val, isSpace c = false) (hgap : gap ≠ [])
    (hgaps : ∀ c ∈ gap, isSpace c = true ∧ c ≠ '\n') : IsByteLine (offset ++ gap ++ val) w where
  noNewline := by
    intro hmem
    have hspace : isSpace '\n' = true := by decide
    rcases List.mem_append.mp hmem with hmem | hmem
    · rcases List.mem_append.mp hmem with hmem | hmem
      · rw [hos _ hmem] at hspace
        exact absurd hspace Bool.false_ne_true
      · exact (hgaps _ hmem).2 rfl
    · rw [hvs _ hmem] at hspace
      exact absurd hspace Bool.false_ne_true
  reads :=
    ⟨offset, val, wordsBy_pair hne hne' hos hvs hgap fun c hc => (hgaps c hc).1, hoffset, hval⟩

/-- A hexadecimal literal contains no white space. -/
theorem isSpace_hexLiteral {cs : List Char} {n : Nat} (h : Spells 16 cs n) :
    ∀ c ∈ '0' :: 'x' :: cs, isSpace c = false := by
  intro c hc
  rcases List.mem_cons.mp hc with rfl | hc
  · decide
  rcases List.mem_cons.mp hc with rfl | hc
  · decide
  · exact isSpace_of_spells h c hc

/-- A printed number contains no white space. -/
theorem isSpace_toDigits (n : Nat) : ∀ c ∈ Nat.toDigits 10 n, isSpace c = false :=
  isSpace_of_spells (spells_toDigits (by decide) (by decide) n)

/-- A blank is white space and no newline. -/
theorem isSpace_blank : ∀ c ∈ [' '], isSpace c = true ∧ c ≠ '\n' := by
  intro c hc
  rw [List.mem_singleton.mp hc]
  decide

/-- A decimal offset and a hexadecimal byte. -/
theorem isByteLine_hex (offset : Nat) (gap : List Char) {cs : List Char} {val : Nat}
    (h : Spells 16 cs val)
    (hgap : gap ≠ []) (hgaps : ∀ c ∈ gap, isSpace c = true ∧ c ≠ '\n') :
    IsByteLine (Nat.toDigits 10 offset ++ gap ++ '0' :: 'x' :: cs) (offset, val) :=
  isByteLine_of_pair gap (pyInt_toDigits offset) (pyInt_hex h) Nat.toDigits_ne_nil
    (List.cons_ne_nil _ _)
    (isSpace_toDigits offset) (isSpace_hexLiteral h) hgap hgaps

/-- A decimal offset and a decimal byte. -/
theorem isByteLine_decimal (offset val : Nat) :
    IsByteLine (Nat.toDigits 10 offset ++ ' ' :: Nat.toDigits 10 val) (offset, val) := by
  have h := isByteLine_of_pair [' '] (w := (offset, val)) (pyInt_toDigits offset)
    (pyInt_toDigits val) Nat.toDigits_ne_nil Nat.toDigits_ne_nil
    (isSpace_toDigits offset) (isSpace_toDigits val) (List.cons_ne_nil _ _) isSpace_blank
  rwa [List.append_assoc] at h

/-! ### Files of byte lines -/

namespace HostcommProxy

/-- Writes with a base address added. -/
def based (baseaddr : Nat) (ws : List (Nat × Nat)) : List (Nat × Nat) :=
  ws.map fun w => (baseaddr + w.1, w.2)

/-- A line with an address and a byte becomes the write of that byte at the offset. -/
theorem initMemLine_of_isByteLine (baseaddr : Nat) {line : List Char} {w : Nat × Nat}
    (h : IsByteLine line w) :
    initMemLine baseaddr line = some (writeByte ((baseaddr + w.1 : Nat) : Int) (w.2 : Int)) := by
  obtain ⟨offset, val, hwords, hoffset, hval⟩ := h.reads
  unfold initMemLine
  rw [hwords]
  simp only [hoffset, hval]
  rfl

/-- A file of such lines becomes the writes of its bytes, in the order of the lines. -/
theorem initMem_unlines (baseaddr : Nat) {lines : List (List Char)} {ws : List (Nat × Nat)}
    (h : List.Forall₂ IsByteLine lines ws) :
    initMem (unlines lines) baseaddr = some (commands (based baseaddr ws)) := by
  have hnl : ∀ line ∈ lines, '\n' ∉ line := noNewline_of_forall₂ IsByteLine.noNewline h.flip
  have hmap : lines.mapM (initMemLine baseaddr)
      = some ((based baseaddr ws).map fun w => writeByte w.1 w.2) := by
    refine mapM_eq_some_iff.mpr ?_
    unfold based
    rw [List.map_map, List.forall₂_map_right_iff]
    exact h.imp fun line w hline => initMemLine_of_isByteLine baseaddr hline
  unfold initMem
  rw [textLines_unlines hnl, hmap]
  rfl

/-! ### The test configuration -/

/-- The bytes of a number, the most significant one first. -/
def bigEndianWrites (addr val numBytes : Nat) : List (Nat × Nat) :=
  (List.range numBytes).map fun i => (addr + i, val >>> (8 * (numBytes - 1 - i)) % 256)

/-- A register over several addresses is written highest byte first, at its lowest address. -/
theorem writeBytesBigEndian_eq (addr val numBytes : Nat) :
    writeBytesBigEndian addr val numBytes = commands (bigEndianWrites addr val numBytes) := by
  unfold writeBytesBigEndian commands bigEndianWrites
  rw [List.flatMap_map]
  rfl

/-- A line of the file, taken apart. -/
theorem splitText_field (name : List Char) {val : List Char} (hname : ' ' ∉ name)
    (hval : ' ' ∉ val) :
    splitText " = ".toList 0 (name ++ " = ".toList ++ val) = [name, val] := by
  have hsplit := splitText_append ['=', ' '] hname val
  rw [splitText_of_not_mem hval] at hsplit
  exact hsplit

/-- The line that sets the number of expected updates. -/
theorem parseTestConfigLine_numExpUpdates (config : TestConfig) {val : List Char} (h : ' ' ∉ val) :
    parseTestConfigLine config ("num_expected_updates = ".toList ++ val)
      = (pyInt 0 val).map fun n => { config with numExpUpdates := some n } := by
  have hsplit := splitText_field "num_expected_updates".toList (by decide) h
  have hline : "num_expected_updates = ".toList ++ val =
      "num_expected_updates".toList ++ " = ".toList ++ val := rfl
  unfold parseTestConfigLine
  rw [hline, hsplit]
  simp only [if_true]
  cases pyInt 0 val <;> rfl

/-- The line that sets the timeout. -/
theorem parseTestConfigLine_timeout (config : TestConfig) {val : List Char} (h : ' ' ∉ val) :
    parseTestConfigLine config ("timeout = ".toList ++ val)
      = (pyInt 0 val).map fun n => { config with timeout := some n } := by
  have hsplit := splitText_field "timeout".toList (by decide) h
  have hname : "timeout".toList ≠ "num_expected_updates".toList := by decide
  have hline : "timeout = ".toList ++ val = "timeout".toList ++ " = ".toList ++ val := rfl
  unfold parseTestConfigLine
  rw [hline, hsplit]
  simp only [if_neg hname, if_true]
  cases pyInt 0 val <;> rfl

/-- The configuration file has one line for each field. -/
theorem textLines_testConfigFile {numExpUpdates timeoutCycles : List Char} {n timeout : Nat}
    (hn : Spells 10 numExpUpdates n) (h : Spells 10 timeoutCycles timeout) :
    textLines (testConfigFile numExpUpdates timeoutCycles)
      = ["num_expected_updates = ".toList ++ numExpUpdates,
          "timeout = ".toList ++ timeoutCycles] := by
  refine textLines_unlines fun line hline => ?_
  rcases List.mem_cons.mp hline with rfl | hline
  · rw [List.mem_append]
    exact not_or.mpr ⟨by decide, hn.not_mem (by decide)⟩
  · rw [List.mem_singleton.mp hline, List.mem_append]
    exact not_or.mpr ⟨by decide, h.not_mem (by decide)⟩

/-- The configuration of a test with `n` expected updates, its timeout being written as
`timeoutCycles`. -/
theorem parseTestConfig_testConfigFile (n : Nat) {timeoutCycles : List Char} {timeout : Nat}
    (h : Spells 10 timeoutCycles timeout) :
    parseTestConfig (testConfigFile (Nat.toDigits 10 n) timeoutCycles)
      = if timeout = 0 ∨ timeoutCycles.head? ≠ some '0' then
          some ⟨some (n : Int), some (timeout : Int)⟩
        else none := by
  have hn := spells_toDigits (b := 10) (by decide) (by decide) n
  unfold parseTestConfig
  rw [textLines_testConfigFile hn h]
  simp only [List.foldlM_cons, List.foldlM_nil,
    parseTestConfigLine_numExpUpdates _ (hn.not_mem (by decide)),
    parseTestConfigLine_timeout _ (h.not_mem (by decide)), pyInt_toDigits, pyInt_zero_of_spells h]
  split <;> rfl

/-- The commands of a configuration. -/
theorem initTestConfig_eq {file : List Char} {n timeout : Nat}
    (hfile : parseTestConfig file = some ⟨some (n : Int), some (timeout : Int)⟩) :
    initTestConfig file = some (commands [(5, n >>> 8 % 256), (6, n % 256),
      (7, timeout >>> 8 % 256), (8, timeout % 256)]) := by
  have hnum := writeBytesBigEndian_eq 5 n 2
  have hwait := writeBytesBigEndian_eq 7 timeout 2
  unfold initTestConfig
  rw [hfile]
  show some (writeBytesBigEndian (5 : Nat) n 2 ++ writeBytesBigEndian (7 : Nat) timeout 2) = _
  rw [hnum, hwait, ← commands_append]
  rfl

end HostcommProxy

end VivadoTest.Host

namespace VivadoTest.Framework

open VivadoTest.Lib VivadoTest.Host

variable {N : Nat}

/-- A number from its low byte and the bits above. -/
theorem toNat_eq_of_bytes {k : Nat} (x : BitVec (k + 8)) :
    x.toNat = (x.extractLsb' 8 k).toNat * 256 + (x.extractLsb' 0 8).toNat := by
  have hlt : x.toNat / 2 ^ 8 < 2 ^ k := by
    have hx := x.isLt
    rw [pow_add] at hx
    exact Nat.div_lt_of_lt_mul (by rwa [Nat.mul_comm])
  rw [BitVec.extractLsb'_toNat, BitVec.extractLsb'_toNat, Nat.shiftRight_zero,
    Nat.shiftRight_eq_div_pow, Nat.mod_eq_of_lt hlt]
  omega

/-- The number of expected updates is in two cells, of the first of which one bit is implemented. -/
theorem Board.toNat_numExpUpdates (b : Board N) : b.testMonitor.numExpUpdates.toNat
    = (b.content .numExpUpdatesHi).toNat * 256 + (b.content .numExpUpdatesLo).toNat := by
  have hlt := (b.testMonitor.numExpUpdates.extractLsb' 8 1).isLt
  rw [toNat_eq_of_bytes (k := 1) b.testMonitor.numExpUpdates]
  show _ = ((b.testMonitor.numExpUpdates.extractLsb' 8 1).setWidth 8).toNat * 256
    + (b.testMonitor.numExpUpdates.extractLsb' 0 8).toNat
  rw [BitVec.toNat_setWidth, Nat.mod_eq_of_lt (by omega)]

/-- The timeout is in two cells. -/
theorem Board.toNat_maxWaitTime (b : Board N) : b.testMonitor.maxWaitTime.toNat
    = (b.content .maxWaitTimeHi).toNat * 256 + (b.content .maxWaitTimeLo).toNat :=
  toNat_eq_of_bytes (k := 8) b.testMonitor.maxWaitTime

/-- What the four configuration registers make of the bytes written to them: of the high byte
of the number of expected updates only one bit is kept. -/
theorem Board.testConfig_of_transfers {b : Board N} {p : UartParser} (hp : p.mainSm = .mainIdle)
    {numHi numLo waitHi waitLo : Nat} {ins : List (BoardIn N)}
    (h : Transfers p (commands [(5, numHi), (6, numLo), (7, waitHi), (8, waitLo)]) ins) :
    (ins.foldl Board.step b).testMonitor.numExpUpdates.toNat = numHi % 2 * 256 + numLo % 256 ∧
      (ins.foldl Board.step b).testMonitor.maxWaitTime.toNat
        = waitHi % 256 * 256 + waitLo % 256 := by
  have h5 : cellOf (BitVec.ofNat 16 5) = some .numExpUpdatesHi := by decide
  have h6 : cellOf (BitVec.ofNat 16 6) = some .numExpUpdatesLo := by decide
  have h7 : cellOf (BitVec.ofNat 16 7) = some .maxWaitTimeHi := by decide
  have h8 : cellOf (BitVec.ofNat 16 8) = some .maxWaitTimeLo := by decide
  -- the cells after the four writes
  have hcell : ∀ c : Cell, c.isConfiguration = true →
      (ins.foldl Board.step b).content c = Store.writes b.content
        [(5, numHi), (6, numLo), (7, waitHi), (8, waitLo)] c :=
    fun c hc => Board.content_of_configuration hp h hc
  have hnumHi := hcell .numExpUpdatesHi rfl
  have hnumLo := hcell .numExpUpdatesLo rfl
  have hwaitHi := hcell .maxWaitTimeHi rfl
  have hwaitLo := hcell .maxWaitTimeLo rfl
  simp only [Store.writes, List.foldl_cons, List.foldl_nil, Store.write, h5, h6, h7, h8,
    Option.some.injEq, reduceCtorEq, if_true, if_false] at hnumHi hnumLo hwaitHi hwaitLo
  -- a register of one bit, and three of eight
  have hbit : ∀ v : Nat, (BitVec.ofNat 8 v &&& 0x01).toNat = v % 2 := by
    intro v
    rw [BitVec.toNat_and, BitVec.toNat_ofNat]
    show v % 256 &&& 1 = v % 2
    rw [Nat.and_one_is_mod]
    omega
  have hbyte : ∀ v : Nat, (BitVec.ofNat 8 v &&& 0xFF).toNat = v % 256 := by
    intro v
    rw [show (BitVec.ofNat 8 v &&& 0xFF) = BitVec.ofNat 8 v from BitVec.and_allOnes,
      BitVec.toNat_ofNat]
  rw [Board.toNat_numExpUpdates, Board.toNat_maxWaitTime, hnumHi, hnumLo, hwaitHi, hwaitLo]
  exact ⟨congrArg₂ (· * 256 + ·) (hbit numHi) (hbyte numLo),
    congrArg₂ (· * 256 + ·) (hbyte waitHi) (hbyte waitLo)⟩

/-- A run in which the host sends nothing keeps the configuration, whatever the processor does. -/
theorem Board.testConfig_of_silence {b : Board N} {p : UartParser} (hp : p.mainSm = .mainIdle)
    {ins : List (BoardIn N)} (h : Transfers p [] ins) :
    (ins.foldl Board.step b).testMonitor.numExpUpdates.toNat
        = b.testMonitor.numExpUpdates.toNat ∧
      (ins.foldl Board.step b).testMonitor.maxWaitTime.toNat
        = b.testMonitor.maxWaitTime.toNat := by
  have hcell : ∀ c : Cell, c.isConfiguration = true →
      (ins.foldl Board.step b).content c = b.content c := by
    intro c hc
    exact Board.content_of_configuration hp (show Transfers p (commands []) ins from h) hc
  constructor
  · rw [Board.toNat_numExpUpdates, Board.toNat_numExpUpdates, hcell .numExpUpdatesHi rfl,
      hcell .numExpUpdatesLo rfl]
  · rw [Board.toNat_maxWaitTime, Board.toNat_maxWaitTime, hcell .maxWaitTimeHi rfl,
      hcell .maxWaitTimeLo rfl]

end VivadoTest.Framework
