import VivadoTest.Host.RunFpgaTest
import VivadoTest.Proofs.InitMem

/-!
# `VivadoTest.Proofs.RunFpgaTest`: two host programs, one board

`process_tests.py` takes the first of several byte registers for the most significant one, as
the board does; `run_fpga_test.py` takes it for the least significant one. The two agree
exactly where the order of the bytes does not matter, and where both send their numbers at all.

## The property

`SameProtocol` is what is asked of the two programs, for a test with `n` expected updates and the
timeout `T`: both boards are configured for `n` and `T`, and the two programs read the same cycle
count and the same pair of updates from the same registers.

## The configuration

The two programs parse the configuration file in the same words, but `run_fpga_test.py` prints its
messages to a module that it does not import. So on a file in which every field is known
(`KnownFields`) it makes the same numbers of it as `process_tests.py` (`parseTestConfig_of_known`),
and its commands are those of `initTestConfig_eq`; on any other file it raises an exception, and
sends nothing (`initTestConfig_of_unknown`). Then the board is configured for `n` and `T` only if it
was before (`Board.testConfig_of_silence`).

Where the commands are sent, the high and the low byte are exchanged: the registers hold `n` and
`T` only when both bytes of `T` are equal (`exchanged_eq_iff`), and when the bytes of `n` are, of
the first of which the board keeps one bit.

## The readings

`readCycleCount_eq_iff` and `readUpdatePair_eq_iff` say the same of the readings: two bytes
(`swapped_eq_iff`) and four bytes (`littleEndian_eq_iff`) are the same number in both orders when
the outer and the inner bytes are equal.

`sameProtocol_iff` puts the three together.
-/

set_option autoImplicit false

namespace VivadoTest.Host

open VivadoTest.Lib VivadoTest.Framework VivadoTest.Generator

variable {N : Nat}

/-! ### The property -/

/-- The test monitor is configured for `n` expected updates and the timeout `timeout`. -/
def ConfiguredFor (n timeout : Nat) (b : Board N) : Prop :=
  b.testMonitor.numExpUpdates.toNat = n ∧ b.testMonitor.maxWaitTime.toNat = timeout

/-- A read of a register of the host port, the board's outputs being `input`. -/
def readRegister (h : HostComm) (input : HostCommIn) (address : Nat) : Id Nat :=
  pure (h.regReadData input (.read (BitVec.ofNat 16 address))).toNat

/-- The two programs agree: `after` is the board that the configuration by `process_tests.py`
leaves, and `after'` the one that the configuration by `run_fpga_test.py` leaves. -/
structure SameProtocol (n timeout : Nat) (after after' : Board N) (h : HostComm)
    (input : HostCommIn) : Prop where
  configured : ConfiguredFor n timeout after
  configured' : ConfiguredFor n timeout after'
  cycleCount : Id.run (RunFpgaTest.readCycleCount (readRegister h input))
    = Id.run (HostcommProxy.readCycleCount (readRegister h input))
  updatePair : Id.run (RunFpgaTest.readUpdatePair (readRegister h input))
    = Id.run (HostcommProxy.readUpdatePair (readRegister h input))

/-- The update reads the same in both orders of its bytes. -/
structure SymmetricUpdate (u : ExpectedStateUpdate) : Prop where
  addr : addrHiByte u = addrLoByte u
  outer : bigEndianByte u.value 0 = bigEndianByte u.value 3
  inner : bigEndianByte u.value 1 = bigEndianByte u.value 2

/-! ### The configuration -/

/-- The host writes the bytes of a number one after the other, lowest byte first, at rising
addresses. -/
theorem RunFpgaTest.writeBytes_eq (addr val numBytes : Nat) :
    RunFpgaTest.writeBytes addr val numBytes
      = commands ((List.range numBytes).map fun i => (addr + i, val >>> (8 * i) % 256)) := by
  unfold RunFpgaTest.writeBytes commands
  rw [List.flatMap_map]
  rfl

/-- The line names one of the two fields. -/
def KnownField (line : List Char) : Prop :=
  (splitText " = ".toList 0 line).head? = some "num_expected_updates".toList ∨
    (splitText " = ".toList 0 line).head? = some "timeout".toList

instance : DecidablePred KnownField := fun _ => inferInstanceAs (Decidable (_ ∨ _))

/-- Every line of the file names one of the two fields. -/
def KnownFields (file : List Char) : Prop := ∀ line ∈ textLines file, KnownField line

instance : DecidablePred KnownFields := fun _ => inferInstanceAs (Decidable (∀ _ ∈ _, _))

/-- The two programs read a line with a known field alike. -/
theorem RunFpgaTest.parseTestConfigLine_of_known {line : List Char} (h : KnownField line)
    (config : HostcommProxy.TestConfig) :
    RunFpgaTest.parseTestConfigLine config line
      = HostcommProxy.parseTestConfigLine config line := by
  unfold KnownField at h
  unfold RunFpgaTest.parseTestConfigLine HostcommProxy.parseTestConfigLine
  generalize splitText " = ".toList 0 line = parts at h ⊢
  match parts, h with
  | [name, val], h =>
    rw [List.head?_cons, Option.some.injEq, Option.some.injEq] at h
    rcases h with rfl | rfl <;> rfl
  | [], _ | [_], _ | _ :: _ :: _ :: _, _ => rfl

/-- In `run_fpga_test.py` a line with another field is an exception. -/
theorem RunFpgaTest.parseTestConfigLine_of_unknown {line : List Char} (h : ¬ KnownField line)
    (config : HostcommProxy.TestConfig) : RunFpgaTest.parseTestConfigLine config line = none := by
  unfold KnownField at h
  unfold RunFpgaTest.parseTestConfigLine
  split
  · next name val hparts =>
    rw [hparts, List.head?_cons, Option.some.injEq, Option.some.injEq, not_or] at h
    rw [if_neg h.1, if_neg h.2]
  · rfl

/-- An exception in one line is an exception of the loop. -/
theorem RunFpgaTest.foldlM_parseTestConfigLine_of_unknown {lines : List (List Char)}
    {line : List Char} (hline : line ∈ lines) (h : ¬ KnownField line)
    (config : HostcommProxy.TestConfig) :
    lines.foldlM RunFpgaTest.parseTestConfigLine config = none := by
  induction lines generalizing config with
  | nil => exact absurd hline List.not_mem_nil
  | cons first rest ih =>
    rw [List.foldlM_cons]
    rcases List.mem_cons.mp hline with rfl | hrest
    · rw [RunFpgaTest.parseTestConfigLine_of_unknown h]
      rfl
    · cases hfirst : RunFpgaTest.parseTestConfigLine config first with
      | none => rfl
      | some config' => exact ih hrest config'

/-- Over lines with known fields the loops are the same. -/
theorem RunFpgaTest.foldlM_parseTestConfigLine_of_known {lines : List (List Char)}
    (h : ∀ line ∈ lines, KnownField line) (config : HostcommProxy.TestConfig) :
    lines.foldlM RunFpgaTest.parseTestConfigLine config
      = lines.foldlM HostcommProxy.parseTestConfigLine config := by
  induction lines generalizing config with
  | nil => rfl
  | cons first rest ih =>
    rw [List.foldlM_cons, List.foldlM_cons,
      RunFpgaTest.parseTestConfigLine_of_known (h first List.mem_cons_self)]
    refine congrArg _ (funext fun config' => ih (fun line hline => ?_) config')
    exact h line (List.mem_cons_of_mem first hline)

/-- A file with known fields means the same to both programs. -/
theorem RunFpgaTest.parseTestConfig_of_known {file : List Char} {n timeout : Int}
    (hfile : HostcommProxy.parseTestConfig file = some ⟨some n, some timeout⟩)
    (h : KnownFields file) :
    RunFpgaTest.parseTestConfig file = some ⟨some n, some timeout⟩ := by
  unfold HostcommProxy.parseTestConfig at hfile
  unfold RunFpgaTest.parseTestConfig
  rw [RunFpgaTest.foldlM_parseTestConfigLine_of_known h, hfile]
  rfl

/-- The commands of `run_fpga_test.py`, for a file with known fields. -/
theorem RunFpgaTest.initTestConfig_eq {file : List Char} {n timeout : Nat}
    (hfile : HostcommProxy.parseTestConfig file = some ⟨some (n : Int), some (timeout : Int)⟩)
    (h : KnownFields file) :
    RunFpgaTest.initTestConfig file = some (commands [(5, n % 256), (6, n >>> 8 % 256),
      (7, timeout % 256), (8, timeout >>> 8 % 256)]) := by
  have hnum := RunFpgaTest.writeBytes_eq 5 n 2
  have hwait := RunFpgaTest.writeBytes_eq 7 timeout 2
  unfold RunFpgaTest.initTestConfig
  rw [RunFpgaTest.parseTestConfig_of_known hfile h]
  show some (RunFpgaTest.writeBytes (5 : Nat) n 2 ++ RunFpgaTest.writeBytes (7 : Nat) timeout 2) = _
  rw [hnum, hwait, ← commands_append]
  rfl

/-- It sends nothing of a file with an unknown field. -/
theorem RunFpgaTest.initTestConfig_of_unknown {file : List Char} (h : ¬ KnownFields file) :
    RunFpgaTest.initTestConfig file = none := by
  unfold KnownFields at h
  push Not at h
  obtain ⟨line, hline, hunknown⟩ := h
  unfold RunFpgaTest.initTestConfig RunFpgaTest.parseTestConfig
  rw [RunFpgaTest.foldlM_parseTestConfigLine_of_unknown hline hunknown]
  rfl

/-- `process_tests.py` writes the bytes where the board expects them. -/
theorem HostcommProxy.configuredFor_initTestConfig {n timeout : Nat} (hn : n < 512)
    (ht : timeout < 65536) {file text : List Char}
    (hfile : HostcommProxy.parseTestConfig file = some ⟨some (n : Int), some (timeout : Int)⟩)
    (htext : HostcommProxy.initTestConfig file = some text) {p : UartParser}
    (hp : p.mainSm = .mainIdle) {b : Board N} {ins : List (BoardIn N)} (h : Transfers p text ins) :
    ConfiguredFor n timeout (ins.foldl Board.step b) := by
  rw [HostcommProxy.initTestConfig_eq hfile] at htext
  obtain rfl := Option.some.inj htext
  obtain ⟨hnum, hwait⟩ := Board.testConfig_of_transfers (b := b) hp h
  rw [Nat.shiftRight_eq_div_pow] at hnum hwait
  exact ⟨by omega, by omega⟩

/-- A number of two bytes that does not change when they are exchanged. -/
theorem exchanged_eq_iff {k : Nat} (hk : k < 65536) :
    k % 256 % 256 * 256 + k / 2 ^ 8 % 256 % 256 = k ↔ k % 257 = 0 := by
  obtain ⟨hi, lo, hlo, rfl⟩ : ∃ hi lo, lo < 256 ∧ k = 256 * hi + lo :=
    ⟨k / 256, k % 256, Nat.mod_lt _ (by decide), (Nat.div_add_mod k 256).symm⟩
  have hmod : (256 * hi + lo) % 256 = lo := by omega
  have hdiv : (256 * hi + lo) / 2 ^ 8 = hi := by omega
  have hhi : hi < 256 := by omega
  rw [hmod, hdiv, Nat.mod_mod, Nat.mod_eq_of_lt hlo, Nat.mod_eq_of_lt hhi]
  omega

/-- `run_fpga_test.py` exchanges the bytes. -/
theorem RunFpgaTest.configuredFor_initTestConfig_iff {n timeout : Nat} (hn : n < 512)
    (ht : timeout < 65536) {file : List Char}
    (hfile : HostcommProxy.parseTestConfig file = some ⟨some (n : Int), some (timeout : Int)⟩)
    (hknown : KnownFields file) {p : UartParser} (hp : p.mainSm = .mainIdle) {b : Board N}
    {ins : List (BoardIn N)} (h : Transfers p (RunFpgaTest.sentByInitTestConfig file) ins) :
    ConfiguredFor n timeout (ins.foldl Board.step b) ↔ (n = 0 ∨ n = 257) ∧ timeout % 257 = 0 := by
  unfold RunFpgaTest.sentByInitTestConfig at h
  rw [RunFpgaTest.initTestConfig_eq hfile hknown] at h
  obtain ⟨hnum, hwait⟩ := Board.testConfig_of_transfers (b := b) hp h
  rw [Nat.shiftRight_eq_div_pow] at hnum hwait
  unfold ConfiguredFor
  rw [hnum, hwait]
  refine and_congr ?_ (exchanged_eq_iff ht)
  -- of the low byte, which goes to the high register, one bit is kept
  omega

/-- After an exception the board is configured as it was. -/
theorem RunFpgaTest.configuredFor_of_unknown {file : List Char} (hunknown : ¬ KnownFields file)
    {p : UartParser} (hp : p.mainSm = .mainIdle) {b : Board N} {ins : List (BoardIn N)}
    (h : Transfers p (RunFpgaTest.sentByInitTestConfig file) ins) (n timeout : Nat) :
    ConfiguredFor n timeout (ins.foldl Board.step b) ↔ ConfiguredFor n timeout b := by
  unfold RunFpgaTest.sentByInitTestConfig at h
  rw [RunFpgaTest.initTestConfig_of_unknown hunknown] at h
  obtain ⟨hnum, hwait⟩ := Board.testConfig_of_silence (b := b) hp h
  unfold ConfiguredFor
  rw [hnum, hwait]

/-! ### The readings -/

/-- Two bytes in both orders. -/
theorem swapped_eq_iff (x y : Byte) :
    x.toNat + y.toNat <<< 8 = x.toNat <<< 8 + y.toNat ↔ x = y := by
  have hx := x.isLt
  have hy := y.isLt
  rw [Nat.shiftLeft_eq, Nat.shiftLeft_eq, ← BitVec.toNat_inj]
  omega

/-- Four bytes in both orders. -/
theorem littleEndian_eq_iff (v0 v1 v2 v3 : Byte) :
    v0.toNat + v1.toNat <<< 8 + v2.toNat <<< 16 + v3.toNat <<< 24
      = ((v0.toNat <<< 8 + v1.toNat) <<< 8 + v2.toNat) <<< 8 + v3.toNat ↔ v0 = v3 ∧ v1 = v2 := by
  have h0 := v0.isLt
  have h1 := v1.isLt
  have h2 := v2.isLt
  have h3 := v3.isLt
  simp only [Nat.shiftLeft_eq, ← BitVec.toNat_inj]
  omega

/-- Both hosts read one cycle count exactly when its two bytes are equal. -/
theorem readCycleCount_eq_iff (h : HostComm) (input : HostCommIn) :
    Id.run (RunFpgaTest.readCycleCount (readRegister h input))
        = Id.run (HostcommProxy.readCycleCount (readRegister h input)) ↔
      input.tmTestCycleCounter.extractLsb' 8 8 = input.tmTestCycleCounter.extractLsb' 0 8 := by
  show (input.tmTestCycleCounter.extractLsb' 8 8).toNat
      + (input.tmTestCycleCounter.extractLsb' 0 8).toNat <<< 8
    = (input.tmTestCycleCounter.extractLsb' 0 8).toNat
      + (input.tmTestCycleCounter.extractLsb' 8 8).toNat <<< 8 ↔ _
  rw [Nat.add_comm (input.tmTestCycleCounter.extractLsb' 0 8).toNat, swapped_eq_iff]

/-- What `run_fpga_test.py` makes of the registers of an update. -/
def littleEndianUpdate (u : ExpectedStateUpdate) : StateUpdate :=
  ⟨(destByte u).toNat, (addrHiByte u).toNat + (addrLoByte u).toNat <<< 8,
    (bigEndianByte u.value 0).toNat + (bigEndianByte u.value 1).toNat <<< 8
      + (bigEndianByte u.value 2).toNat <<< 16 + (bigEndianByte u.value 3).toNat <<< 24⟩

/-- What `process_tests.py` makes of them. -/
def bigEndianUpdate (u : ExpectedStateUpdate) : StateUpdate :=
  ⟨(destByte u).toNat, (addrHiByte u).toNat <<< 8 + (addrLoByte u).toNat,
    (((bigEndianByte u.value 0).toNat <<< 8 + (bigEndianByte u.value 1).toNat) <<< 8
      + (bigEndianByte u.value 2).toNat) <<< 8 + (bigEndianByte u.value 3).toNat⟩

/-- Both orders give one update exactly when its address and its value are symmetric. -/
theorem littleEndianUpdate_eq_iff (u : ExpectedStateUpdate) :
    littleEndianUpdate u = bigEndianUpdate u ↔ SymmetricUpdate u := by
  unfold littleEndianUpdate bigEndianUpdate
  rw [StateUpdate.mk.injEq, swapped_eq_iff, littleEndian_eq_iff]
  constructor
  · intro h
    exact ⟨h.2.1, h.2.2.1, h.2.2.2⟩
  · intro h
    exact ⟨rfl, h.addr, h.outer, h.inner⟩

/-- Both hosts read one pair exactly when both updates of it are symmetric. -/
theorem readUpdatePair_eq_iff (h : HostComm) (input : HostCommIn) :
    Id.run (RunFpgaTest.readUpdatePair (readRegister h input))
        = Id.run (HostcommProxy.readUpdatePair (readRegister h input)) ↔
      SymmetricUpdate input.unmatchedExpected ∧ SymmetricUpdate input.badActual := by
  show (littleEndianUpdate input.unmatchedExpected, littleEndianUpdate input.badActual)
    = (bigEndianUpdate input.unmatchedExpected, bigEndianUpdate input.badActual) ↔ _
  rw [Prod.mk.injEq, littleEndianUpdate_eq_iff, littleEndianUpdate_eq_iff]

/-! ### Where the programs agree -/

/-- **Where the two host programs agree.** On the values that do not change when their bytes are
exchanged; for a file with an unknown field, which `run_fpga_test.py` does not send, on the numbers
for which the board is configured already. -/
theorem sameProtocol_iff {n timeout : Nat} (hn : n < 512) (ht : timeout < 65536)
    {file text : List Char}
    (hfile : HostcommProxy.parseTestConfig file = some ⟨some (n : Int), some (timeout : Int)⟩)
    (htext : HostcommProxy.initTestConfig file = some text) {p : UartParser}
    (hp : p.mainSm = .mainIdle) {b : Board N} {ins ins' : List (BoardIn N)}
    (hins : Transfers p text ins)
    (hins' : Transfers p (RunFpgaTest.sentByInitTestConfig file) ins') (h : HostComm)
    (input : HostCommIn) :
    SameProtocol n timeout (ins.foldl Board.step b) (ins'.foldl Board.step b) h input ↔
      (KnownFields file → (n = 0 ∨ n = 257) ∧ timeout % 257 = 0) ∧
        (¬ KnownFields file → ConfiguredFor n timeout b) ∧
        input.tmTestCycleCounter.extractLsb' 8 8 = input.tmTestCycleCounter.extractLsb' 0 8 ∧
        SymmetricUpdate input.unmatchedExpected ∧ SymmetricUpdate input.badActual := by
  have hconfigured := HostcommProxy.configuredFor_initTestConfig hn ht hfile htext hp (b := b) hins
  -- What the second program leaves: the exchanged bytes, or nothing where a field is unknown.
  have hconfigured' : ConfiguredFor n timeout (ins'.foldl Board.step b) ↔
      (KnownFields file → (n = 0 ∨ n = 257) ∧ timeout % 257 = 0) ∧
        (¬ KnownFields file → ConfiguredFor n timeout b) := by
    by_cases hknown : KnownFields file
    · rw [RunFpgaTest.configuredFor_initTestConfig_iff hn ht hfile hknown hp hins']
      simp [hknown]
    · rw [RunFpgaTest.configuredFor_of_unknown hknown hp hins']
      simp [hknown]
  constructor
  · intro hsame
    obtain ⟨hvalues, hbefore⟩ := hconfigured'.mp hsame.configured'
    exact ⟨hvalues, hbefore, (readCycleCount_eq_iff h input).mp hsame.cycleCount,
      (readUpdatePair_eq_iff h input).mp hsame.updatePair⟩
  · rintro ⟨hvalues, hbefore, hcount, hpair⟩
    exact ⟨hconfigured, hconfigured'.mpr ⟨hvalues, hbefore⟩,
      (readCycleCount_eq_iff h input).mpr hcount, (readUpdatePair_eq_iff h input).mpr hpair⟩

/-! ### The files of the generator -/

/-- The generated configuration names its two fields. -/
theorem knownFields_testConfigFile {n T : List Char} {k t : Nat} (hn : Spells 10 n k)
    (hT : Spells 10 T t) : KnownFields (testConfigFile n T) := by
  intro line hline
  rw [HostcommProxy.textLines_testConfigFile hn hT] at hline
  rcases List.mem_cons.mp hline with rfl | hline
  · refine Or.inl ?_
    have hparts := HostcommProxy.splitText_field "num_expected_updates".toList (by decide)
      (hn.not_mem (by decide))
    exact congrArg List.head? hparts
  · rw [List.mem_singleton.mp hline]
    refine Or.inr ?_
    have hparts := HostcommProxy.splitText_field "timeout".toList (by decide)
      (hT.not_mem (by decide))
    exact congrArg List.head? hparts

/-- Values of which every byte is the mirror of another one. -/
theorem sameProtocol_symmetric :
    SameProtocol 257 771
      ((sending .reset (commands [(5, 1), (6, 1), (7, 3), (8, 3)])).foldl Board.step
        (Board.blank : Board 1))
      ((sending .reset (RunFpgaTest.sentByInitTestConfig
        (testConfigFile (Nat.toDigits 10 257) (Nat.toDigits 10 771)))).foldl Board.step
          (Board.blank : Board 1))
      ⟨false, false, false, 0⟩
      ⟨0, 0, 0, 0, 1, 0x0505, ⟨.regfileUpdate, 0x0303, 0x0A0B0B0A⟩, ⟨.dmemUpdate, 0, 0x00FFFF00⟩,
        257, 771⟩ := by
  have h257 := spells_toDigits (b := 10) (by decide) (by decide) 257
  have h771 := spells_toDigits (b := 10) (by decide) (by decide) 771
  have hfile := HostcommProxy.parseTestConfig_testConfigFile 257 h771
  rw [if_pos (Or.inr (by decide))] at hfile
  refine (sameProtocol_iff (by decide) (by decide) hfile (HostcommProxy.initTestConfig_eq hfile)
    (p := .reset) rfl (transfers_sending _ _) (transfers_sending _ _) _ _).mpr
    ⟨fun _ => ⟨Or.inr rfl, rfl⟩,
      fun hunknown => absurd (knownFields_testConfigFile h257 h771) hunknown, by decide, ?_, ?_⟩
  · exact ⟨by decide, by decide, by decide⟩
  · exact ⟨by decide, by decide, by decide⟩

/-- A test with one expected update, and a cycle count of 256. -/
theorem not_sameProtocol :
    (∀ (b : Board 1) (p : UartParser) (ins : List (BoardIn 1)), p.mainSm = .mainIdle →
      Transfers p (commands [(5, 1), (6, 0), (7, 232), (8, 3)]) ins →
        (ins.foldl Board.step b).testMonitor.numExpUpdates.toNat = 256 ∧
          (ins.foldl Board.step b).testMonitor.maxWaitTime.toNat = 59395) ∧
    RunFpgaTest.sentByInitTestConfig (testConfigFile (Nat.toDigits 10 1) (Nat.toDigits 10 1000))
      = commands [(5, 1), (6, 0), (7, 232), (8, 3)] ∧
    ¬ ∀ (n timeout : Nat), n < 512 → timeout < 65536 → ∀ file text : List Char,
      HostcommProxy.parseTestConfig file = some ⟨some (n : Int), some (timeout : Int)⟩ →
      HostcommProxy.initTestConfig file = some text →
      ∀ (p : UartParser), p.mainSm = .mainIdle → ∀ (b : Board 1) (ins ins' : List (BoardIn 1)),
        Transfers p text ins → Transfers p (RunFpgaTest.sentByInitTestConfig file) ins' →
        ∀ (h : HostComm) (input : HostCommIn),
          SameProtocol n timeout (ins.foldl Board.step b) (ins'.foldl Board.step b) h input := by
  have h1 := spells_toDigits (b := 10) (by decide) (by decide) 1
  have h1000 := spells_toDigits (b := 10) (by decide) (by decide) 1000
  have hfile := HostcommProxy.parseTestConfig_testConfigFile 1 h1000
  rw [if_pos (Or.inr (by decide))] at hfile
  have htext := RunFpgaTest.initTestConfig_eq hfile (knownFields_testConfigFile h1 h1000)
  have hbytes : [(5, 1 % 256), (6, 1 >>> 8 % 256), (7, 1000 % 256), (8, 1000 >>> 8 % 256)]
      = [(5, 1), (6, 0), (7, 232), (8, 3)] := rfl
  rw [hbytes] at htext
  refine ⟨?_, ?_, fun h => ?_⟩
  · intro b p ins hp hins
    exact Board.testConfig_of_transfers hp hins
  · unfold RunFpgaTest.sentByInitTestConfig
    rw [htext]
    rfl
  · have hsame := h 1 1000 (by decide) (by decide) _ _ hfile
      (HostcommProxy.initTestConfig_eq hfile) .reset rfl
      Board.blank _ _ (transfers_sending _ _) (transfers_sending _ _) ⟨false, false, false, 0⟩
      ⟨0, 0, 0, 0, 1, 256, .zero, .zero, 1, 1000⟩
    -- the two bytes of 256 are not equal
    exact absurd ((readCycleCount_eq_iff _ _).mp hsame.cycleCount) (by decide)

end VivadoTest.Host
