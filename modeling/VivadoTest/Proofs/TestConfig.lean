import VivadoTest.Proofs.ExpectedUpdates

/-!
# `VivadoTest.Proofs.TestConfig`: the test configuration on its way to the board

`gen_test_files.sh` counts the expected updates and copies the timeout, the host sends two bytes of
each, and the board keeps nine bits of the one and sixteen of the other. Nothing on the way has a
bound of its own.

* `ConfiguredAs`: the numbers reach the board unchanged.
* `configuredAs_iff`: the tests whose numbers do.
* `not_configuredAs`: a timeout that becomes zero.

The number of expected updates goes through a nine-bit register and the timeout through one of
sixteen bits; both wrap without a message. The timeout of the test file is copied as text, and
Python reads it with base 0, so a numeral with a leading zero is no number for the host although it
is one for the simulator. These are the parts of the condition of `configuredAs_iff`.
-/

set_option autoImplicit false

namespace VivadoTest.Host

open VivadoTest.Lib VivadoTest.Framework VivadoTest.Generator

/-- The simulation and the board are configured with `n` expected updates and the timeout `T`: the
generics of the simulation spell them, and on every board the commands of `init_expected_updates`
write to the expected-update memory only and leave, with those of `init_test_config` behind them,
the two numbers in the registers of the test monitor. -/
structure ConfiguredAs (N n T : Nat) (sim : SimFiles) (fpga : FpgaFiles) : Prop where
  numExpectedUpdates : Spells 10 sim.NUM_EXPECTED_UPDATES n
  testTimeoutCycles : Spells 10 sim.TEST_TIMEOUT_CYCLES T
  loaded : ∃ updates config, HostcommProxy.initExpectedUpdates fpga.initExpUpd = some updates ∧
    HostcommProxy.initTestConfig fpga.testConfig = some config ∧
    ∀ (b : Board N) (p : UartParser) (ins ins' : List (BoardIn N)), p.mainSm = .mainIdle →
      Transfers p updates ins → Transfers (p.feed (encode updates)).1 config ins' →
      (∀ i ∈ ins, ∀ address v, i.bus.op = some (.write address v) →
        ∃ offset, cellOf address = some (.expupd offset)) ∧
      ((ins ++ ins').foldl Board.step b).testMonitor.numExpUpdates.toNat = n ∧
      ((ins ++ ins').foldl Board.step b).testMonitor.maxWaitTime.toNat = T

/-! ### The two files -/

section
variable {dmemDepth : Int} {test : Test} {sim : SimFiles} {fpga : FpgaFiles}

/-- The parts of the generated files that the configuration is about. -/
theorem configFiles_of_genTestFiles (h : genTestFiles dmemDepth test = some (sim, fpga)) :
    sim.NUM_EXPECTED_UPDATES
        = Nat.toDigits 10 (expectedUpdates dmemDepth test.expectedStateUpdates).length ∧
      sim.TEST_TIMEOUT_CYCLES = test.timeoutCycleCount ∧
      fpga.testConfig = testConfigFile
        (Nat.toDigits 10 (expectedUpdates dmemDepth test.expectedStateUpdates).length)
        test.timeoutCycleCount ∧
      HostcommProxy.initExpectedUpdates fpga.initExpUpd = some (commands (HostcommProxy.based 0x2000
        (entryWrites 0 ((expectedUpdates dmemDepth test.expectedStateUpdates).map
          ExpectedUpdate.raw)))) := by
  unfold genTestFiles at h
  obtain ⟨⟨simInitRegs, simInitDmem⟩, -, h⟩ := Option.bind_eq_some_iff.mp h
  obtain ⟨simInitExpUpd, hexpUpd, h⟩ := Option.bind_eq_some_iff.mp h
  obtain ⟨-, -, h⟩ := Option.bind_eq_some_iff.mp h
  obtain ⟨fpgaInitExpUpd, hfpga, h⟩ := Option.bind_eq_some_iff.mp h
  obtain ⟨rfl, rfl⟩ := Prod.mk.inj (Option.some.inj h)
  obtain ⟨lines, rfl, hlines⟩ := genExpectedUpdatesFile_eq hexpUpd
  have hnum := wcLines_unlines hlines
  obtain ⟨fpgaFile, hfile, hcommands⟩ := initExpectedUpdates_eq hexpUpd
  obtain rfl := Option.some.inj (hfile.symm.trans hfpga)
  rw [hnum]
  exact ⟨rfl, rfl, rfl, hcommands⟩

/-- The numbers of a test reach the board unchanged exactly when they fit into its registers, and
the timeout is not written with a leading zero, which the host does not read as a number. -/
theorem configuredAs_iff {N T : Nat} (h : genTestFiles dmemDepth test = some (sim, fpga))
    (hT : Spells 10 test.timeoutCycleCount T) :
    ConfiguredAs N (expectedUpdates dmemDepth test.expectedStateUpdates).length T sim fpga ↔
      (expectedUpdates dmemDepth test.expectedStateUpdates).length < 512 ∧ T < 65536 ∧
        (T = 0 ∨ test.timeoutCycleCount.head? ≠ some '0') := by
  obtain ⟨hnum, htimeout, hconfig, hupdates⟩ := configFiles_of_genTestFiles h
  have hparse := HostcommProxy.parseTestConfig_testConfigFile
    (expectedUpdates dmemDepth test.expectedStateUpdates).length hT
  constructor
  · intro hconfigured
    obtain ⟨updates, config, hupdates', hconfig', hloaded⟩ := hconfigured.loaded
    obtain ⟨-, hn, ht⟩ := hloaded Board.blank .reset (sending _ _) (sending _ _) rfl
      (transfers_sending _ _) (transfers_sending _ _)
    refine ⟨hn ▸ BitVec.isLt _, ht ▸ BitVec.isLt _, ?_⟩
    -- a configuration that the host does not read sends nothing
    by_contra hzero
    rw [if_neg hzero] at hparse
    rw [hconfig] at hconfig'
    unfold HostcommProxy.initTestConfig at hconfig'
    rw [hparse] at hconfig'
    cases hconfig'
  · rintro ⟨hn, ht, hzero⟩
    rw [if_pos hzero] at hparse
    have hcommands := HostcommProxy.initTestConfig_eq hparse
    rw [← hconfig] at hcommands
    refine ⟨?_, htimeout ▸ hT, _, _, hupdates, hcommands, ?_⟩
    · rw [hnum]
      exact spells_toDigits (by decide) (by decide) _
    · intro b p ins ins' hp hins hins'
      obtain ⟨hidle, -⟩ := UartParser.feed_commands hp (HostcommProxy.based 0x2000
        (entryWrites 0 ((expectedUpdates dmemDepth test.expectedStateUpdates).map
          ExpectedUpdate.raw)))
      refine ⟨?_, ?_⟩
      · intro i hi address v hop
        obtain ⟨w, hw, heq⟩ := hins.mem_of_op hp hi hop
        obtain ⟨rfl, -⟩ := BusOp.write.inj heq
        exact expupdWrites_inside (le_of_lt hn) hw
      · obtain ⟨hnum', hwait⟩ :=
          Board.testConfig_of_transfers (b := ins.foldl Board.step b) hidle hins'
        rw [List.foldl_append, hnum', hwait, Nat.shiftRight_eq_div_pow, Nat.shiftRight_eq_div_pow]
        omega

end

/-- A test that expects a register write and a data memory write. -/
def timeoutTest (timeoutCycleCount : List Char) : Test :=
  ⟨[], [], "r3 = -2\ndmem_word[0x3FF] = 0xFFFFFFFF\n".toList, timeoutCycleCount⟩

/-- The example has two expected updates. -/
theorem length_expectedUpdates_timeoutTest (timeoutCycleCount : List Char) :
    (expectedUpdates 1024 (timeoutTest timeoutCycleCount).expectedStateUpdates).length = 2 := by
  show (expectedUpdates 1024 "r3 = -2\ndmem_word[0x3FF] = 0xFFFFFFFF\n".toList).length = 2
  decide +kernel

/-- Two expected updates and the largest timeout arrive as they are. -/
theorem configuredAs_timeoutTest :
    ∃ sim fpga, genTestFiles 1024 (timeoutTest "65535".toList) = some (sim, fpga) ∧
      ConfiguredAs 1 2 65535 sim fpga := by
  obtain ⟨⟨sim, fpga⟩, hfiles⟩ := Option.isSome_iff_exists.mp
    (show (genTestFiles 1024 (timeoutTest "65535".toList)).isSome = true by decide +kernel)
  refine ⟨sim, fpga, hfiles, ?_⟩
  have hiff := configuredAs_iff (N := 1) hfiles (spells_toDigits (by decide) (by decide) 65535)
  rw [length_expectedUpdates_timeoutTest] at hiff
  exact hiff.mpr ⟨by decide, by decide, Or.inr (by decide)⟩

/-- A timeout that becomes zero. -/
theorem not_configuredAs :
    ∃ sim fpga, genTestFiles 1024 (timeoutTest "65536".toList) = some (sim, fpga) ∧
      Spells 10 "65536".toList 65536 ∧ ¬ ConfiguredAs 1 2 65536 sim fpga := by
  obtain ⟨⟨sim, fpga⟩, hfiles⟩ := Option.isSome_iff_exists.mp
    (show (genTestFiles 1024 (timeoutTest "65536".toList)).isSome = true by decide +kernel)
  refine ⟨sim, fpga, hfiles, spells_toDigits (by decide) (by decide) 65536, fun h => ?_⟩
  obtain ⟨updates, config, -, -, hloaded⟩ := h.loaded
  obtain ⟨-, -, ht⟩ := hloaded Board.blank .reset (sending _ _) (sending _ _) rfl
    (transfers_sending _ _) (transfers_sending _ _)
  -- the register has sixteen bits
  have hlt : 65536 < 2 ^ 16 := ht ▸ BitVec.isLt _
  exact absurd hlt (by decide)

end VivadoTest.Host
