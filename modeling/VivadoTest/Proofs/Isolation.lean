import VivadoTest.Proofs.ExpectedUpdates
import VivadoTest.Proofs.LoadedState

/-!
# `VivadoTest.Proofs.Isolation`: what a load does not overwrite

Two boards with different histories load the same test. The reset pulse clears the registers, but
the memories keep every word that the load does not write.

* `SameState`: the two boards start the test from the same state.
* `sameState_iff`: the histories for which they do.
* `not_isolated`: a word that an earlier test leaves behind.

## What is compared

Both boards are stopped first, by the same text. From there on the load is one list of writes
(`exists_loadWrites`), whatever the boards have done before (`LoadRun.content_eq`), and it covers
the registers, the listed words of data memory, the words of the program, and nothing else of the
three memories. So the states are equal exactly when the boards agreed in the words that are not
covered (`SameElsewhere`).

The condition is about tests that `Fits` the memories. A longer program wraps around in the
instruction memory, and more expected updates than the RAM has entries are written into the
registers.
-/

set_option autoImplicit false

namespace VivadoTest.Host

open VivadoTest.Lib VivadoTest.Framework VivadoTest.Generator

variable {N : Nat}

/-- The two boards hold the same in every word of the memories and in every register. -/
structure SameState (b b' : Board N) : Prop where
  instructionMemory : ∀ w, b.instructionMemory.mem w = b'.instructionMemory.mem w
  dataMemory : ∀ w, b.dataMemory.mem w = b'.dataMemory.mem w
  regfile : ∀ r, b.regfile r = b'.regfile r

/-- The initial state assigns the data memory word. When it assigns none, the file still lists
word 0. -/
def Listed (stdin : List Char) (w : DmemAddr) : Prop :=
  (∃ value, lastDmemValue 1024 stdin w.toNat = some value) ∨
    (w = 0 ∧ ∀ a, lastDmemValue 1024 stdin a = none)

/-- The two boards agree in the words of the memories that the test neither lists nor fills with
its program. -/
structure SameElsewhere (test : Test) (b b' : Board N) : Prop where
  instructionMemory : ∀ w : ImemAddr, test.testCode.length ≤ w.toNat →
    b.instructionMemory.mem w = b'.instructionMemory.mem w
  dataMemory : ∀ w, ¬ Listed test.initialState w → b.dataMemory.mem w = b'.dataMemory.mem w

/-- A run in which `fpga_test` loads a test: `stop` up to `stop_processor`, and `load` from there
on. -/
structure LoadRun (files : FpgaFiles) (b : Board N) (stop load : List (BoardIn N)) : Prop where
  sent : ∃ p text, p.mainSm = .mainIdle ∧ FpgaTest.loadStopped files = some text ∧
    Transfers p HostcommProxy.stopProcessor stop ∧
    Transfers (p.feed (encode HostcommProxy.stopProcessor)).1 text load
  quiet : QuietWhileDisabled b (stop ++ load)

/-- The program and the expected updates fit into the memories of the board. -/
structure Fits (test : Test) : Prop where
  testCode : test.testCode.length ≤ 1024
  expectedStateUpdates : (expectedUpdates 1024 test.expectedStateUpdates).length ≤ 512

/-! ### The writes of a load -/

/-- The bytes of a number that may be negative. -/
theorem exists_writeBytesBigEndian (addr : Nat) (val : Int) (numBytes : Nat) :
    ∃ ws, HostcommProxy.writeBytesBigEndian addr val numBytes = commands ws ∧
      ∀ w ∈ ws, addr ≤ w.1 ∧ w.1 < addr + numBytes := by
  refine ⟨(List.range numBytes).map fun i =>
    (addr + i, ((val >>> (8 * (numBytes - 1 - i))) % 256).toNat), ?_, ?_⟩
  · unfold HostcommProxy.writeBytesBigEndian commands
    rw [List.flatMap_map]
    refine List.flatMap_congr fun i _ => ?_
    rw [Int.toNat_of_nonneg (Int.emod_nonneg _ (by decide)), Nat.cast_add]
  · intro w hw
    obtain ⟨i, hi, rfl⟩ := List.mem_map.mp hw
    have hi := List.mem_range.mp hi
    exact ⟨Nat.le_add_right _ _, Nat.add_lt_add_left hi _⟩

/-- The configuration goes to registers of the test monitor. -/
theorem exists_initTestConfig {file text : List Char}
    (h : HostcommProxy.initTestConfig file = some text) :
    ∃ ws, text = commands ws ∧ ∀ w ∈ ws, ∃ c, Hits w c ∧ c.isConfiguration = true := by
  obtain ⟨config, -, h⟩ := Option.bind_eq_some_iff.mp h
  obtain ⟨numExpUpdates, -, h⟩ := Option.bind_eq_some_iff.mp h
  obtain ⟨timeout, -, h⟩ := Option.bind_eq_some_iff.mp h
  obtain ⟨ws, hws, haddr⟩ := exists_writeBytesBigEndian 5 numExpUpdates 2
  obtain ⟨ws', hws', haddr'⟩ := exists_writeBytesBigEndian 7 timeout 2
  refine ⟨ws ++ ws', ?_, fun w hw => ?_⟩
  · rw [commands_append, ← hws, ← hws']
    exact (Option.some.inj h).symm
  · have hrange : 5 ≤ w.1 ∧ w.1 < 9 := by
      rcases List.mem_append.mp hw with hw | hw
      · have := haddr w hw
        omega
      · have := haddr' w hw
        omega
    obtain ⟨a, v⟩ := w
    unfold Hits
    -- The four addresses are those of the configuration registers.
    have hcells : ∀ a < 9, 5 ≤ a → ∃ c, cellOf (BitVec.ofNat 16 a) = some c ∧
        c.isConfiguration = true := by
      intro a ha ha'
      match a, ha, ha' with
      | 5, _, _ => exact ⟨.numExpUpdatesHi, by decide, rfl⟩
      | 6, _, _ => exact ⟨.numExpUpdatesLo, by decide, rfl⟩
      | 7, _, _ => exact ⟨.maxWaitTimeHi, by decide, rfl⟩
      | 8, _, _ => exact ⟨.maxWaitTimeLo, by decide, rfl⟩
    exact hcells a hrange.2 hrange.1

section
variable {test : Test} {sim : SimFiles} {fpga : FpgaFiles}

/-- The commands of the files that `gen_test_files.sh` generates. -/
theorem loadFiles_of_genTestFiles (h : genTestFiles 1024 test = some (sim, fpga)) :
    HostcommProxy.initImem fpga.initImem
        = some (commands (Region.imem.writes (programWords test.testCode))) ∧
      HostcommProxy.initDmem fpga.initDmem
        = some (commands (Region.dmem.writes (dmemWords test.initialState))) ∧
      HostcommProxy.initRegfile fpga.initRegs
        = some (commands (Region.regfile.writes (registerWords test.initialState))) ∧
      HostcommProxy.initExpectedUpdates fpga.initExpUpd
        = some (commands (HostcommProxy.based 0x2000 (entryWrites 0
          ((expectedUpdates 1024 test.expectedStateUpdates).map ExpectedUpdate.raw)))) := by
  obtain ⟨regs, dmem, hfiles, hregs, hdmem, -⟩ := exists_genInitDataStateFiles test.initialState
  unfold genTestFiles at h
  obtain ⟨files, hfiles', h⟩ := Option.bind_eq_some_iff.mp h
  obtain rfl := Option.some.inj (hfiles.symm.trans hfiles')
  obtain ⟨simInitExpUpd, hexpUpd, h⟩ := Option.bind_eq_some_iff.mp h
  obtain ⟨-, -, h⟩ := Option.bind_eq_some_iff.mp h
  obtain ⟨fpgaInitExpUpd, hfpga, h⟩ := Option.bind_eq_some_iff.mp h
  obtain ⟨rfl, rfl⟩ := Prod.mk.inj (Option.some.inj h)
  obtain ⟨fpgaFile, hfile, hcommands⟩ := initExpectedUpdates_eq hexpUpd
  obtain rfl := Option.some.inj (hfile.symm.trans hfpga)
  exact ⟨initImem_eq _, hdmem, hregs, hcommands⟩

/-- The load of a test that fits, as writes. -/
theorem exists_loadWrites (h : genTestFiles 1024 test = some (sim, fpga)) (hfits : Fits test)
    {text : List Char} (htext : FpgaTest.loadStopped fpga = some text) :
    ∃ ws, text = HostcommProxy.resetProcessor ++ commands ws ∧
      LoadsState (registerWords test.initialState) (dmemWords test.initialState)
        (programWords test.testCode) ws := by
  obtain ⟨himem, hdmem, hregs, hexpUpd⟩ := loadFiles_of_genTestFiles h
  unfold FpgaTest.loadStopped at htext
  obtain ⟨imem, himem', htext⟩ := Option.bind_eq_some_iff.mp htext
  obtain ⟨dmem, hdmem', htext⟩ := Option.bind_eq_some_iff.mp htext
  obtain ⟨regs, hregs', htext⟩ := Option.bind_eq_some_iff.mp htext
  obtain ⟨expUpd, hexpUpd', htext⟩ := Option.bind_eq_some_iff.mp htext
  obtain ⟨config, hconfig, htext⟩ := Option.bind_eq_some_iff.mp htext
  obtain rfl := Option.some.inj (himem.symm.trans himem')
  obtain rfl := Option.some.inj (hdmem.symm.trans hdmem')
  obtain rfl := Option.some.inj (hregs.symm.trans hregs')
  obtain rfl := Option.some.inj (hexpUpd.symm.trans hexpUpd')
  -- The texts are those of the files, so the load is one list of writes: program, data memory,
  -- registers, expected updates and configuration.
  obtain ⟨configWs, rfl, hconf⟩ := exists_initTestConfig hconfig
  refine ⟨Region.imem.writes (programWords test.testCode) ++
    Region.dmem.writes (dmemWords test.initialState) ++
    Region.regfile.writes (registerWords test.initialState) ++
    HostcommProxy.based 0x2000 (entryWrites 0
      ((expectedUpdates 1024 test.expectedStateUpdates).map ExpectedUpdate.raw)) ++ configWs, ?_,
    loadsState_of_test hfits.testCode ?_ ?_ ?_ ?_⟩
  · rw [commands_append, commands_append, commands_append, commands_append, ← List.append_assoc,
      ← List.append_assoc, ← List.append_assoc, ← List.append_assoc]
    exact (Option.some.inj htext).symm
  · exact fun w hw => by simp [hw]
  · exact fun w hw => by simp [hw]
  · exact fun w hw => by simp [hw]
  · -- No write is outside the memory map.
    intro w hw
    simp only [List.mem_append] at hw
    rcases hw with (((hw | hw) | hw) | hw) | hw
    · exact Or.inr (Or.inr (Or.inl hw))
    · exact Or.inr (Or.inl hw)
    · exact Or.inl hw
    · obtain ⟨offset, hoffset⟩ := expupdWrites_inside hfits.expectedStateUpdates hw
      exact Or.inr (Or.inr (Or.inr ⟨_, hoffset, rfl⟩))
    · exact Or.inr (Or.inr (Or.inr (hconf w hw)))

/-- The cells of the board after a load. -/
theorem LoadRun.content_eq {b : Board N} {stop load : List (BoardIn N)}
    (hrun : LoadRun fpga b stop load) {ws : List (Nat × Nat)}
    (htext : FpgaTest.loadStopped fpga = some (HostcommProxy.resetProcessor ++ commands ws))
    (hws : ∀ w ∈ ws, ∃ c, Hits w c) :
    ((stop ++ load).foldl Board.step b).content = Store.writes
      (fun c => if c.isRegfile = true then 0 else (stop.foldl Board.step b).content c) ws := by
  obtain ⟨p, text, hp, htext', hstop, hload⟩ := hrun.sent
  obtain rfl := Option.some.inj (htext.symm.trans htext')
  obtain ⟨-, hquiet⟩ := quietWhileDisabled_append.mp hrun.quiet
  have hidle : (p.feed (encode HostcommProxy.stopProcessor)).1.mainSm = .mainIdle :=
    (UartParser.feed_commands hp [(0, 0)]).1
  rw [List.foldl_append]
  exact Board.content_of_load (Board.processorEnable_of_stopProcessor hp hstop) hidle hws
    hload hquiet

/-- The words in the file of the data memory. -/
theorem listed_iff {stdin : List Char} {w : DmemAddr} :
    Listed stdin w ↔ ∃ v, (w.toNat, v) ∈ dmemWords stdin := by
  unfold dmemWords
  constructor
  · intro h
    -- An assigned word is printed. Without any the file has an empty line, which is word 0 to the
    -- filter.
    rcases h with ⟨value, hvalue⟩ | ⟨rfl, hnone⟩
    · exact ⟨_, mem_printedWords_of_last mem_toList_dmem hvalue⟩
    · refine ⟨0, mem_printedWords.mpr (Or.inl ⟨?_, rfl, rfl⟩)⟩
      refine List.eq_nil_iff_forall_not_mem.mpr fun e he => ?_
      obtain ⟨a, value⟩ := e
      have hlast := mem_toList_dmem.mp he
      rw [hnone a] at hlast
      exact absurd hlast (by simp)
  · intro h
    obtain ⟨v, hv⟩ := h
    rcases mem_printedWords.mp hv with ⟨hnil, hw, -⟩ | ⟨⟨a, value⟩, he, hw, -⟩
    · refine Or.inr ⟨BitVec.eq_of_toNat_eq hw, fun a => ?_⟩
      cases hlast : lastDmemValue 1024 stdin a with
      | none => rfl
      | some value =>
        have hmem := mem_toList_dmem.mpr hlast
        rw [hnil] at hmem
        exact absurd hmem List.not_mem_nil
    · left
      have hlast := mem_toList_dmem.mp he
      have ha := (dmem_inRange hlast).1
      have hwa : (w.toNat : Int) = a := by
        have hw' : w.toNat = a.toNat := hw
        omega
      exact ⟨value, by rw [hwa]; exact hlast⟩

/-- The program leaves an instruction memory word alone exactly when it is too short. -/
theorem not_mem_programWords_iff {program : List (BitVec 32)} {a : Nat} :
    (∀ v, (a, v) ∉ programWords program) ↔ program.length ≤ a := by
  constructor
  · intro hnot
    by_contra hlt
    have hword := List.getElem?_eq_getElem (Nat.not_le.mp hlt)
    exact hnot _ (mem_programWords.mpr ⟨_, hword, rfl⟩)
  · intro hle v hv
    obtain ⟨word, hword, -⟩ := mem_programWords.mp hv
    exact absurd (List.getElem?_eq_some_iff.mp hword).1 (Nat.not_lt.mpr hle)

/-- Two boards start a test that fits from the same state exactly when they have agreed, once
stopped, in the words that the test does not load. -/
theorem sameState_iff (h : genTestFiles 1024 test = some (sim, fpga)) (hfits : Fits test)
    {b b' : Board N} {stop load stop' load' : List (BoardIn N)} (hrun : LoadRun fpga b stop load)
    (hrun' : LoadRun fpga b' stop' load') :
    SameState ((stop ++ load).foldl Board.step b) ((stop' ++ load').foldl Board.step b') ↔
      SameElsewhere test (stop.foldl Board.step b) (stop'.foldl Board.step b') := by
  obtain ⟨p, text, -, htext, -, -⟩ := hrun.sent
  obtain ⟨ws, rfl, hloads⟩ := exists_loadWrites h hfits htext
  have hws : ∀ w ∈ ws, ∃ c, Hits w c := fun w hw => hloads.exists_hits hw
  have hcontent := hrun.content_eq htext hws
  have hcontent' := hrun'.content_eq htext hws
  -- A word that the test loads is the same on both boards, any other one keeps its value.
  have himem : ∀ w : ImemAddr, ((stop ++ load).foldl Board.step b).instructionMemory.mem w
        = ((stop' ++ load').foldl Board.step b').instructionMemory.mem w ↔
      (test.testCode.length ≤ w.toNat → (stop.foldl Board.step b).instructionMemory.mem w
        = (stop'.foldl Board.step b').instructionMemory.mem w) := by
    intro w
    simp only [Board.instructionMemory_eq_word]
    rw [hcontent, hcontent', hloads.loads_imem.word_eq_iff _ _ w.isLt, not_mem_programWords_iff]
    rfl
  have hdmem : ∀ w : DmemAddr, ((stop ++ load).foldl Board.step b).dataMemory.mem w
        = ((stop' ++ load').foldl Board.step b').dataMemory.mem w ↔
      (¬ Listed test.initialState w → (stop.foldl Board.step b).dataMemory.mem w
        = (stop'.foldl Board.step b').dataMemory.mem w) := by
    intro w
    simp only [Board.dataMemory_eq_word]
    rw [hcontent, hcontent', hloads.loads_dmem.word_eq_iff _ _ w.isLt, listed_iff, not_exists]
    rfl
  constructor
  · intro hsame
    exact ⟨fun w => (himem w).mp (hsame.instructionMemory w),
      fun w => (hdmem w).mp (hsame.dataMemory w)⟩
  · intro helse
    refine ⟨fun w => (himem w).mpr (helse.instructionMemory w),
      fun w => (hdmem w).mpr (helse.dataMemory w), fun r => ?_⟩
    -- every register is either reset or written
    rw [Board.regfile_eq_word, Board.regfile_eq_word, hcontent, hcontent',
      word_regfile_of_load hloads (fun a => if_pos rfl) r,
      word_regfile_of_load hloads (fun a => if_pos rfl) r]

end

/-! ### Two histories -/

/-- What `fpga_test` sends for a test behind `stop_processor`. -/
def loadText (test : Test) : List Char :=
  ((genTestFiles 1024 test).bind fun files => FpgaTest.loadStopped files.2).getD []

/-- The two parts of a run that loads a test, the processor doing nothing. -/
def stopping (N : Nat) : List (BoardIn N) := sending .reset HostcommProxy.stopProcessor

/-- The second part: what the host sends for the test, from the parser's state after the first. -/
def loading (N : Nat) (test : Test) : List (BoardIn N) :=
  sending (UartParser.reset.feed (encode HostcommProxy.stopProcessor)).1 (loadText test)

/-- The two parts are a run that loads the test on any board, where the test's files can be sent.
-/
theorem loadRun_loading (test : Test)
    (h : ((genTestFiles 1024 test).bind fun files => FpgaTest.loadStopped files.2).isSome = true) :
    ∃ sim fpga, genTestFiles 1024 test = some (sim, fpga) ∧
      ∀ (N : Nat) (b : Board N), LoadRun fpga b (stopping N) (loading N test) := by
  obtain ⟨text, htext⟩ := Option.isSome_iff_exists.mp h
  have hload : loadText test = text := by
    unfold loadText
    rw [htext]
    rfl
  obtain ⟨⟨sim, fpga⟩, hfiles, htext⟩ := Option.bind_eq_some_iff.mp htext
  refine ⟨sim, fpga, hfiles, fun N b => ⟨⟨.reset, text, rfl, htext, transfers_sending _ _, ?_⟩, ?_⟩⟩
  · rw [← hload]
    exact transfers_sending _ _
  · exact quietWhileDisabled_append.mpr
      ⟨quietWhileDisabled_sending _ _ _, quietWhileDisabled_sending _ _ _⟩

/-- A test without an initial state, and one that stores a word. -/
def plainTest : Test := ⟨[], [], [], "100".toList⟩

/-- A test that sets one word of data memory and has no program. -/
def storingTest : Test := ⟨"dmem_word[5] = 1".toList, [], [], "100".toList⟩

/-- The second history of `not_isolated`: `storingTest` has been loaded. -/
def usedBoard : Board 1 := (stopping 1 ++ loading 1 storingTest).foldl Board.step Board.blank

/-- A test with two instructions, that starts from the word that `storingTest` leaves. -/
def workingTest : Test :=
  ⟨"dmem_word[5] = 7\nr1 = 3".toList, [0x20220004, 0xAC020014], "r2 = 7\ndmem_word[5] = 7".toList,
    "100".toList⟩

/-- Loading it on a new board and on the one that has a history. -/
theorem sameState_iff_workingTest :
    ∃ sim fpga, genTestFiles 1024 workingTest = some (sim, fpga) ∧ Fits workingTest ∧
      LoadRun fpga (Board.blank : Board 1) (stopping 1) (loading 1 workingTest) ∧
      LoadRun fpga usedBoard (stopping 1) (loading 1 workingTest) ∧
      (SameState ((stopping 1 ++ loading 1 workingTest).foldl Board.step (Board.blank : Board 1))
          ((stopping 1 ++ loading 1 workingTest).foldl Board.step usedBoard) ↔
        SameElsewhere workingTest ((stopping 1).foldl Board.step (Board.blank : Board 1))
          ((stopping 1).foldl Board.step usedBoard)) := by
  obtain ⟨sim, fpga, hfiles, hrun⟩ := loadRun_loading workingTest (by decide +kernel)
  have hfits : Fits workingTest := ⟨by decide, by decide +kernel⟩
  exact ⟨sim, fpga, hfiles, hfits, hrun 1 _, hrun 1 _,
    sameState_iff hfiles hfits (hrun 1 _) (hrun 1 _)⟩

/-- A word that an earlier test leaves behind. -/
theorem not_isolated :
    ∃ sim fpga sim' fpga', genTestFiles 1024 plainTest = some (sim, fpga) ∧
      genTestFiles 1024 storingTest = some (sim', fpga') ∧
      LoadRun fpga' (Board.blank : Board 1) (stopping 1) (loading 1 storingTest) ∧
      LoadRun fpga (Board.blank : Board 1) (stopping 1) (loading 1 plainTest) ∧
      LoadRun fpga usedBoard (stopping 1) (loading 1 plainTest) ∧
      ¬ SameState ((stopping 1 ++ loading 1 plainTest).foldl Board.step (Board.blank : Board 1))
        ((stopping 1 ++ loading 1 plainTest).foldl Board.step usedBoard) := by
  obtain ⟨sim, fpga, hfiles, hrun⟩ := loadRun_loading plainTest (by decide +kernel)
  obtain ⟨sim', fpga', hfiles', hrun'⟩ := loadRun_loading storingTest (by decide +kernel)
  refine ⟨sim, fpga, sim', fpga', hfiles, hfiles', hrun' 1 _, hrun 1 _, hrun 1 _, fun hsame => ?_⟩
  have hblank : ((stopping 1 ++ loading 1 plainTest).foldl Board.step
      (Board.blank : Board 1)).dataMemory.mem 5 = 0 := by decide +kernel
  have hused : ((stopping 1 ++ loading 1 plainTest).foldl Board.step usedBoard).dataMemory.mem 5
      = 1 := by decide +kernel
  have hword := hsame.dataMemory 5
  rw [hblank, hused] at hword
  exact absurd hword (by decide)

end VivadoTest.Host
