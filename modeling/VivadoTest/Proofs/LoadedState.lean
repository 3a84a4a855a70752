import VivadoTest.Proofs.LoadedWords

/-!
# `VivadoTest.Proofs.LoadedState`: the initial state on the board

The words of the two dictionaries and of the program lie in regions of their own, so the loads do
not disturb each other, whatever their order.

* `HoldsInitialState`: the board holds what the test asks for.
* `initialState_loaded`: the load leaves it so, and the simulation starts with the same registers.

## The order of the loads

`fpga_test` loads the program, the data memory, the registers and the expected updates one after
the other. `LoadsState` says of a list of writes that it contains those of the first three and,
besides them, writes to the test monitor only. It does not say in which order, because every cell
gets the value of one word: `loads_regfile`, `loads_dmem` and `loads_imem` project the list to the
regions.

Words that the test does not mention are zero in the registers, which the reset pulse clears, and
left as they were in the memories; the file of an empty dictionary still sets word 0 to zero
(`mem_printedWords`).
-/

set_option autoImplicit false

namespace VivadoTest.Generator

open VivadoTest.Lib VivadoTest.Framework VivadoTest.Host

/-! ### The loaded words -/

/-- A program as writes of words: the instruction at index `a` goes to the word address `a`. -/
theorem mem_programWords {program : List (BitVec 32)} {a v : Nat} :
    (a, v) ∈ programWords program ↔ ∃ word, program[a]? = some word ∧ v = word.toNat := by
  unfold programWords
  constructor
  · intro h
    obtain ⟨⟨word, k⟩, hmem, heq⟩ := List.mem_map.mp h
    obtain ⟨rfl, rfl⟩ := Prod.mk.inj heq
    exact ⟨word, List.mem_zipIdx_iff_getElem?.mp hmem, rfl⟩
  · intro h
    obtain ⟨word, hword, rfl⟩ := h
    exact List.mem_map.mpr ⟨(word, a), List.mem_zipIdx_iff_getElem?.mpr hword, rfl⟩

/-- A word in the file of a dictionary is an entry, or the one that the filters find in an empty
line. -/
theorem mem_printedWords {d : Dict} {a v : Nat} : (a, v) ∈ printedWords d ↔
    (d.toList = [] ∧ a = 0 ∧ v = 0) ∨
      ∃ e ∈ d.toList, a = e.1.toNat ∧ v = (e.2 % 2 ^ 32).toNat := by
  unfold printedWords dictWords
  split
  · next hnil => simp [hnil]
  · next hnil =>
    rw [List.mem_map]
    constructor
    · intro h
      obtain ⟨e, he, heq⟩ := h
      obtain ⟨rfl, rfl⟩ := Prod.mk.inj heq
      exact Or.inr ⟨e, he, rfl, rfl⟩
    · intro h
      rcases h with ⟨hempty, -⟩ | ⟨e, he, rfl, rfl⟩
      · exact absurd hempty hnil
      · exact ⟨e, he, rfl⟩

section
variable {d : Dict} {last : Int → Option Int} {size : Nat}
  (hd : ∀ {key value : Int}, (key, value) ∈ d.toList ↔ last key = some value)
  (hrange : ∀ {key value : Int}, last key = some value → 0 ≤ key ∧ key < size)
include hd hrange

/-- Every entry of the dictionary is within the memory. -/
theorem printedWords_inside (hsize : 0 < size) : ∀ w ∈ printedWords d, w.1 < size := by
  rintro ⟨a, v⟩ hw
  rcases mem_printedWords.mp hw with ⟨-, rfl, -⟩ | ⟨⟨key, value⟩, he, rfl, -⟩
  · exact hsize
  · have hkey := hrange (hd.mp he)
    show key.toNat < size
    omega

/-- And it has one value for each address. -/
theorem printedWords_unique :
    ∀ w ∈ printedWords d, ∀ w' ∈ printedWords d, w.1 = w'.1 → w.2 = w'.2 := by
  rintro ⟨a, v⟩ hw ⟨a', v'⟩ hw' heq
  rcases mem_printedWords.mp hw with ⟨hnil, rfl, rfl⟩ | ⟨⟨key, value⟩, he, rfl, rfl⟩ <;>
    rcases mem_printedWords.mp hw' with ⟨hnil', rfl, rfl⟩ | ⟨⟨key', value'⟩, he', rfl, rfl⟩
  · rfl
  · rw [hnil] at he'
    exact absurd he' List.not_mem_nil
  · rw [hnil'] at he
    exact absurd he List.not_mem_nil
  · have hkey := hrange (hd.mp he)
    have hkey' := hrange (hd.mp he')
    obtain rfl : key = key' := by
      have htoNat : key.toNat = key'.toNat := heq
      omega
    obtain rfl := Option.some.inj ((hd.mp he).symm.trans (hd.mp he'))
    rfl

omit hrange in
/-- An assigned value is in the file. -/
theorem mem_printedWords_of_last {a : Nat} {value : Int} (h : last a = some value) :
    (a, (value % 2 ^ 32).toNat) ∈ printedWords d :=
  mem_printedWords.mpr (Or.inr ⟨(a, value), hd.mpr h, rfl, rfl⟩)

/-- A word in the file is an assigned value, or zero. -/
theorem last_of_mem_printedWords {a v : Nat} (h : (a, v) ∈ printedWords d) :
    v = 0 ∨ ∃ value, last a = some value := by
  rcases mem_printedWords.mp h with ⟨-, -, rfl⟩ | ⟨⟨key, value⟩, he, rfl, rfl⟩
  · exact Or.inl rfl
  · right
    have hlast := hd.mp he
    have hkey := hrange hlast
    refine ⟨value, ?_⟩
    rwa [show ((key.toNat : Nat) : Int) = key by omega]

end

/-! ### The loads -/

/-- The writes `ws` are those of the registers, of the data memory and of the program, and others to
the test monitor. -/
structure LoadsState (regs dmem imem ws : List (Nat × Nat)) : Prop where
  regs_inside : ∀ w ∈ regs, w.1 < 32
  dmem_inside : ∀ w ∈ dmem, w.1 < 1024
  imem_inside : ∀ w ∈ imem, w.1 < 1024
  regs_unique : ∀ w ∈ regs, ∀ w' ∈ regs, w.1 = w'.1 → w.2 = w'.2
  dmem_unique : ∀ w ∈ dmem, ∀ w' ∈ dmem, w.1 = w'.1 → w.2 = w'.2
  imem_unique : ∀ w ∈ imem, ∀ w' ∈ imem, w.1 = w'.1 → w.2 = w'.2
  regs_sub : ∀ w ∈ Region.regfile.writes regs, w ∈ ws
  dmem_sub : ∀ w ∈ Region.dmem.writes dmem, w ∈ ws
  imem_sub : ∀ w ∈ Region.imem.writes imem, w ∈ ws
  cases : ∀ w ∈ ws, w ∈ Region.regfile.writes regs ∨ w ∈ Region.dmem.writes dmem ∨
    w ∈ Region.imem.writes imem ∨ ∃ c, Hits w c ∧ c.isConfiguration = true

namespace LoadsState

variable {regs dmem imem ws : List (Nat × Nat)} (h : LoadsState regs dmem imem ws)
include h

/-- Where a write goes. -/
theorem hits_cases {w : Nat × Nat} (hw : w ∈ ws) :
    (w ∈ Region.regfile.writes regs ∧ ∃ a, Hits w (.regfile a)) ∨
      (w ∈ Region.dmem.writes dmem ∧ ∃ a, Hits w (.dmem a)) ∨
      (w ∈ Region.imem.writes imem ∧ ∃ a, Hits w (.imem a)) ∨
      ∃ c, Hits w c ∧ c.isConfiguration = true := by
  rcases h.cases w hw with hw | hw | hw | hw
  · obtain ⟨a, v, k, -, -, -, -, hcell⟩ := Region.hits_of_mem_writes h.regs_inside hw
    exact Or.inl ⟨hw, _, hcell⟩
  · obtain ⟨a, v, k, -, -, -, -, hcell⟩ := Region.hits_of_mem_writes h.dmem_inside hw
    exact Or.inr (Or.inl ⟨hw, _, hcell⟩)
  · obtain ⟨a, v, k, -, -, -, -, hcell⟩ := Region.hits_of_mem_writes h.imem_inside hw
    exact Or.inr (Or.inr (Or.inl ⟨hw, _, hcell⟩))
  · exact Or.inr (Or.inr (Or.inr hw))

/-- Every write of a load hits a cell. -/
theorem exists_hits {w : Nat × Nat} (hw : w ∈ ws) : ∃ c, Hits w c := by
  rcases h.hits_cases hw with ⟨-, a, ha⟩ | ⟨-, a, ha⟩ | ⟨-, a, ha⟩ | ⟨c, hc, -⟩
  · exact ⟨_, ha⟩
  · exact ⟨_, ha⟩
  · exact ⟨_, ha⟩
  · exact ⟨c, hc⟩

/-- Of the load, what concerns the register file. -/
theorem loads_regfile : Region.regfile.Loads regs ws where
  inside := h.regs_inside
  unique := h.regs_unique
  sub := h.regs_sub
  other := by
    intro w hw
    rcases h.hits_cases hw with ⟨hw, -⟩ | ⟨-, a, ha⟩ | ⟨-, a, ha⟩ | ⟨c, hc, hconf⟩
    · exact Or.inl hw
    · exact Or.inr fun offset _ hhits => absurd (ha.symm.trans hhits) (by simp [Region.regfile])
    · exact Or.inr fun offset _ hhits => absurd (ha.symm.trans hhits) (by simp [Region.regfile])
    · refine Or.inr fun offset _ hhits => ?_
      obtain rfl := Option.some.inj (hc.symm.trans hhits)
      exact absurd hconf Bool.false_ne_true

/-- Of the load, what concerns the data memory. -/
theorem loads_dmem : Region.dmem.Loads dmem ws where
  inside := h.dmem_inside
  unique := h.dmem_unique
  sub := h.dmem_sub
  other := by
    intro w hw
    rcases h.hits_cases hw with ⟨-, a, ha⟩ | ⟨hw, -⟩ | ⟨-, a, ha⟩ | ⟨c, hc, hconf⟩
    · exact Or.inr fun offset _ hhits => absurd (ha.symm.trans hhits) (by simp [Region.dmem])
    · exact Or.inl hw
    · exact Or.inr fun offset _ hhits => absurd (ha.symm.trans hhits) (by simp [Region.dmem])
    · refine Or.inr fun offset _ hhits => ?_
      obtain rfl := Option.some.inj (hc.symm.trans hhits)
      exact absurd hconf Bool.false_ne_true

/-- Of the load, what concerns the instruction memory. -/
theorem loads_imem : Region.imem.Loads imem ws where
  inside := h.imem_inside
  unique := h.imem_unique
  sub := h.imem_sub
  other := by
    intro w hw
    rcases h.hits_cases hw with ⟨-, a, ha⟩ | ⟨-, a, ha⟩ | ⟨hw, -⟩ | ⟨c, hc, hconf⟩
    · exact Or.inr fun offset _ hhits => absurd (ha.symm.trans hhits) (by simp [Region.imem])
    · exact Or.inr fun offset _ hhits => absurd (ha.symm.trans hhits) (by simp [Region.imem])
    · exact Or.inl hw
    · refine Or.inr fun offset _ hhits => ?_
      obtain rfl := Option.some.inj (hc.symm.trans hhits)
      exact absurd hconf Bool.false_ne_true

end LoadsState

/-! ### The words of a test -/

/-- The words in the file of the registers and in that of the data memory. -/
def registerWords (stdin : List Char) : List (Nat × Nat) :=
  printedWords (initState 1024 stdin).regfile

/-- The words of data memory that the file sets, as they are printed. -/
def dmemWords (stdin : List Char) : List (Nat × Nat) := printedWords (initState 1024 stdin).dmem

section
variable {stdin : List Char} {program : List (BitVec 32)}

/-- A register that is assigned has one of the 32 numbers. -/
theorem register_lt {key value : Int} (h : lastRegisterValue stdin key = some value) :
    0 ≤ key ∧ key < (32 : Nat) := by
  have hrange := (register_inRange h).1
  omega

/-- A word that is assigned has one of the 1024 addresses. -/
theorem dmem_lt {key value : Int} (h : lastDmemValue 1024 stdin key = some value) :
    0 ≤ key ∧ key < (1024 : Nat) := (dmem_inRange h).1

/-- A load of the state of a test. -/
theorem loadsState_of_test (hprogram : program.length ≤ 1024) {ws : List (Nat × Nat)}
    (hregs : ∀ w ∈ Region.regfile.writes (registerWords stdin), w ∈ ws)
    (hdmem : ∀ w ∈ Region.dmem.writes (dmemWords stdin), w ∈ ws)
    (himem : ∀ w ∈ Region.imem.writes (programWords program), w ∈ ws)
    (hcases : ∀ w ∈ ws, w ∈ Region.regfile.writes (registerWords stdin) ∨
      w ∈ Region.dmem.writes (dmemWords stdin) ∨ w ∈ Region.imem.writes (programWords program) ∨
        ∃ c, Hits w c ∧ c.isConfiguration = true) :
    LoadsState (registerWords stdin) (dmemWords stdin) (programWords program) ws where
  regs_inside := printedWords_inside mem_toList_regfile register_lt (by decide)
  dmem_inside := printedWords_inside mem_toList_dmem dmem_lt (by decide)
  imem_inside := by
    rintro ⟨a, v⟩ hw
    obtain ⟨word, hword, -⟩ := mem_programWords.mp hw
    exact Nat.lt_of_lt_of_le (List.getElem?_eq_some_iff.mp hword).1 hprogram
  regs_unique := printedWords_unique mem_toList_regfile register_lt
  dmem_unique := printedWords_unique mem_toList_dmem dmem_lt
  -- the address of an instruction is its place in the program
  imem_unique := by
    rintro ⟨a, v⟩ hw ⟨a', v'⟩ hw' heq
    obtain ⟨word, hword, rfl⟩ := mem_programWords.mp hw
    obtain ⟨word', hword', rfl⟩ := mem_programWords.mp hw'
    obtain rfl : a = a' := heq
    rw [Option.some.inj (hword.symm.trans hword')]
  regs_sub := hregs
  dmem_sub := hdmem
  imem_sub := himem
  cases := hcases

/-- A register after a load, the reset having cleared it. -/
theorem word_regfile_of_load {ws : List (Nat × Nat)}
    (h : LoadsState (registerWords stdin) (dmemWords stdin) (programWords program) ws) {st : Store}
    (hst : ∀ a, st (.regfile a) = 0) (r : RegAddr) :
    Region.regfile.word (Store.writes st ws) r.toNat = statedRegister stdin r := by
  have hloads := h.loads_regfile
  unfold statedRegister
  cases hlast : lastRegisterValue stdin r.toNat with
  | some value =>
    have hmem :=
      mem_printedWords_of_last (d := (initState 1024 stdin).regfile) mem_toList_regfile hlast
    exact (hloads.word_of_mem st hmem).trans (ofNat_emod value)
  | none =>
    by_cases hmem : ∃ v, (r.toNat, v) ∈ registerWords stdin
    · -- the register 0 of an empty file
      obtain ⟨v, hv⟩ := hmem
      rcases last_of_mem_printedWords mem_toList_regfile register_lt hv with rfl | ⟨value, hvalue⟩
      · exact hloads.word_of_mem st hv
      · rw [hlast] at hvalue
        exact absurd hvalue (by simp)
    · -- a register that no line names is still zero from the reset
      have hzero : Region.regfile.word st r.toNat = bigEndian fun _ => 0 :=
        bigEndian_congr fun k _ => hst _
      rw [hloads.word_of_not_mem st r.isLt (by simpa using hmem), hzero]
      rfl

end

/-! ### The board after the load -/

/-- The board holds the initial state `stdin` and the program. -/
structure HoldsInitialState {N : Nat} (stdin : List Char) (program : List (BitVec 32))
    (b : Board N) :
    Prop where
  regfile : ∀ r, b.regfile r = statedRegister stdin r
  dataMemory : ∀ (a : DmemAddr) (value : Int), lastDmemValue 1024 stdin a.toNat = some value →
    b.dataMemory.mem a = BitVec.ofInt 32 value
  instructionMemory : ∀ (k : Nat) (word : BitVec 32), program[k]? = some word →
    b.instructionMemory.mem (BitVec.ofNat 10 k) = word

/-- Whatever a board has done before, it holds the initial state and the program once the host has
stopped the processor, given it a reset pulse and sent `text`. The disabled processor makes no
register write. -/
def LeavesInitialState (stdin : List Char) (program : List (BitVec 32)) (text : List Char) : Prop :=
  ∀ (N : Nat) (b : Board N) (p : UartParser) (ins : List (BoardIn N)), p.mainSm = .mainIdle →
    Transfers p (HostcommProxy.stopProcessor ++ (HostcommProxy.resetProcessor ++ text)) ins →
    QuietWhileDisabled b ins → HoldsInitialState stdin program (ins.foldl Board.step b)

/-- A run in two parts is quiet when each part is. -/
theorem quietWhileDisabled_append {N : Nat} {b : Board N} {ins ins' : List (BoardIn N)} :
    QuietWhileDisabled b (ins ++ ins') ↔
      QuietWhileDisabled b ins ∧ QuietWhileDisabled (ins.foldl Board.step b) ins' := by
  induction ins generalizing b with
  | nil => exact ⟨fun h => ⟨trivial, h⟩, fun h => h.2⟩
  | cons i ins ih =>
    show _ ∧ QuietWhileDisabled (b.step i) (ins ++ ins') ↔
      (_ ∧ QuietWhileDisabled (b.step i) ins) ∧ _
    rw [ih, and_assoc]
    rfl

/-- A processor that makes no register write at all makes none while it is disabled. -/
theorem quietWhileDisabled_of_quiet {N : Nat} {b : Board N} {ins : List (BoardIn N)}
    (h : Quiet ins) : QuietWhileDisabled b ins := by
  induction ins generalizing b with
  | nil => exact trivial
  | cons i ins ih =>
    exact ⟨fun _ => h i List.mem_cons_self, ih fun j hj => h j (List.mem_cons_of_mem i hj)⟩

/-- A board whose processor does nothing. -/
theorem quietWhileDisabled_sending {N : Nat} (b : Board N) (p : UartParser) (text : List Char) :
    QuietWhileDisabled b (sending p text) := by
  refine quietWhileDisabled_of_quiet fun i hi => ?_
  obtain ⟨op, -, rfl⟩ := List.mem_map.mp hi
  exact fun k => rfl

/-- Commands that load the words of a test leave its initial state on every board, whatever was on
it before. -/
theorem leavesInitialState_of_loads {stdin : List Char} {program : List (BitVec 32)}
    (hprogram : program.length ≤ 1024) {ws : List (Nat × Nat)}
    (h : LoadsState (registerWords stdin) (dmemWords stdin) (programWords program) ws) :
    LeavesInitialState stdin program (commands ws) := by
  intro N b p ins hp hins hquiet
  -- Once stopped, the board only changes by the writes of the load.
  obtain ⟨ins₁, ins₂, rfl, hstop, hload⟩ := hins.append
  obtain ⟨-, hquiet⟩ := quietWhileDisabled_append.mp hquiet
  have hdisabled := Board.processorEnable_of_stopProcessor (b := b) hp hstop
  have hidle : (p.feed (encode HostcommProxy.stopProcessor)).1.mainSm = .mainIdle :=
    (UartParser.feed_commands hp [(0, 0)]).1
  have hcontent := Board.content_of_load hdisabled hidle (fun w hw => h.exists_hits hw) hload hquiet
  rw [List.foldl_append]
  refine ⟨fun r => ?_, fun a value hvalue => ?_, fun k word hword => ?_⟩
  · rw [Board.regfile_eq_word, hcontent]
    exact word_regfile_of_load h (fun a => if_pos rfl) r
  · have hmem := mem_printedWords_of_last (d := (initState 1024 stdin).dmem) mem_toList_dmem hvalue
    rw [Board.dataMemory_eq_word, hcontent]
    exact (h.loads_dmem.word_of_mem _ hmem).trans (ofNat_emod value)
  · have hk : k < 1024 := Nat.lt_of_lt_of_le (List.getElem?_eq_some_iff.mp hword).1 hprogram
    have haddr : (BitVec.ofNat 10 k).toNat = k := by
      rw [BitVec.toNat_ofNat]
      omega
    rw [Board.instructionMemory_eq_word, haddr, hcontent,
      h.loads_imem.word_of_mem _ (mem_programWords.mpr ⟨word, hword, rfl⟩), BitVec.ofNat_toNat,
      BitVec.setWidth_eq]

/-- The files of a test's initial state. -/
theorem exists_genInitDataStateFiles (stdin : List Char) :
    ∃ regs dmem, genInitDataStateFiles 1024 stdin = some (regs, dmem) ∧
      HostcommProxy.initRegfile (genFpgaInitRegfile regs)
        = some (commands (Region.regfile.writes (registerWords stdin))) ∧
      HostcommProxy.initDmem (genFpgaInitDmem dmem)
        = some (commands (Region.dmem.writes (dmemWords stdin))) ∧
      Regfile.fileBasedInit regs = some (statedRegister stdin) := by
  have hregs : HoldsRegisters (initState 1024 stdin).regfile :=
    fun e he => register_inRange (mem_toList_regfile.mp he)
  have hdmem : HoldsDmem (initState 1024 stdin).dmem := by
    intro e he
    have hrange := dmem_inRange (mem_toList_dmem.mp he)
    omega
  obtain ⟨lines, hlines, hregLines⟩ := exists_registerLines hregs
  obtain ⟨entries, hentries, hdmemLines⟩ := exists_dmemEntries hdmem
  refine ⟨_, _, ?_, initRegfile_eq hregLines, initDmem_eq hdmemLines,
    fileBasedInit_eq mem_toList_regfile hregLines⟩
  unfold genInitDataStateFiles
  simp only [hlines, hentries]
  rfl

/-- Texts of write commands, one after the other. -/
theorem flatten_eq_commands {texts : List (List Char)} {wss : List (List (Nat × Nat))}
    (h : List.Forall₂ (fun text ws => text = commands ws) texts wss) :
    texts.flatten = commands wss.flatten := by
  induction h with
  | nil => rfl
  | cons hfirst _ ih => rw [List.flatten_cons, List.flatten_cons, hfirst, ih, commands_append]

/-- The initial state and the program of a test arrive on the board, in whatever order the host
sends the three files, and the simulation starts with the same registers. -/
theorem initialState_loaded (stdin : List Char) {program : List (BitVec 32)}
    (hprogram : program.length ≤ 1024) :
    ∃ regs dmem regsText dmemText imemText, genInitDataStateFiles 1024 stdin = some (regs, dmem) ∧
      HostcommProxy.initRegfile (genFpgaInitRegfile regs) = some regsText ∧
      HostcommProxy.initDmem (genFpgaInitDmem dmem) = some dmemText ∧
      HostcommProxy.initImem (genFpgaInitImem (genInitImemFile program)) = some imemText ∧
      (∀ texts : List (List Char), texts.Perm [regsText, dmemText, imemText] →
        LeavesInitialState stdin program texts.flatten) ∧
      Regfile.fileBasedInit regs = some (statedRegister stdin) := by
  obtain ⟨regs, dmem, hfiles, hregs, hdmem, hsim⟩ := exists_genInitDataStateFiles stdin
  refine ⟨regs, dmem, _, _, _, hfiles, hregs, hdmem, initImem_eq program, ?_, hsim⟩
  intro texts hperm
  -- Each text is a list of writes, and so is every order of the three.
  have hall : List.Forall₂ (fun text ws => text = commands ws)
      [commands (Region.regfile.writes (registerWords stdin)),
        commands (Region.dmem.writes (dmemWords stdin)),
        commands (Region.imem.writes (programWords program))]
      [Region.regfile.writes (registerWords stdin), Region.dmem.writes (dmemWords stdin),
        Region.imem.writes (programWords program)] := .cons rfl (.cons rfl (.cons rfl .nil))
  obtain ⟨wss, htexts, hwss⟩ := List.perm_comp_forall₂ hperm hall
  -- What counts is which writes there are.
  have hmem : ∀ w, w ∈ wss.flatten ↔ w ∈ Region.regfile.writes (registerWords stdin) ∨
      w ∈ Region.dmem.writes (dmemWords stdin) ∨ w ∈ Region.imem.writes (programWords program) := by
    intro w
    rw [hwss.flatten.mem_iff]
    simp
  rw [flatten_eq_commands htexts]
  refine leavesInitialState_of_loads hprogram (loadsState_of_test hprogram ?_ ?_ ?_ ?_)
  · exact fun w hw => (hmem w).mpr (Or.inl hw)
  · exact fun w hw => (hmem w).mpr (Or.inr (Or.inl hw))
  · exact fun w hw => (hmem w).mpr (Or.inr (Or.inr hw))
  · intro w hw
    rcases (hmem w).mp hw with hw | hw | hw
    · exact Or.inl hw
    · exact Or.inr (Or.inl hw)
    · exact Or.inr (Or.inr (Or.inl hw))

/-- A test with one register and one instruction. -/
theorem initialState_loaded_one :
    [0x2001FFFF#32].length ≤ 1024 ∧
      ∃ text, HoldsInitialState "r1 = -1".toList [0x2001FFFF#32]
        ((sending .reset (HostcommProxy.stopProcessor ++ (HostcommProxy.resetProcessor ++
          text))).foldl Board.step (Board.blank : Board 1)) := by
  obtain ⟨regs, dmem, regsText, dmemText, imemText, -, -, -, -, hleaves, -⟩ :=
    initialState_loaded "r1 = -1".toList (show [0x2001FFFF#32].length ≤ 1024 by decide)
  exact ⟨by decide, _, hleaves _ (List.Perm.refl _) 1 Board.blank .reset _ rfl
    (transfers_sending _ _) (quietWhileDisabled_sending _ _ _)⟩

end VivadoTest.Generator
