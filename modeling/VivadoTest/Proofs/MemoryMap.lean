import VivadoTest.Spec.MemoryMap
import VivadoTest.Proofs.Verdict

/-!
# `VivadoTest.Proofs.MemoryMap`: the host's address space is a byte store

One cycle of the board without a reset and with the processor disabled is one cycle of the
store (`Board.content_step`): the write masks, the decoder and the register file's
read-modify-write change the addressed cell and no other. A settled read returns the cell
(`Board.regReadData_settled`).

* `Board.hostAccess_faithful`: along any run of host cycles, what a settled read returns and which
  words the processor finds.

## The proof of one cycle

`Board.content_step` is one statement about all cells, put together from one lemma for each kind of
cell. Each of these compares two ways to the same byte: through the hardware, where the address is
decoded into write enables, a word address and a byte lane, and through the store, where it decodes
to a cell. The lemmas of the first section take an address apart (`byteAddr_eq_iff`,
`topBits_dmem_iff`), `cellOf_eq_some_iff` reads the decoder backwards, and the lanes are
`VivadoTest.Lib.ByteLanes`.

Some addresses lead to one cell: data memory ignores two bits of an address, instruction memory
too. Some bytes do not exist: of an entry of the expected updates 43 of 64 bits are implemented.
Both are part of the abstract store (`cellOf`, `Cell.mask`), so a read returns what the cell keeps.

## Runs

`storeSimulation` lifts the step to runs of the host. `HostOwned` is kept by every access that
neither enables the processor nor resets it; what the processor finds afterwards in its two
memories and in its registers is put together from the four bytes of a word (`dataMemory_mem_eq`).
-/

set_option autoImplicit false

namespace VivadoTest.Framework

open VivadoTest.Lib

variable {N : Nat}

/-! ### Addresses -/

/-- An address is its high part and its low part. -/
theorem eq_of_parts {n k : Nat} {a b : BitVec (n + k)}
    (hhi : a.extractLsb' k n = b.extractLsb' k n) (hlo : a.extractLsb' 0 k = b.extractLsb' 0 k) :
    a = b := by
  apply BitVec.eq_of_getLsbD_eq
  intro i hi
  by_cases h : i < k
  · have hb := congrArg (fun v => v.getLsbD i) hlo
    simpa [h] using hb
  · have hb := congrArg (fun v => v.getLsbD (i - k)) hhi
    simpa [show i - k < n by omega, show k + (i - k) = i by omega] using hb

/-- A word has four bytes, and the two low bits of a host address select one of them. -/
theorem hostcommByteSel_lt (a : ByteAddr) : hostcommByteSel a < 4 := (a.extractLsb' 0 2).isLt

/-- A byte address is the address of its word and the place of the byte in it. The case split
between the byte that is written and the other bytes of its word rests on this. -/
theorem byteAddr_eq_iff (a b : ByteAddr) :
    a = b ↔ hostcommWordAddr a = hostcommWordAddr b ∧ hostcommByteSel a = hostcommByteSel b := by
  constructor
  · rintro rfl
    exact ⟨rfl, rfl⟩
  · rintro ⟨hw, hs⟩
    exact eq_of_parts (n := 10) (k := 2) hw (BitVec.eq_of_toNat_eq hs)

/-- The same for the byte addresses of the registers, which are two bits wider than a register
number. -/
theorem regByteAddr_eq_iff (a b : RegByteAddr) :
    a = b ↔ a.extractLsb' 2 5 = b.extractLsb' 2 5
      ∧ (a.extractLsb' 0 2).toNat = (b.extractLsb' 0 2).toNat := by
  constructor
  · rintro rfl
    exact ⟨rfl, rfl⟩
  · rintro ⟨hw, hs⟩
    exact eq_of_parts (n := 5) (k := 2) hw (BitVec.eq_of_toNat_eq hs)

/-- The same for the expected updates. Eight addresses belong to an entry, of which six have a
byte behind them. -/
theorem expupdByteAddr_eq_iff (a b : BitVec 12) :
    a = b ↔ a.extractLsb' 3 9 = b.extractLsb' 3 9
      ∧ (a.extractLsb' 0 3).toNat = (b.extractLsb' 0 3).toNat := by
  constructor
  · rintro rfl
    exact ⟨rfl, rfl⟩
  · rintro ⟨hw, hs⟩
    exact eq_of_parts (n := 9) (k := 3) hw (BitVec.eq_of_toNat_eq hs)

/-- The two top bits of an address as the write enables test them. -/
theorem topBits_dmem_iff (a : BitVec 16) :
    (a.getLsbD 15 && !a.getLsbD 14) = true ↔ a.extractLsb' 14 2 = 0b10 := by
  have h1 : a.getLsbD 15 = (a.extractLsb' 14 2).getLsbD 1 := by simp
  have h0 : a.getLsbD 14 = (a.extractLsb' 14 2).getLsbD 0 := by simp
  rw [h1, h0]
  generalize a.extractLsb' 14 2 = t
  revert t
  decide

/-- The two topmost bits decide that an address is one of the instruction memory. `HostComm` tests
them one by one, where `cellOf` compares the pair. -/
theorem topBits_imem_iff (a : BitVec 16) :
    (a.getLsbD 15 && a.getLsbD 14) = true ↔ a.extractLsb' 14 2 = 0b11 := by
  have h1 : a.getLsbD 15 = (a.extractLsb' 14 2).getLsbD 1 := by simp
  have h0 : a.getLsbD 14 = (a.extractLsb' 14 2).getLsbD 0 := by simp
  rw [h1, h0]
  generalize a.extractLsb' 14 2 = t
  revert t
  decide

/-- The regions selected by the top nibble lie below those selected by the top bits. -/
theorem topBits_of_topNibble (a : BitVec 16) :
    (a.extractLsb' 14 2 = 0b10 → a.extractLsb' 12 4 ≠ 0x3 ∧ a.extractLsb' 12 4 ≠ 0x2) ∧
    (a.extractLsb' 14 2 = 0b11 → a.extractLsb' 12 4 ≠ 0x3 ∧ a.extractLsb' 12 4 ≠ 0x2) := by
  have htop : a.extractLsb' 14 2 = (a.extractLsb' 12 4).extractLsb' 2 2 := by
    apply BitVec.eq_of_getLsbD_eq
    intro i hi
    simp [hi, show 2 + i < 4 by omega, ← Nat.add_assoc]
  rw [htop]
  generalize a.extractLsb' 12 4 = t
  revert t
  decide

/-! ### Where an address decodes to -/

/-- The decoder read backwards: the conditions the hardware tests for each cell. -/
theorem cellOf_eq_some_iff (a : BitVec 16) (c : Cell) :
    cellOf a = some c ↔
      match c with
      | .dmem x => a.extractLsb' 14 2 = 0b10 ∧ a.extractLsb' 0 12 = x
      | .imem x => a.extractLsb' 14 2 = 0b11 ∧ a.extractLsb' 0 12 = x
      | .regfile x => a.extractLsb' 12 4 = 0x3 ∧ a.extractLsb' 0 7 = x
      | .expupd x => a.extractLsb' 12 4 = 0x2 ∧ a.extractLsb' 0 12 = x
      | .numExpUpdatesHi => a = REG_ADDR_NUM_EXPECTED_UPDATES_HI
      | .numExpUpdatesLo => a = REG_ADDR_NUM_EXPECTED_UPDATES_LO
      | .maxWaitTimeHi => a = REG_ADDR_MAX_WAIT_TIME_HI
      | .maxWaitTimeLo => a = REG_ADDR_MAX_WAIT_TIME_LO := by
  have htop := topBits_of_topNibble a
  -- one condition of the decoder at a time, each of them excluding the later ones
  cases c with
  | dmem x => unfold cellOf; grind
  | imem x => unfold cellOf; grind
  | regfile x => unfold cellOf; grind
  | expupd x => unfold cellOf; grind
  | numExpUpdatesHi => unfold cellOf REG_ADDR_NUM_EXPECTED_UPDATES_HI; grind
  | numExpUpdatesLo => unfold cellOf REG_ADDR_NUM_EXPECTED_UPDATES_LO; grind
  | maxWaitTimeHi => unfold cellOf REG_ADDR_MAX_WAIT_TIME_HI; grind
  | maxWaitTimeLo => unfold cellOf REG_ADDR_MAX_WAIT_TIME_LO; grind

/-! ### Data and instruction memory -/

/-- The byte lanes of a memory: the addressed byte of the word takes the value, the other three
keep theirs. Byte 0 of a word is its most significant one. -/
theorem bigEndianByte_hostcommWrite (wen : Bool) (addr : ByteAddr) (v : Byte) (word : Datapath)
    {sel : Nat} (hsel : sel < 4) :
    bigEndianByte (hostcommWrite wen addr v word) sel
      = if wen = true ∧ sel = hostcommByteSel addr then v else bigEndianByte word sel := by
  have hlt := hostcommByteSel_lt addr
  unfold bigEndianByte hostcommWrite hostcommByteWenMask
  rw [byteAt_writeLanes_shifted (n := 4) wen v word (by decide) _ (by omega)]
  refine if_congr (and_congr_right fun _ => ?_) rfl rfl
  omega

/-- The host's write seen byte by byte: the addressed byte changes and no other. -/
theorem bigEndianByte_update_hostcommWrite (mem : BitVec 10 → Datapath) (wen : Bool)
    (addr : ByteAddr) (v : Byte) (a : ByteAddr) :
    bigEndianByte
        (Function.update mem (hostcommWordAddr addr)
          (hostcommWrite wen addr v (mem (hostcommWordAddr addr))) (hostcommWordAddr a))
        (hostcommByteSel a)
      = if wen = true ∧ addr = a then v
        else bigEndianByte (mem (hostcommWordAddr a)) (hostcommByteSel a) := by
  rw [Function.update_apply]
  by_cases hw : hostcommWordAddr a = hostcommWordAddr addr
  · rw [if_pos hw, bigEndianByte_hostcommWrite _ _ _ _ (hostcommByteSel_lt a), ← hw]
    refine if_congr (and_congr_right fun _ => ?_) rfl rfl
    rw [byteAddr_eq_iff, eq_comm (a := hostcommByteSel a)]
    simp [hw]
  · rw [if_neg hw, if_neg]
    rintro ⟨-, rfl⟩
    exact hw rfl

/-- While the processor is disabled the port of the host works. An edge changes the addressed word
only, and of it the lane that is enabled. -/
theorem DataMemory.mem_step (m : DataMemory) (input : DataMemoryIn)
    (hen : input.processorEnable = false) :
    (m.step input).mem = Function.update m.mem (hostcommWordAddr input.hostcommAddr)
      (hostcommWrite input.hostcommWen input.hostcommAddr input.hostcommDataIn
        (m.mem (hostcommWordAddr input.hostcommAddr))) := by
  unfold DataMemory.step
  rw [if_neg (by simp [hen])]

/-- The instruction memory has a single port, which belongs to the host then. -/
theorem InstructionMemory.mem_step (m : InstructionMemory) (input : InstructionMemoryIn)
    (hen : input.processorEnable = false) :
    (m.step input).mem = Function.update m.mem (hostcommWordAddr input.hostcommAddr)
      (hostcommWrite input.hostcommWen input.hostcommAddr input.hostcommDataIn
        (m.mem (hostcommWordAddr input.hostcommAddr))) := by
  unfold InstructionMemory.step
  rw [if_neg (by simp [hen])]

/-- The host's port shows the addressed word as it is after the edge. -/
theorem DataMemory.hostcommOut_step (m : DataMemory) (input : DataMemoryIn)
    (hen : input.processorEnable = false) :
    (m.step input).hostcommOut = (m.step input).mem (hostcommWordAddr input.hostcommAddr) := by
  rw [m.mem_step _ hen, Function.update_self]
  unfold DataMemory.step
  rw [if_neg (by simp [hen])]

/-- Its output is registered. After an edge it shows the word at the address of that edge, with
the write of the edge already in it. -/
theorem InstructionMemory.dataOut_step (m : InstructionMemory) (input : InstructionMemoryIn)
    (hen : input.processorEnable = false) :
    (m.step input).dataOut = (m.step input).mem (hostcommWordAddr input.hostcommAddr) := by
  rw [m.mem_step _ hen, Function.update_self]
  unfold InstructionMemory.step
  rw [if_neg (by simp [hen])]

/-! ### Register file -/

/-- A register file that the processor does not write. -/
theorem Regfile.step_of_quiet (r : Regfile) {ports : Fin N → RegfileWritePortIn}
    (hports : ∀ i, (ports i).we = false) (d : RegfileDebugIn) :
    r.step false ports d
      = if d.we = true then Function.update r d.debugRegAddr (d.debugWriteValue r) else r := by
  have hwritten : (List.finRange N).foldl
      (fun acc i =>
        if (ports i).we then Function.update acc (ports i).dst (ports i).value else acc) r
        = r := by
    generalize List.finRange N = l
    induction l with
    | nil => rfl
    | cons i l ih =>
      rw [List.foldl_cons, if_neg (by simp [hports i])]
      exact ih
  unfold Regfile.step
  simp only [Bool.false_eq_true, if_false, hwritten]

/-- The debug port writes one byte of a register. Nothing else is written as long as the processor
makes no register write of its own. -/
theorem Regfile.byte_step (r : Regfile) {ports : Fin N → RegfileWritePortIn}
    (hports : ∀ i, (ports i).we = false) (d : RegfileDebugIn) (a : RegByteAddr) :
    bigEndianByte (r.step false ports d (a.extractLsb' 2 5)) (a.extractLsb' 0 2).toNat
      = if d.we = true ∧ d.byteAddr = a then d.byte
        else bigEndianByte (r (a.extractLsb' 2 5)) (a.extractLsb' 0 2).toNat := by
  have hsel : (a.extractLsb' 0 2).toNat < 4 := (a.extractLsb' 0 2).isLt
  have hdsel : d.debugByteSel < 4 := (d.byteAddr.extractLsb' 0 2).isLt
  rw [Regfile.step_of_quiet r hports]
  by_cases hwe : d.we = true
  · rw [if_pos hwe, Function.update_apply]
    -- In the addressed register one byte changes, which is that of `a` when the places in the word
    -- agree.
    by_cases hw : a.extractLsb' 2 5 = d.debugRegAddr
    · rw [if_pos hw]
      unfold bigEndianByte RegfileDebugIn.debugWriteValue
      rw [byteAt_setByte _ _ _ _ (by omega), ← hw]
      refine if_congr ?_ rfl rfl
      rw [regByteAddr_eq_iff]
      constructor
      · intro h
        refine ⟨hwe, hw.symm, ?_⟩
        show d.debugByteSel = _
        omega
      · rintro ⟨-, -, h⟩
        have h' : d.debugByteSel = (a.extractLsb' 0 2).toNat := h
        omega
    · rw [if_neg hw, if_neg]
      rintro ⟨-, rfl⟩
      exact hw rfl
  · rw [if_neg hwe, if_neg fun h => hwe h.1]

/-! ### Expected updates -/

/-- The RAM of the expected updates has six lanes, the first of them at the highest address of the
entry. An edge writes the lane that the host addresses. -/
theorem byteAt_ramStep (s : TestMonitorState N) (input : TestMonitorIn N) (a : BitVec 12)
    (ha : (a.extractLsb' 0 3).toNat < 6) :
    byteAt (s.ramStep input 0 (a.extractLsb' 3 9)) (5 - (a.extractLsb' 0 3).toNat)
      = if input.expupdWe = true ∧ input.expupdByteWriteAddr = a then input.expupdWriteValue
        else byteAt (s.expupdRam (a.extractLsb' 3 9)) (5 - (a.extractLsb' 0 3).toNat) := by
  unfold TestMonitorState.ramStep
  rw [Function.update_apply, s.expectedUpdatesRam_eq]
  by_cases hw : a.extractLsb' 3 9 = input.expupdWriteAddr
  · rw [if_pos hw]
    unfold TestMonitorIn.expupdWenMask TestMonitorIn.expupdWriteValue48
    rw [byteAt_writeLanes_shifted (n := 6) _ _ _ (by decide) _ (by omega), ← hw]
    refine if_congr (and_congr_right fun _ => ?_) rfl rfl
    rw [expupdByteAddr_eq_iff]
    constructor
    · intro h
      refine ⟨hw.symm, ?_⟩
      show input.expupdByteSel = _
      omega
    · rintro ⟨-, h⟩
      have h' : input.expupdByteSel = (a.extractLsb' 0 3).toNat := h
      omega
  · rw [if_neg hw, if_neg]
    rintro ⟨-, rfl⟩
    exact hw rfl

/-! ### One cycle of the board -/

/-- A cycle in which only the host can change what it reaches: no reset of the board and no
register written by the processor. -/
structure BoardIn.HostCycle (input : BoardIn N) : Prop where
  reset : input.reset = false
  writePorts : ∀ i, (input.proc.writePorts i).we = false

namespace Board

variable {b : Board N} {input : BoardIn N}

/-- One rising edge, seen at a byte of the data memory: it is what the store of the cells has
there after the accesses on the bus. -/
theorem content_step_dmem (hen : b.processorEnable = false) (a : ByteAddr) :
    (b.step input).content (.dmem a) = Store.step b.content input.bus (.dmem a) := by
  have hmem : (b.step input).dataMemory.mem = _ :=
    b.dataMemory.mem_step (b.dataMemoryIn input) hen
  have hwe : (b.dataMemoryIn input).hostcommWen = true
      ↔ input.bus.regWriteEnable = true ∧ input.bus.regAddress.extractLsb' 14 2 = 0b10 := by
    have hen' : b.hostComm.procEnableSignal = false := hen
    simp only [dataMemoryIn, HostBus.dmemWrEn, hen', Bool.not_false, Bool.and_true]
    rw [Bool.and_eq_true, topBits_dmem_iff]
  rw [content_dmem, hmem]
  refine (bigEndianByte_update_hostcommWrite _ _ _ _ a).trans ?_
  refine if_congr ?_ (BitVec.and_allOnes).symm rfl
  rw [hwe, HostBus.WritesTo, cellOf_eq_some_iff, and_assoc]
  rfl

/-- The same at a byte of the instruction memory. -/
theorem content_step_imem (hen : b.processorEnable = false) (a : ByteAddr) :
    (b.step input).content (.imem a) = Store.step b.content input.bus (.imem a) := by
  have hmem : (b.step input).instructionMemory.mem = _ :=
    b.instructionMemory.mem_step (b.instructionMemoryIn input) hen
  have hwe : (b.instructionMemoryIn input).hostcommWen = true
      ↔ input.bus.regWriteEnable = true ∧ input.bus.regAddress.extractLsb' 14 2 = 0b11 := by
    have hen' : b.hostComm.procEnableSignal = false := hen
    simp only [instructionMemoryIn, HostBus.imemWrEn, hen', Bool.not_false, Bool.and_true]
    rw [Bool.and_eq_true, topBits_imem_iff]
  rw [content_imem, hmem]
  refine (bigEndianByte_update_hostcommWrite _ _ _ _ a).trans ?_
  refine if_congr ?_ (BitVec.and_allOnes).symm rfl
  rw [hwe, HostBus.WritesTo, cellOf_eq_some_iff, and_assoc]
  rfl

/-- The same at a byte of a register. The reset of the processor clears the register file, which
the store cannot know. -/
theorem content_step_regfile (hin : input.HostCycle) (a : RegByteAddr) :
    (b.step input).content (.regfile a)
      = if b.processorReset = true then 0 else Store.step b.content input.bus (.regfile a) := by
  by_cases hrst : b.processorReset = true
  · rw [if_pos hrst]
    have hzero : (b.step input).regfile = fun _ => 0 := by
      show b.regfile.step b.processorReset _ _ = _
      unfold Regfile.step
      rw [if_pos hrst]
    rw [content_regfile, hzero]
    unfold bigEndianByte byteAt
    simp
  · rw [if_neg hrst]
    have hstep : (b.step input).regfile
        = b.regfile.step false input.proc.writePorts input.bus.regfileDebugIn := by
      show b.regfile.step b.processorReset _ _ = _
      rw [Bool.not_eq_true] at hrst
      rw [hrst]
    rw [content_regfile, hstep, Regfile.byte_step _ hin.writePorts]
    refine if_congr ?_ (BitVec.and_allOnes).symm rfl
    rw [HostBus.WritesTo, cellOf_eq_some_iff]
    show (input.bus.regWriteEnable && input.bus.isAccessToRf) = true ∧ _ ↔ _
    rw [Bool.and_eq_true, and_assoc, HostBus.isAccessToRf, decide_eq_true_iff]
    rfl

/-- The write enable of the expected updates is decoded from the four topmost bits of the address.
-/
theorem tmExpupdWe_eq_true_iff (bus : HostBus) : bus.tmExpupdWe = true ↔
    bus.regWriteEnable = true ∧ bus.regAddress.extractLsb' 12 4 = 0x2 := by
  unfold HostBus.tmExpupdWe HostBus.isAccessToExpupd
  by_cases h : bus.regAddress.extractLsb' 12 4 = 0x2
  · simp [h]
  · rw [if_neg (fun hd => h (of_decide_eq_true hd))]
    exact ⟨fun hf => absurd hf Bool.false_ne_true, fun hw => absurd hw.2 h⟩

/-- The same at a byte of an expected update. The test monitor takes the host's writes whether or
not the processor is enabled, so there is no hypothesis about it. -/
theorem content_step_expupd (a : BitVec 12) :
    (b.step input).content (.expupd a) = Store.step b.content input.bus (.expupd a) := by
  have hram : (b.step input).testMonitor.expupdRam = b.testMonitor.ramStep _ 0 :=
    b.testMonitor.expupdRam_step (b.testMonitorIn input)
  rw [content_expupd, hram]
  by_cases ha : (a.extractLsb' 0 3).toNat < 6
  · rw [byteAt_ramStep _ _ _ ha, apply_ite (· &&& (Cell.expupd a).mask)]
    refine if_congr ?_ rfl rfl
    rw [HostBus.WritesTo, cellOf_eq_some_iff, ← and_assoc, ← tmExpupdWe_eq_true_iff]
    rfl
  · show _ = ite _ (_ &&& _) (_ &&& _)
    rw [Cell.mask_expupd_of_ge ha]
    simp

/-! ### The configuration registers -/

/-- The write enable of a configuration register, which is decoded from the whole address. -/
theorem configWe_eq_true_iff (bus : HostBus) (address : BitVec 16) :
    bus.configWe address = true ↔ bus.regWriteEnable = true ∧ bus.regAddress = address := by
  unfold HostBus.configWe
  by_cases h : bus.regAddress = address <;> simp [h]

/-- Bit 1 of a write mask is the high byte's enable, bit 0 the low byte's. -/
theorem getLsbD_weMask (hi lo : Bool) :
    (BitVec.ofBool hi ++ BitVec.ofBool lo).getLsbD 1 = hi ∧
    (BitVec.ofBool hi ++ BitVec.ofBool lo).getLsbD 0 = lo := by
  cases hi <;> cases lo <;> decide

/-- Of the high byte of the number of expected updates one bit is implemented; it reads back with
zeros in front of it. -/
theorem setWidth_extractLsb'_one (v : Byte) : (v.extractLsb' 0 1).setWidth 8 = v &&& 0x01 := by
  apply BitVec.eq_of_getLsbD_eq
  intro i hi
  have h1 : (0x01 : Byte).getLsbD i = decide (i = 0) := by
    revert i
    decide
  rw [BitVec.getLsbD_and, h1]
  by_cases h : i = 0
  · simp [h]
  · simp [h, show ¬ i < 1 by omega]

/-- One rising edge, seen at the high byte of the number of expected updates. -/
theorem content_step_numExpUpdatesHi (hreset : input.reset = false) :
    (b.step input).content .numExpUpdatesHi = Store.step b.content input.bus .numExpUpdatesHi := by
  have hnum : (b.step input).testMonitor.numExpUpdates = b.testMonitor.numExpUpdatesStep _ :=
    b.testMonitor.numExpUpdates_step (b.testMonitorIn input) hreset
  show ((b.step input).testMonitor.numExpUpdates.extractLsb' 8 1).setWidth 8 = _
  rw [hnum, TestMonitorState.numExpUpdatesStep, BitVec.extractLsb'_append_eq_left,
    apply_ite (BitVec.setWidth 8)]
  refine if_congr ?_ ?_ rfl
  · rw [HostBus.WritesTo, cellOf_eq_some_iff, ← configWe_eq_true_iff]
    show (BitVec.ofBool _ ++ BitVec.ofBool _).getLsbD 1 = true ↔ _
    rw [(getLsbD_weMask _ _).1]
    rfl
  · show ((input.bus.regWriteData.extractLsb' 0 1 ++
      input.bus.regWriteData).extractLsb' 8 1).setWidth 8
      = _
    rw [BitVec.extractLsb'_append_eq_left]
    exact setWidth_extractLsb'_one _

/-- The same at its low byte. -/
theorem content_step_numExpUpdatesLo (hreset : input.reset = false) :
    (b.step input).content .numExpUpdatesLo = Store.step b.content input.bus .numExpUpdatesLo := by
  have hnum : (b.step input).testMonitor.numExpUpdates = b.testMonitor.numExpUpdatesStep _ :=
    b.testMonitor.numExpUpdates_step (b.testMonitorIn input) hreset
  show (b.step input).testMonitor.numExpUpdates.extractLsb' 0 8 = _
  rw [hnum, TestMonitorState.numExpUpdatesStep, BitVec.extractLsb'_append_eq_right]
  refine if_congr ?_ ?_ rfl
  · rw [HostBus.WritesTo, cellOf_eq_some_iff, ← configWe_eq_true_iff]
    show (BitVec.ofBool _ ++ BitVec.ofBool _).getLsbD 0 = true ↔ _
    rw [(getLsbD_weMask _ _).2]
    rfl
  · show (input.bus.regWriteData.extractLsb' 0 1 ++ input.bus.regWriteData).extractLsb' 0 8 = _
    rw [BitVec.extractLsb'_append_eq_right]
    exact BitVec.and_allOnes.symm

/-- The same at the high byte of the timeout. -/
theorem content_step_maxWaitTimeHi (hreset : input.reset = false) :
    (b.step input).content .maxWaitTimeHi = Store.step b.content input.bus .maxWaitTimeHi := by
  have hmax : (b.step input).testMonitor.maxWaitTime = b.testMonitor.maxWaitTimeStep _ :=
    b.testMonitor.maxWaitTime_step (b.testMonitorIn input) hreset
  show (b.step input).testMonitor.maxWaitTime.extractLsb' 8 8 = _
  rw [hmax, TestMonitorState.maxWaitTimeStep, BitVec.extractLsb'_append_eq_left]
  refine if_congr ?_ ?_ rfl
  · rw [HostBus.WritesTo, cellOf_eq_some_iff, ← configWe_eq_true_iff]
    show (BitVec.ofBool _ ++ BitVec.ofBool _).getLsbD 1 = true ↔ _
    rw [(getLsbD_weMask _ _).1]
    rfl
  · show (input.bus.regWriteData ++ input.bus.regWriteData).extractLsb' 8 8 = _
    rw [BitVec.extractLsb'_append_eq_left]
    exact BitVec.and_allOnes.symm

/-- The same at its low byte. -/
theorem content_step_maxWaitTimeLo (hreset : input.reset = false) :
    (b.step input).content .maxWaitTimeLo = Store.step b.content input.bus .maxWaitTimeLo := by
  have hmax : (b.step input).testMonitor.maxWaitTime = b.testMonitor.maxWaitTimeStep _ :=
    b.testMonitor.maxWaitTime_step (b.testMonitorIn input) hreset
  show (b.step input).testMonitor.maxWaitTime.extractLsb' 0 8 = _
  rw [hmax, TestMonitorState.maxWaitTimeStep, BitVec.extractLsb'_append_eq_right]
  refine if_congr ?_ ?_ rfl
  · rw [HostBus.WritesTo, cellOf_eq_some_iff, ← configWe_eq_true_iff]
    show (BitVec.ofBool _ ++ BitVec.ofBool _).getLsbD 0 = true ↔ _
    rw [(getLsbD_weMask _ _).2]
    rfl
  · show (input.bus.regWriteData ++ input.bus.regWriteData).extractLsb' 0 8 = _
    rw [BitVec.extractLsb'_append_eq_right]
    exact BitVec.and_allOnes.symm

/-- The cells of the test monitor do not depend on the processor. -/
theorem content_step_configuration (hreset : input.reset = false) {c : Cell}
    (hc : c.isConfiguration = true) :
    (b.step input).content c = Store.step b.content input.bus c := by
  cases c with
  | dmem a => exact absurd hc Bool.false_ne_true
  | imem a => exact absurd hc Bool.false_ne_true
  | regfile a => exact absurd hc Bool.false_ne_true
  | expupd a => exact content_step_expupd a
  | numExpUpdatesHi => exact content_step_numExpUpdatesHi hreset
  | numExpUpdatesLo => exact content_step_numExpUpdatesLo hreset
  | maxWaitTimeHi => exact content_step_maxWaitTimeHi hreset
  | maxWaitTimeLo => exact content_step_maxWaitTimeLo hreset

/-- One cycle of the board is one cycle of the store, except that a held processor reset
clears the registers. -/
theorem content_step (hen : b.processorEnable = false) (hin : input.HostCycle) (c : Cell) :
    (b.step input).content c
      = if b.processorReset = true ∧ c.isRegfile = true then 0
        else Store.step b.content input.bus c := by
  cases c with
  | dmem a => simpa [Cell.isRegfile] using content_step_dmem hen a
  | imem a => simpa [Cell.isRegfile] using content_step_imem hen a
  | regfile a => simpa [Cell.isRegfile] using content_step_regfile hin a
  | expupd a => simpa [Cell.isRegfile] using content_step_expupd a
  | numExpUpdatesHi => simpa [Cell.isRegfile] using content_step_numExpUpdatesHi hin.reset
  | numExpUpdatesLo => simpa [Cell.isRegfile] using content_step_numExpUpdatesLo hin.reset
  | maxWaitTimeHi => simpa [Cell.isRegfile] using content_step_maxWaitTimeHi hin.reset
  | maxWaitTimeLo => simpa [Cell.isRegfile] using content_step_maxWaitTimeLo hin.reset

/-! ### Reading a cell -/

/-- The input of the read mux that an address selects. -/
theorem regReadData_of_cellOf (h : HostComm) (input : HostCommIn) (bus : HostBus) {c : Cell}
    (hc : cellOf bus.regAddress = some c) :
    h.regReadData input bus =
      match c with
      | .dmem _ => input.dmemDataIn
      | .imem _ => input.imemDataIn
      | .regfile _ => input.regfileReadValue
      | .expupd _ => input.expupdReadValue
      | .numExpUpdatesHi => (input.tmNumExpupd.extractLsb' 8 1).setWidth 8
      | .numExpUpdatesLo => input.tmNumExpupd.extractLsb' 0 8
      | .maxWaitTimeHi => input.tmMaxWaitTime.extractLsb' 8 8
      | .maxWaitTimeLo => input.tmMaxWaitTime.extractLsb' 0 8 := by
  have htop := topBits_of_topNibble bus.regAddress
  rw [cellOf_eq_some_iff] at hc
  unfold HostComm.regReadData HostBus.isAccessToRf HostBus.isAccessToExpupd
  -- The mux is a chain of tests, so for each kind of cell the earlier ones have to fail.
  cases c with
  | dmem a => rw [if_pos hc.1]
  | imem a => rw [if_neg (by rw [hc.1]; decide), if_pos hc.1]
  | regfile a =>
    rw [if_neg fun h => (htop.1 h).1 hc.1, if_neg fun h => (htop.2 h).1 hc.1,
      if_pos (decide_eq_true hc.1)]
  | expupd a =>
    rw [if_neg fun h => (htop.1 h).2 hc.1, if_neg fun h => (htop.2 h).2 hc.1,
      if_neg (by rw [hc.1]; decide), if_pos (decide_eq_true hc.1)]
  | numExpUpdatesHi => simp only [hc]; rfl
  | numExpUpdatesLo => simp only [hc]; rfl
  | maxWaitTimeHi => simp only [hc]; rfl
  | maxWaitTimeLo => simp only [hc]; rfl

/-- The byte that the monitor offers the host, lane by lane. -/
theorem expUpdByte_eq (s : TestMonitorState N) (tmIn : TestMonitorIn N) :
    s.expUpdByte tmIn = byteAt (s.rawExpectedUpdates 0) (5 - tmIn.expupdByteSel)
      &&& (Cell.expupd tmIn.expupdByteWriteAddr).mask := by
  have hsel : tmIn.expupdByteSel < 8 := (tmIn.expupdByteWriteAddr.extractLsb' 0 3).isLt
  have hmask : (Cell.expupd tmIn.expupdByteWriteAddr).mask
      = if tmIn.expupdByteSel = 0 then 0x07
        else if 6 ≤ tmIn.expupdByteSel then 0x00
        else 0xFF := Cell.mask_expupd _
  rw [hmask]
  unfold TestMonitorState.expUpdByte
  generalize tmIn.expupdByteSel = sel at hsel
  generalize s.rawExpectedUpdates 0 = raw
  -- The first byte has three bits and the last two bytes none; the others are whole.
  match sel, hsel with
  | 0, _ =>
    show (raw.extractLsb' 40 3).setWidth 8 = byteAt raw 5 &&& 0x07
    apply BitVec.eq_of_getLsbD_eq
    intro i hi
    have h7 : (0x07 : Byte).getLsbD i = decide (i < 3) := by
      revert i
      decide
    rw [BitVec.getLsbD_and, h7, getLsbD_byteAt]
    by_cases h : i < 3 <;> simp [h, hi]
  | 1, _ => exact BitVec.and_allOnes.symm
  | 2, _ => exact BitVec.and_allOnes.symm
  | 3, _ => exact BitVec.and_allOnes.symm
  | 4, _ => exact BitVec.and_allOnes.symm
  | 5, _ => exact BitVec.and_allOnes.symm
  | 6, _ => exact BitVec.and_zero.symm
  | 7, _ => exact BitVec.and_zero.symm

/-- A byte that the host asked for in the last cycle, the address still on the bus. -/
theorem regReadData_settled {next : BoardIn N} {c : Cell} (hen : b.processorEnable = false)
    (hread : input.bus.regReadEnable = true) (hwrite : input.bus.regWriteEnable = false)
    (hc : cellOf input.bus.regAddress = some c)
    (hnext : next.bus.regAddress = input.bus.regAddress) :
    (b.step input).regReadData next = (b.step input).content c := by
  have hsel : next.bus.memAddr = input.bus.memAddr := by
    unfold HostBus.memAddr
    rw [hnext]
  show (b.step input).hostComm.regReadData _ next.bus = _
  -- The address stays on the bus, so the read mux looks at the same memory as the cycle before.
  rw [regReadData_of_cellOf _ _ next.bus (by rw [hnext]; exact hc)]
  rw [cellOf_eq_some_iff] at hc
  cases c with
  | dmem a =>
    have ha : input.bus.memAddr = a := hc.2
    have hout : (b.step input).dataMemory.hostcommOut
        = (b.step input).dataMemory.mem (hostcommWordAddr input.bus.memAddr) :=
      b.dataMemory.hostcommOut_step (b.dataMemoryIn input) hen
    show bigEndianByte (b.step input).dataMemory.hostcommOut (hostcommByteSel next.bus.memAddr) = _
    rw [hout, hsel, ha]
    rfl
  | imem a =>
    have ha : input.bus.memAddr = a := hc.2
    have hout : (b.step input).instructionMemory.dataOut
        = (b.step input).instructionMemory.mem (hostcommWordAddr input.bus.memAddr) :=
      b.instructionMemory.dataOut_step (b.instructionMemoryIn input) hen
    show bigEndianByte (b.step input).instructionMemory.dataOut (hostcommByteSel next.bus.memAddr)
      = _
    rw [hout, hsel, ha]
    rfl
  | regfile a =>
    have ha : next.bus.regfileDebugIn.byteAddr = a := by
      show next.bus.regAddress.extractLsb' 0 7 = a
      rw [hnext, hc.2]
    show bigEndianByte ((b.step input).regfile (next.bus.regfileDebugIn.byteAddr.extractLsb' 2 5))
      (next.bus.regfileDebugIn.byteAddr.extractLsb' 0 2).toNat = _
    rw [ha]
    rfl
  | expupd a =>
    have ha : input.bus.tmExpupdByteWriteAddr = a := hc.2
    have hnexta : next.bus.tmExpupdByteWriteAddr = a := by
      show next.bus.regAddress.extractLsb' 0 12 = a
      rw [hnext, hc.2]
    -- while the host reads, the first RAM is addressed by the host
    have hre : (b.testMonitorIn input).readExpUpdEn = true := by
      show (input.bus.regReadEnable && input.bus.isAccessToExpupd) = true
      rw [hread, HostBus.isAccessToExpupd, decide_eq_true hc.1]
      rfl
    have hraw : (b.step input).testMonitor.rawExpectedUpdates 0
        = b.testMonitor.expupdRam (a.extractLsb' 3 9) := by
      show (b.testMonitor.step _).rawExpectedUpdates 0 = _
      have haddr : b.testMonitor.expupdReadAddr (b.testMonitorIn input) 0
          = a.extractLsb' 3 9 := by
        unfold TestMonitorState.expupdReadAddr
        rw [if_pos ⟨rfl, hre⟩, ← ha]
        rfl
      unfold TestMonitorState.step
      split <;> exact congrArg _ haddr
    -- The latch is one cycle old, which makes no difference without a write.
    have hquiet : (b.step input).content (.expupd a) = b.content (.expupd a) := by
      rw [content_step_expupd]
      exact if_neg fun h => absurd h.1 (by rw [hwrite]; exact Bool.false_ne_true)
    show (b.step input).testMonitor.expUpdByte _ = _
    rw [expUpdByte_eq, hraw, hquiet, content_expupd]
    show byteAt _ (5 - (next.bus.tmExpupdByteWriteAddr.extractLsb' 0 3).toNat) &&&
      (Cell.expupd next.bus.tmExpupdByteWriteAddr).mask = _
    rw [hnexta]
  | numExpUpdatesHi => rfl
  | numExpUpdatesLo => rfl
  | maxWaitTimeHi => rfl
  | maxWaitTimeLo => rfl

/-! ### Words -/

/-- A byte address put together from a word address and a place gives the word address back. -/
theorem hostcommWordAddr_append (w : BitVec 10) (k : BitVec 2) :
    hostcommWordAddr (w ++ k) = w := BitVec.extractLsb'_append_eq_left

/-- And it gives the place back. -/
theorem hostcommByteSel_append (w : BitVec 10) {k : Nat} (hk : k < 4) :
    hostcommByteSel (w ++ BitVec.ofNat 2 k) = k := by
  unfold hostcommByteSel
  rw [BitVec.extractLsb'_append_eq_right, BitVec.toNat_ofNat]
  exact Nat.mod_eq_of_lt hk

/-- A word is its four bytes as the host addresses them. -/
theorem eq_bigEndian_bigEndianByte (x : Datapath) : x = bigEndian (bigEndianByte x) := by
  refine (eq_bigEndian x).trans (bigEndian_congr fun k hk => ?_)
  unfold bigEndianByte
  rw [show 4 - k - 1 = 3 - k by omega]

/-- A word of the data memory is made of its four bytes as the host sees them. So what is known of
every byte is known of the word. -/
theorem dataMemory_mem_eq (b : Board N) (w : DmemAddr) :
    b.dataMemory.mem w = bigEndian fun k => b.content (Cell.dmemByte w k) := by
  refine (eq_bigEndian_bigEndianByte _).trans (bigEndian_congr fun k hk => ?_)
  rw [Cell.dmemByte, content_dmem, hostcommWordAddr_append, hostcommByteSel_append w hk]

/-- The same for the instruction memory. -/
theorem instructionMemory_mem_eq (b : Board N) (w : ImemAddr) :
    b.instructionMemory.mem w = bigEndian fun k => b.content (Cell.imemByte w k) := by
  refine (eq_bigEndian_bigEndianByte _).trans (bigEndian_congr fun k hk => ?_)
  rw [Cell.imemByte, content_imem, hostcommWordAddr_append, hostcommByteSel_append w hk]

/-- The same for the register file. -/
theorem regfile_eq (b : Board N) (r : RegAddr) :
    b.regfile r = bigEndian fun k => b.content (Cell.regByte r k) := by
  refine (eq_bigEndian_bigEndianByte _).trans (bigEndian_congr fun k hk => ?_)
  rw [Cell.regByte, content_regfile, BitVec.extractLsb'_append_eq_left,
    BitVec.extractLsb'_append_eq_right, BitVec.toNat_ofNat, Nat.mod_eq_of_lt (by simpa using hk)]

/-! ### Runs -/

/-- The processor is disabled and not held in reset. -/
structure HostOwned (b : Board N) : Prop where
  processorEnable : b.processorEnable = false
  processorReset : b.processorReset = false

end Board

/-- A cycle of the host that neither enables the processor nor resets it. -/
structure BoardIn.HostAccess (input : BoardIn N) : Prop extends input.HostCycle where
  notEnabled : input.bus.regWriteEnable = true → input.bus.regAddress = REG_ADDR_PROC_EN →
    input.bus.regWriteData.getLsbD 0 = false
  notHeld : input.bus.regWriteEnable = true → input.bus.regAddress = REG_ADDR_PROC_RESET →
    input.bus.regWriteData.getLsbD 0 = false

/-- A cycle in which the host asks for the byte at an address. -/
structure BoardIn.ReadRequest (input : BoardIn N) (address : BitVec 16) : Prop
    extends input.HostCycle where
  regAddress : input.bus.regAddress = address
  regReadEnable : input.bus.regReadEnable = true
  regWriteEnable : input.bus.regWriteEnable = false

/-- The word that the processor finds at `w`: the one stored there, and the one its port shows
after a cycle that reads it. -/
structure DataMemory.Shows (m : DataMemory) (w : DmemAddr) (word : Datapath) : Prop where
  mem : m.mem w = word
  procDataOut : ∀ input : DataMemoryIn, input.processorEnable = true → input.procWen = false →
    input.procAddr = w → (m.step input).procDataOut = word

/-- The RAM holds the word, and so does the register that the processor reads. -/
structure InstructionMemory.Shows (m : InstructionMemory) (w : ImemAddr) (word : Datapath) :
    Prop where
  mem : m.mem w = word
  dataOut : ∀ input : InstructionMemoryIn, input.processorEnable = true → input.procAddr = w →
    (m.step input).dataOut = word

/-- A memory shows at each address the word that it holds. -/
theorem DataMemory.shows_mem (m : DataMemory) (w : DmemAddr) : m.Shows w (m.mem w) where
  mem := rfl
  procDataOut := by
    rintro input hen hwen rfl
    unfold DataMemory.step
    rw [if_pos hen, hwen]
    rfl

/-- The same for the instruction memory. -/
theorem InstructionMemory.shows_mem (m : InstructionMemory) (w : ImemAddr) :
    m.Shows w (m.mem w) where
  mem := rfl
  dataOut := by
    rintro input hen rfl
    unfold InstructionMemory.step
    rw [if_pos hen]

namespace Board

variable {b : Board N} {input : BoardIn N}

/-- The board stays in the hands of the host as long as the host does not enable the processor. -/
theorem HostOwned.step (hb : b.HostOwned) (hin : input.HostAccess) : (b.step input).HostOwned where
  processorEnable := by
    show (b.hostComm.step input.reset input.bus).procEnableSignal = false
    unfold HostComm.step
    simp only [hin.reset, Bool.false_eq_true, if_false]
    split
    · next h => exact hin.notEnabled h.1 h.2
    · exact hb.processorEnable
  processorReset := by
    show (b.hostComm.step input.reset input.bus).procResetSignal = false
    unfold HostComm.step
    simp only [hin.reset, Bool.false_eq_true, if_false]
    split
    · next h => exact hin.notHeld h.1 h.2
    · exact hb.processorReset

/-- While the host owns the board, the board simulates the store. -/
def storeSimulation : Lib.Simulation (Board.step (N := N))
    (fun st input => Store.step st input.bus) BoardIn.HostAccess where
  Rel b st := b.HostOwned ∧ b.content = st
  step := by
    rintro b _ input hin ⟨hb, rfl⟩
    refine ⟨hb.step hin, ?_⟩
    funext c
    rw [content_step hb.processorEnable hin.toHostCycle, if_neg]
    rintro ⟨hrst, -⟩
    exact absurd hrst (by rw [hb.processorReset]; exact Bool.false_ne_true)

/-- A whole run in the hands of the host: the cells hold at the end what the store holds after all
accesses, in the order in which they came. -/
theorem HostOwned.foldl (hb : b.HostOwned) {ins : List (BoardIn N)}
    (hins : ∀ i ∈ ins, i.HostAccess) :
    (ins.foldl Board.step b).HostOwned ∧
      (ins.foldl Board.step b).content = stored b.content (ins.map BoardIn.bus) := by
  have hrun := storeSimulation.foldl hins (s := b) (a := b.content) ⟨hb, rfl⟩
  refine ⟨hrun.1, hrun.2.trans ?_⟩
  rw [← Store.after_eq_stored, List.foldl_map]

/-- Along any run of host cycles a settled read returns what was written last to the cell, and
the words of the memories and of the register file are the stored bytes in the host's
order. -/
theorem hostAccess_faithful (hb : b.HostOwned) {ins : List (BoardIn N)}
    (hins : ∀ i ∈ ins, i.HostAccess) :
    (∀ (address : BitVec 16) (c : Cell) (request next : BoardIn N), cellOf address = some c →
      request.ReadRequest address → next.bus.regAddress = address →
      ((ins.foldl step b).step request).regReadData next
        = stored b.content (ins.map BoardIn.bus) c) ∧
    (∀ w, (ins.foldl step b).dataMemory.Shows w
      (bigEndian fun k => stored b.content (ins.map BoardIn.bus) (Cell.dmemByte w k))) ∧
    (∀ w, (ins.foldl step b).instructionMemory.Shows w
      (bigEndian fun k => stored b.content (ins.map BoardIn.bus) (Cell.imemByte w k))) ∧
    (∀ r, (ins.foldl step b).regfile r
      = bigEndian fun k => stored b.content (ins.map BoardIn.bus) (Cell.regByte r k)) := by
  obtain ⟨howned, hcontent⟩ := hb.foldl hins
  refine ⟨?_, fun w => ?_, fun w => ?_, fun r => ?_⟩
  · intro address c request next hc hreq hnext
    obtain rfl := hreq.regAddress
    -- The request is a read, so it changes no cell.
    have hstep : ((ins.foldl step b).step request).content c
        = stored b.content (ins.map BoardIn.bus) c := by
      rw [content_step howned.processorEnable hreq.toHostCycle, howned.processorReset, hcontent]
      rw [if_neg (by simp)]
      exact if_neg fun h => absurd h.1 (by rw [hreq.regWriteEnable]; exact Bool.false_ne_true)
    rw [← hstep]
    exact regReadData_settled howned.processorEnable hreq.regReadEnable hreq.regWriteEnable hc hnext
  · rw [← hcontent, ← dataMemory_mem_eq]
    exact DataMemory.shows_mem _ w
  · rw [← hcontent, ← instructionMemory_mem_eq]
    exact InstructionMemory.shows_mem _ w
  · rw [← hcontent, ← regfile_eq]

/-- A board with all cells zero. -/
def blank : Board N where
  hostComm := ⟨false, false, false, 0⟩
  dataMemory := ⟨fun _ => 0, 0, 0⟩
  instructionMemory := ⟨fun _ => 0, 0⟩
  regfile := fun _ => 0
  testMonitor := .blank fun _ => 0

/-- A board is in the hands of the host from the start. -/
theorem blank_hostOwned : (blank : Board N).HostOwned := ⟨rfl, rfl⟩

end Board

/-- A cycle of the bus beside a processor that does nothing. -/
def BoardIn.ofBus (bus : HostBus) : BoardIn N := ⟨false, bus, .quiet⟩

/-- A read pulse on the bus is a request for the address that it carries. -/
theorem BoardIn.readRequest_read (address : BitVec 16) :
    (BoardIn.ofBus (N := N) (.read address)).ReadRequest address :=
  ⟨⟨rfl, fun _ => rfl⟩, rfl, rfl, rfl⟩

/-- Two writes through different mirrors of one data memory byte. -/
def Board.mirroredWrites : List (BoardIn 1) :=
  [.ofBus (.write 0x8001 0xAB), .ofBus (.write 0x9001 0xCD)]

/-- All of the writes below are accesses that leave the processor disabled. -/
theorem Board.hostAccess_mirroredWrites : ∀ i ∈ mirroredWrites, i.HostAccess := by
  intro i hi
  rcases List.mem_cons.mp hi with rfl | hi
  · exact ⟨⟨rfl, fun _ => rfl⟩, fun _ h => absurd h (by decide), fun _ h => absurd h (by decide)⟩
  · obtain rfl := List.mem_singleton.mp hi
    exact ⟨⟨rfl, fun _ => rfl⟩, fun _ h => absurd h (by decide), fun _ h => absurd h (by decide)⟩

/-- Two writes to one byte under two addresses. The data memory does not decode the bits 12 and
13, so the second write is read back under the address of the first. -/
theorem Board.regReadData_mirroredWrites :
    ((mirroredWrites.foldl step blank).step (.ofBus (.read 0xA001))).regReadData
        (.ofBus (.read 0xA001)) = 0xCD ∧
      (mirroredWrites.foldl step blank).dataMemory.mem 0 = 0x00CD0000 := by
  have h := hostAccess_faithful blank_hostOwned hostAccess_mirroredWrites
  refine ⟨?_, ?_⟩
  · rw [h.1 0xA001 (.dmem 1) (.ofBus (.read 0xA001)) (.ofBus (.read 0xA001)) (by decide)
      (BoardIn.readRequest_read _) rfl]
    decide
  · rw [(h.2.1 0).mem]
    decide

end VivadoTest.Framework
