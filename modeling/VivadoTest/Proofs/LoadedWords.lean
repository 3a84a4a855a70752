import VivadoTest.Proofs.InitialFiles

/-!
# `VivadoTest.Proofs.LoadedWords`: words that the host writes

The host reaches the data memory, the instruction memory and the registers through three regions of
its address space. A `Region` is a row of words there, four byte cells each, and a load writes some
of them (`Region.Loads`).

* `Region.word_of_mem`, `Region.word_of_not_mem`: a word after a load.
* `Board.content_of_load`: the cells of the board after `stop_processor`, a reset pulse and some
  writes.

A word is loaded when each of its four cells is hit by a write, and all writes to a cell are of one
value (`Region.word_of_mem`). That it is not loaded means that none of its cells is hit
(`Region.word_of_not_mem`), so the word is what it was before. `Region.word_eq_iff` compares two
boards after the same load in these terms.
-/

set_option autoImplicit false

namespace VivadoTest.Framework

open VivadoTest.Lib VivadoTest.Host VivadoTest.Generator

/-! ### Regions -/

/-- A row of words in the host's address space. -/
structure Region where
  baseaddr : Nat
  size : Nat
  cell : Nat → Cell
  cellOf_addr : ∀ offset < 4 * size,
    cellOf (BitVec.ofNat 16 (baseaddr + offset)) = some (cell offset)
  cell_inj : ∀ offset < 4 * size, ∀ offset' < 4 * size, cell offset = cell offset' →
    offset = offset'
  mask : ∀ offset, (cell offset).mask = 0xFF

/-- The top bits of an address: those of the number divided by a power of two. -/
theorem extractLsb'_high {baseaddr offset : Nat} (h : baseaddr + offset < 65536) (hi len : Nat) :
    (BitVec.ofNat 16 (baseaddr + offset)).extractLsb' hi len
      = BitVec.ofNat len ((baseaddr + offset) / 2 ^ hi) := by
  refine BitVec.eq_of_toNat_eq ?_
  rw [BitVec.extractLsb'_toNat, BitVec.toNat_ofNat, BitVec.toNat_ofNat, Nat.shiftRight_eq_div_pow,
    Nat.mod_eq_of_lt h]

/-- Two offsets with one bit vector are equal when both fit. -/
theorem ofNat_inj {n m offset offset' : Nat} (h : offset < 2 ^ n) (h' : offset' < 2 ^ n)
    (hm : n = m) (heq : BitVec.ofNat m offset = BitVec.ofNat m offset') : offset = offset' := by
  subst hm
  have hnat := congrArg BitVec.toNat heq
  rwa [BitVec.toNat_ofNat, BitVec.toNat_ofNat, Nat.mod_eq_of_lt h, Nat.mod_eq_of_lt h'] at hnat

namespace Region

/-- The region of `init_dmem`. -/
def dmem : Region where
  baseaddr := 0x8000
  size := 1024
  cell offset := .dmem (BitVec.ofNat 12 offset)
  cellOf_addr := by
    intro offset h
    refine (cellOf_eq_some_iff _ (.dmem _)).mpr ⟨?_, ?_⟩
    · rw [extractLsb'_high (by omega)]
      refine BitVec.eq_of_toNat_eq ?_
      rw [BitVec.toNat_ofNat]
      show (0x8000 + offset) / 2 ^ 14 % 2 ^ 2 = 2
      omega
    · rw [extractLsb'_high (by omega)]
      refine BitVec.eq_of_toNat_eq ?_
      rw [BitVec.toNat_ofNat, BitVec.toNat_ofNat]
      omega
  cell_inj := fun _ h _ h' heq => ofNat_inj (n := 12) h h' rfl (Cell.dmem.inj heq)
  mask := fun _ => rfl

/-- The region of `init_imem`. -/
def imem : Region where
  baseaddr := 0xC000
  size := 1024
  cell offset := .imem (BitVec.ofNat 12 offset)
  cellOf_addr := by
    intro offset h
    refine (cellOf_eq_some_iff _ (.imem _)).mpr ⟨?_, ?_⟩
    · rw [extractLsb'_high (by omega)]
      refine BitVec.eq_of_toNat_eq ?_
      rw [BitVec.toNat_ofNat]
      show (0xC000 + offset) / 2 ^ 14 % 2 ^ 2 = 3
      omega
    · rw [extractLsb'_high (by omega)]
      refine BitVec.eq_of_toNat_eq ?_
      rw [BitVec.toNat_ofNat, BitVec.toNat_ofNat]
      omega
  cell_inj := fun _ h _ h' heq => ofNat_inj (n := 12) h h' rfl (Cell.imem.inj heq)
  mask := fun _ => rfl

/-- The region of `init_regfile`. -/
def regfile : Region where
  baseaddr := 0x3000
  size := 32
  cell offset := .regfile (BitVec.ofNat 7 offset)
  cellOf_addr := by
    intro offset h
    refine (cellOf_eq_some_iff _ (.regfile _)).mpr ⟨?_, ?_⟩
    · rw [extractLsb'_high (by omega)]
      refine BitVec.eq_of_toNat_eq ?_
      rw [BitVec.toNat_ofNat]
      show (0x3000 + offset) / 2 ^ 12 % 2 ^ 4 = 3
      omega
    · rw [extractLsb'_high (by omega)]
      refine BitVec.eq_of_toNat_eq ?_
      rw [BitVec.toNat_ofNat, BitVec.toNat_ofNat]
      omega
  cell_inj := fun _ h _ h' heq => ofNat_inj (n := 7) h h' rfl (Cell.regfile.inj heq)
  mask := fun _ => rfl

variable (R : Region)

/-- Word `a` of the region. -/
def word (st : Store) (a : Nat) : Datapath := bigEndian fun k => st (R.cell (4 * a + k))

/-- The writes that load some words of the region. -/
def writes (words : List (Nat × Nat)) : List (Nat × Nat) :=
  HostcommProxy.based R.baseaddr (wordWrites words)

/-- The writes `ws` load `words`, each of them with one value, and write nothing else to the
region. -/
structure Loads (words ws : List (Nat × Nat)) : Prop where
  inside : ∀ w ∈ words, w.1 < R.size
  unique : ∀ w ∈ words, ∀ w' ∈ words, w.1 = w'.1 → w.2 = w'.2
  sub : ∀ w ∈ R.writes words, w ∈ ws
  other : ∀ w ∈ ws, w ∈ R.writes words ∨ ∀ offset < 4 * R.size, ¬ Hits w (R.cell offset)

variable {R} {words ws : List (Nat × Nat)}

/-- The byte that a write of a word goes to. -/
theorem hits_of_mem_writes (hinside : ∀ w ∈ words, w.1 < R.size) {x : Nat × Nat}
    (hx : x ∈ R.writes words) : ∃ a v k, (a, v) ∈ words ∧ k < 4 ∧ 4 * a + k < 4 * R.size ∧
      x.2 = v >>> (8 * (3 - k)) % 256 ∧ Hits x (R.cell (4 * a + k)) := by
  obtain ⟨x', hx', rfl⟩ := List.mem_map.mp hx
  obtain ⟨a, v, k, hw, hk, rfl⟩ := mem_wordWrites.mp hx'
  have ha : a < R.size := hinside _ hw
  exact ⟨a, v, k, hw, hk, by omega, rfl, R.cellOf_addr _ (by omega)⟩

namespace Loads

variable (h : R.Loads words ws) (st : Store)
include h

/-- A write to a byte of the region is that of its word. -/
theorem eq_of_hits {x : Nat × Nat} (hx : x ∈ ws) {a k : Nat} (hk : k < 4) (ha : a < R.size)
    (hhits : Hits x (R.cell (4 * a + k))) :
    ∃ v, (a, v) ∈ words ∧ x.2 = v >>> (8 * (3 - k)) % 256 := by
  rcases h.other x hx with hw | hw
  · obtain ⟨a', v, k', hmem, hk', hlt, hval, hhits'⟩ := hits_of_mem_writes h.inside hw
    have hcell : R.cell (4 * a' + k') = R.cell (4 * a + k) :=
      Option.some.inj (hhits'.symm.trans hhits)
    have hoffset := R.cell_inj _ hlt _ (by omega) hcell
    obtain rfl : a' = a := by omega
    obtain rfl : k' = k := by omega
    exact ⟨v, hmem, hval⟩
  · exact absurd hhits (hw _ (by omega))

/-- A word that is loaded. -/
theorem word_of_mem {a v : Nat} (hmem : (a, v) ∈ words) :
    R.word (Store.writes st ws) a = BitVec.ofNat 32 v := by
  have ha : a < R.size := h.inside _ hmem
  rw [eq_bigEndian (BitVec.ofNat 32 v)]
  refine bigEndian_congr fun k hk => ?_
  have hcell : Store.writes st ws (R.cell (4 * a + k))
      = BitVec.ofNat 8 (v >>> (8 * (3 - k)) % 256) &&& (R.cell (4 * a + k)).mask := by
    refine Store.writes_of_hits st ?_ fun x hx hhits => ?_
    · refine ⟨(R.baseaddr + (4 * a + k), v >>> (8 * (3 - k)) % 256), h.sub _ ?_,
        R.cellOf_addr _ (by omega)⟩
      exact List.mem_map.mpr ⟨(4 * a + k, v >>> (8 * (3 - k)) % 256),
        mem_wordWrites.mpr ⟨a, v, k, hmem, hk, rfl⟩, rfl⟩
    · obtain ⟨v', hmem', hval⟩ := h.eq_of_hits hx hk ha hhits
      have hv : v' = v := h.unique _ hmem' _ hmem rfl
      rw [hval, hv]
  rw [hcell, R.mask, byteAt_ofNat _ (by omega)]
  exact BitVec.and_allOnes

/-- A word that is not. -/
theorem word_of_not_mem {a : Nat} (ha : a < R.size) (hmem : ∀ v, (a, v) ∉ words) :
    R.word (Store.writes st ws) a = R.word st a := by
  refine bigEndian_congr fun k hk => Store.writes_of_not_hits st fun x hx hhits => ?_
  obtain ⟨v, hv, -⟩ := h.eq_of_hits hx hk ha hhits
  exact hmem v hv

/-- Two stores after the same load: a word agrees unless it is not loaded and differed before. -/
theorem word_eq_iff (st' : Store) {a : Nat} (ha : a < R.size) :
    R.word (Store.writes st ws) a = R.word (Store.writes st' ws) a ↔
      ((∀ v, (a, v) ∉ words) → R.word st a = R.word st' a) := by
  by_cases hmem : ∃ v, (a, v) ∈ words
  · obtain ⟨v, hv⟩ := hmem
    rw [h.word_of_mem st hv, h.word_of_mem st' hv]
    exact ⟨fun _ hnot => absurd hv (hnot v), fun _ => rfl⟩
  · have hnot : ∀ v, (a, v) ∉ words := by simpa using hmem
    rw [h.word_of_not_mem st ha hnot, h.word_of_not_mem st' ha hnot]
    exact ⟨fun heq _ => heq, fun himp => himp hnot⟩

end Loads

end Region

/-! ### The words of a board -/

variable {N : Nat}

/-- The byte address from a word's address and the number of the byte. -/
theorem append_ofNat {n : Nat} (w : BitVec n) {k : Nat} (hk : k < 4) :
    w ++ BitVec.ofNat 2 k = BitVec.ofNat (n + 2) (4 * w.toNat + k) := by
  have hw := w.isLt
  have hsum : 4 * w.toNat + k < 2 ^ (n + 2) := by
    rw [pow_add]
    omega
  refine BitVec.eq_of_toNat_eq ?_
  rw [BitVec.toNat_append, BitVec.toNat_ofNat, BitVec.toNat_ofNat, Nat.mod_eq_of_lt hk,
    Nat.mod_eq_of_lt hsum, ← Nat.shiftLeft_add_eq_or_of_lt hk, Nat.shiftLeft_eq]
  omega

namespace Board

variable (b : Board N)

/-- A word of data memory from its four cells. -/
theorem dataMemory_eq_word (w : DmemAddr) :
    b.dataMemory.mem w = Region.dmem.word b.content w.toNat := by
  rw [dataMemory_mem_eq]
  refine bigEndian_congr fun k hk => ?_
  unfold Cell.dmemByte
  rw [append_ofNat w hk]
  rfl

/-- A word of instruction memory from its four cells. -/
theorem instructionMemory_eq_word (w : ImemAddr) :
    b.instructionMemory.mem w = Region.imem.word b.content w.toNat := by
  rw [instructionMemory_mem_eq]
  refine bigEndian_congr fun k hk => ?_
  unfold Cell.imemByte
  rw [append_ofNat w hk]
  rfl

/-- A register from its four cells. -/
theorem regfile_eq_word (r : RegAddr) :
    b.regfile r = Region.regfile.word b.content r.toNat := by
  rw [regfile_eq]
  refine bigEndian_congr fun k hk => ?_
  unfold Cell.regByte
  rw [append_ofNat r hk]
  rfl

/-! ### Loading a board -/

variable {b}

/-- While the host keeps the processor disabled, it makes no register write. -/
theorem quiet_of_disabled (hb : b.processorEnable = false) {ins : List (BoardIn N)}
    (hreset : ∀ i ∈ ins, i.reset = false)
    (hkeeps : ∀ i ∈ ins, ∀ op, i.bus.op = some op → controlAfter REG_ADDR_PROC_EN false op = false)
    (hquiet : QuietWhileDisabled b ins) : Quiet ins := by
  induction ins generalizing b with
  | nil => exact fun i hi => absurd hi List.not_mem_nil
  | cons i ins ih =>
    obtain ⟨hfirst, hrest⟩ := hquiet
    have hnext : (b.step i).processorEnable = false := by
      rw [processorEnable_step (hreset i List.mem_cons_self), hb]
      cases hop : i.bus.op with
      | none => rfl
      | some op => exact hkeeps i List.mem_cons_self op hop
    intro j hj
    rcases List.mem_cons.mp hj with rfl | hj
    · exact hfirst hb
    · exact ih hnext (fun x hx => hreset x (List.mem_cons_of_mem i hx))
        (fun x hx => hkeeps x (List.mem_cons_of_mem i hx)) hrest j hj

/-- The cells after a reset pulse and some writes to cells, the processor being disabled. -/
theorem content_of_load (hb : b.processorEnable = false) {p : UartParser}
    (hp : p.mainSm = .mainIdle) {ws : List (Nat × Nat)} (hws : ∀ w ∈ ws, ∃ c, Hits w c)
    {ins : List (BoardIn N)} (h : Transfers p (HostcommProxy.resetProcessor ++ commands ws) ins)
    (hquiet : QuietWhileDisabled b ins) :
    (ins.foldl Board.step b).content
      = Store.writes (fun c => if c.isRegfile = true then 0 else b.content c) ws := by
  have hharmless : ∀ op ∈ writeOps ws, op.Harmless := by
    intro op hop
    obtain ⟨w, hw, rfl⟩ := List.mem_map.mp hop
    obtain ⟨c, hc⟩ := hws w hw
    -- no cell lies behind the two control registers
    have hen : cellOf REG_ADDR_PROC_EN = none := by decide
    have hreset : cellOf REG_ADDR_PROC_RESET = none := by decide
    intro haddr
    rcases haddr with haddr | haddr
    · rw [Hits, haddr, hen] at hc
      exact absurd hc (by simp)
    · rw [Hits, haddr, hreset] at hc
      exact absurd hc (by simp)
  have hkeeps := notEnabled_of_resetProcessor hp hharmless h
  funext c
  exact content_of_resetProcessor hb hp hharmless h (quiet_of_disabled hb h.reset hkeeps hquiet) c

end Board

end VivadoTest.Framework
