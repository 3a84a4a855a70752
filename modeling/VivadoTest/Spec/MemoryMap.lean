import VivadoTest.Framework.MIPSSystem
import VivadoTest.Framework.UartParser

/-!
# `VivadoTest.Spec.MemoryMap`: what the host's address space is for

Behind the host's 16-bit addresses lies a store of byte cells. An address decodes to a cell
(`cellOf`), several addresses to the same one; a cell keeps the bits of `Cell.mask`, and a
write changes the cell it decodes to and no other (`Store.step`).

* `Store.after_eq_stored`: after any sequence of bus cycles a cell holds the byte written
  last, without the bits it does not keep, and what it held before if there was none.
* `Board.content`: the cells of a board.

The store has no clock, no enables and no latches. It is what a programmer of the host has in mind:
a byte written to an address is read back there. The exceptions are part of it and not of the
board: addresses that share a cell, addresses without a cell, and bits that no cell keeps.

`Store.writes` and `Hits` are about lists of writes, which is what a load is. A cell after a load
is known as soon as all writes that hit it give it the same value (`Store.writes_of_hits`), in
whatever order they come.
-/

set_option autoImplicit false

namespace VivadoTest.Framework

open VivadoTest.Lib

/-- A byte of the host's address space. -/
inductive Cell
  | dmem (offset : ByteAddr)
  | imem (offset : ByteAddr)
  | regfile (offset : RegByteAddr)
  | expupd (offset : BitVec 12)
  | numExpUpdatesHi
  | numExpUpdatesLo
  | maxWaitTimeHi
  | maxWaitTimeLo
  deriving DecidableEq, Repr

namespace Cell

/-- The bits that a cell stores. An entry of the expected updates has eight bytes: three bits,
five whole bytes and two that are not there. -/
def mask : Cell → Byte
  | .expupd offset =>
    match (offset.extractLsb' 0 3).toNat with
    | 0 => 0x07
    | 6 => 0x00
    | 7 => 0x00
    | _ => 0xFF
  | .numExpUpdatesHi => 0x01
  | _ => 0xFF

/-- The cell is in the register file. -/
def isRegfile : Cell → Bool
  | .regfile _ => true
  | _ => false

/-- The cells whose writes restart the test monitor. -/
def isConfiguration : Cell → Bool
  | .expupd _ => true
  | .numExpUpdatesHi => true
  | .numExpUpdatesLo => true
  | .maxWaitTimeHi => true
  | .maxWaitTimeLo => true
  | _ => false

/-- Byte `k` of the data memory word `w`. -/
def dmemByte (w : DmemAddr) (k : Nat) : Cell := .dmem (w ++ BitVec.ofNat 2 k)

/-- Byte `k` of the instruction memory word `w`. -/
def imemByte (w : ImemAddr) (k : Nat) : Cell := .imem (w ++ BitVec.ofNat 2 k)

/-- Byte `k` of the register `r`. -/
def regByte (r : RegAddr) (k : Nat) : Cell := .regfile (r ++ BitVec.ofNat 2 k)

end Cell

/-- The cell behind a host address, if there is one. -/
def cellOf (address : BitVec 16) : Option Cell :=
  if address.extractLsb' 14 2 = 0b10 then some (.dmem (address.extractLsb' 0 12))
  else if address.extractLsb' 14 2 = 0b11 then some (.imem (address.extractLsb' 0 12))
  else if address.extractLsb' 12 4 = 0x3 then some (.regfile (address.extractLsb' 0 7))
  else if address.extractLsb' 12 4 = 0x2 then some (.expupd (address.extractLsb' 0 12))
  else if address = 5 then some .numExpUpdatesHi
  else if address = 6 then some .numExpUpdatesLo
  else if address = 7 then some .maxWaitTimeHi
  else if address = 8 then some .maxWaitTimeLo
  else none

/-- The host writes to the cell in this cycle. -/
def HostBus.WritesTo (bus : HostBus) (c : Cell) : Prop :=
  bus.regWriteEnable = true ∧ cellOf bus.regAddress = some c

instance (bus : HostBus) (c : Cell) : Decidable (bus.WritesTo c) :=
  inferInstanceAs (Decidable (_ ∧ _))

/-! ### The store -/

/-- The contents of all cells. -/
abbrev Store := Cell → Byte

/-- One cycle of the bus. -/
def Store.step (st : Store) (bus : HostBus) : Store := fun c =>
  if bus.WritesTo c then bus.regWriteData &&& c.mask else st c

/-- The byte written last to a cell. -/
def lastWritten (buses : List HostBus) (c : Cell) : Option Byte :=
  buses.foldl (fun last bus => if bus.WritesTo c then some bus.regWriteData else last) none

/-- What a cell holds after some cycles of the bus, `before` being what it held earlier. -/
def stored (before : Store) (buses : List HostBus) (c : Cell) : Byte :=
  match lastWritten buses c with
  | some v => v &&& c.mask
  | none => before c

/-- One more cycle on the bus: a write to the cell is the last one now. -/
theorem lastWritten_append_singleton (buses : List HostBus) (bus : HostBus) (c : Cell) :
    lastWritten (buses ++ [bus]) c
      = if bus.WritesTo c then some bus.regWriteData else lastWritten buses c := by
  unfold lastWritten
  rw [List.foldl_append]
  rfl

/-- The same for what the cell holds, of which the mask keeps the bits that are implemented. -/
theorem stored_append_singleton (before : Store) (buses : List HostBus) (bus : HostBus) (c : Cell) :
    stored before (buses ++ [bus]) c
      = if bus.WritesTo c then bus.regWriteData &&& c.mask else stored before buses c := by
  unfold stored
  rw [lastWritten_append_singleton]
  by_cases h : bus.WritesTo c
  · rw [if_pos h, if_pos h]
  · rw [if_neg h, if_neg h]

/-- The store after a run is what was written last. -/
theorem Store.after_eq_stored (before : Store) (buses : List HostBus) :
    buses.foldl Store.step before = stored before buses := by
  induction buses using List.reverseRecOn with
  | nil => rfl
  | append_singleton buses bus ih =>
    funext c
    rw [List.foldl_append, ih, stored_append_singleton]
    rfl

/-! ### Accesses -/

/-- A byte written through the host's port. -/
def Store.write (st : Store) (address : BitVec 16) (v : Byte) : Store := fun c =>
  if cellOf address = some c then v &&& c.mask else st c

/-- What an access does to the store. -/
def Store.access (st : Store) : BusOp → Store
  | .write address v => st.write address v
  | .read _ => st

/-- Bytes written one after the other, each given by its address and its value. -/
def Store.writes (st : Store) (ws : List (Nat × Nat)) : Store :=
  ws.foldl (fun st w => st.write (BitVec.ofNat 16 w.1) (BitVec.ofNat 8 w.2)) st

/-- The write `w` goes to the cell `c`. -/
def Hits (w : Nat × Nat) (c : Cell) : Prop := cellOf (BitVec.ofNat 16 w.1) = some c

instance (w : Nat × Nat) (c : Cell) : Decidable (Hits w c) :=
  inferInstanceAs (Decidable (_ = _))

/-- The access neither enables the processor nor resets it. -/
def BusOp.Harmless : BusOp → Prop
  | .write address v =>
    address = REG_ADDR_PROC_EN ∨ address = REG_ADDR_PROC_RESET → v.getLsbD 0 = false
  | .read _ => True

/-- One more write by the host. -/
theorem Store.writes_append_singleton (st : Store) (ws : List (Nat × Nat)) (w : Nat × Nat)
    (c : Cell) : Store.writes st (ws ++ [w]) c
      = if Hits w c then BitVec.ofNat 8 w.2 &&& c.mask else Store.writes st ws c := by
  unfold Store.writes
  rw [List.foldl_append]
  rfl

/-- A cell that no write hits. -/
theorem Store.writes_of_not_hits (st : Store) {ws : List (Nat × Nat)} {c : Cell}
    (h : ∀ w ∈ ws, ¬ Hits w c) : Store.writes st ws c = st c := by
  induction ws using List.reverseRecOn with
  | nil => rfl
  | append_singleton ws w ih =>
    rw [writes_append_singleton, if_neg (h w (by simp))]
    exact ih fun x hx => h x (List.mem_append_left _ hx)

/-- A cell that every write to it gives the same value. -/
theorem Store.writes_of_hits (st : Store) {ws : List (Nat × Nat)} {c : Cell} {v : Nat}
    (hex : ∃ w ∈ ws, Hits w c) (hall : ∀ w ∈ ws, Hits w c → w.2 = v) :
    Store.writes st ws c = BitVec.ofNat 8 v &&& c.mask := by
  induction ws using List.reverseRecOn with
  | nil => exact absurd hex (by simp)
  | append_singleton ws w ih =>
    rw [writes_append_singleton]
    by_cases hw : Hits w c
    · rw [if_pos hw, hall w (by simp) hw]
    · rw [if_neg hw]
      refine ih ?_ fun x hx => hall x (List.mem_append_left _ hx)
      obtain ⟨x, hx, hxc⟩ := hex
      rcases List.mem_append.mp hx with hx | hx
      · exact ⟨x, hx, hxc⟩
      · rw [List.mem_singleton.mp hx] at hxc
        exact absurd hxc hw

/-! ### The cells of a board -/

variable {N : Nat}

/-- What each cell of the board holds. -/
def Board.content (b : Board N) : Store
  | .dmem a => bigEndianByte (b.dataMemory.mem (hostcommWordAddr a)) (hostcommByteSel a)
  | .imem a => bigEndianByte (b.instructionMemory.mem (hostcommWordAddr a)) (hostcommByteSel a)
  | .regfile a => bigEndianByte (b.regfile (a.extractLsb' 2 5)) (a.extractLsb' 0 2).toNat
  | .expupd a =>
    byteAt (b.testMonitor.expupdRam (a.extractLsb' 3 9)) (5 - (a.extractLsb' 0 3).toNat)
      &&& (Cell.expupd a).mask
  | .numExpUpdatesHi => (b.testMonitor.numExpUpdates.extractLsb' 8 1).setWidth 8
  | .numExpUpdatesLo => b.testMonitor.numExpUpdates.extractLsb' 0 8
  | .maxWaitTimeHi => b.testMonitor.maxWaitTime.extractLsb' 8 8
  | .maxWaitTimeLo => b.testMonitor.maxWaitTime.extractLsb' 0 8

/-- What the host sees at an address of the data memory: a byte of a word, the first byte being
the most significant one. -/
theorem Board.content_dmem (b : Board N) (a : ByteAddr) :
    b.content (.dmem a)
      = bigEndianByte (b.dataMemory.mem (hostcommWordAddr a)) (hostcommByteSel a) := rfl

/-- The same for the instruction memory. -/
theorem Board.content_imem (b : Board N) (a : ByteAddr) :
    b.content (.imem a)
      = bigEndianByte (b.instructionMemory.mem (hostcommWordAddr a)) (hostcommByteSel a) := rfl

/-- The same for the registers, whose debug port addresses a register and a byte of it. -/
theorem Board.content_regfile (b : Board N) (a : RegByteAddr) :
    b.content (.regfile a)
      = bigEndianByte (b.regfile (a.extractLsb' 2 5)) (a.extractLsb' 0 2).toNat := rfl

/-- The same for an expected update. Its bytes are numbered from the top as well, and only the low
three bits of the first one are implemented. -/
theorem Board.content_expupd (b : Board N) (a : BitVec 12) :
    b.content (.expupd a)
      = byteAt (b.testMonitor.expupdRam (a.extractLsb' 3 9)) (5 - (a.extractLsb' 0 3).toNat)
        &&& (Cell.expupd a).mask := rfl

/-- An entry has 43 bits: three in its first byte, eight in each of the next five, and none in the
two addresses that are left. -/
theorem Cell.mask_expupd (a : BitVec 12) : (Cell.expupd a).mask =
    if (a.extractLsb' 0 3).toNat = 0 then 0x07
    else if 6 ≤ (a.extractLsb' 0 3).toNat then 0x00
    else 0xFF := by
  have hlt : (a.extractLsb' 0 3).toNat < 8 := (a.extractLsb' 0 3).isLt
  rw [Cell.mask]
  generalize (a.extractLsb' 0 3).toNat = sel at hlt
  revert sel
  decide

/-- The last two bytes of an entry do not exist. -/
theorem Cell.mask_expupd_of_ge {a : BitVec 12} (h : ¬ (a.extractLsb' 0 3).toNat < 6) :
    (Cell.expupd a).mask = 0 := by
  rw [mask_expupd, if_neg (by omega), if_pos (by omega)]

end VivadoTest.Framework
