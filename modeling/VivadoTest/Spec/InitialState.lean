import VivadoTest.Generator.ExpectedUpdates

/-!
# `VivadoTest.Spec.InitialState`: what the lines of a test state

A line of a test names a register or a data memory word and a value for it. Of several lines
for one cell the last one counts.

`registerAssignment` and `dmemAssignment` are what a line says, by the two formats of the
generator. `lastAssigned` looks for the last line that assigns to a key, and the two `accepted…`
functions leave out what the range checks reject. `AcceptsOnlyMachineState` says of a line that
what it lets into a test is state that the machine has.
-/

set_option autoImplicit false

namespace VivadoTest.Generator

open VivadoTest.Lib

/-- The register that a line names and the value that it states. -/
def registerAssignment (line : List Char) : Option (Int × Int) :=
  (matchRegex regUpdateRegex line).bind matchInts

/-- The data memory word that a line names and the value that it states. -/
def dmemAssignment (line : List Char) : Option (Int × Int) :=
  (matchRegex dmemUpdateRegex line).bind matchInts

/-- The values that 32 bits hold, signed or unsigned. -/
def Is32Bit (value : Int) : Prop := -(2 ^ 31) ≤ value ∧ value ≤ 2 ^ 32 - 1

instance (value : Int) : Decidable (Is32Bit value) := inferInstanceAs (Decidable (_ ∧ _))

/-- What the machine has: registers up to number 31 and `dmemDepth` words of data memory. -/
structure AcceptsOnlyMachineState (dmemDepth : Int) (line : List Char) : Prop where
  /-- An initial register value. -/
  register : ∀ regs, (RegisterState.tryAdd regs line).2 = true →
    ∃ r value, registerAssignment line = some (r, value) ∧ 0 ≤ r ∧ r ≤ 31 ∧ Is32Bit value
  register_rejected : ∀ regs, (RegisterState.tryAdd regs line).2 = false →
    (RegisterState.tryAdd regs line).1 = regs
  /-- An initial data memory word. -/
  dmem : ∀ words, (DmemState.tryAdd dmemDepth words line).2 = true →
    ∃ a value, dmemAssignment line = some (a, value) ∧ 0 ≤ a ∧ a < dmemDepth ∧ Is32Bit value
  dmem_rejected : ∀ words, (DmemState.tryAdd dmemDepth words line).2 = false →
    (DmemState.tryAdd dmemDepth words line).1 = words
  /-- An expected update. -/
  expected : ∀ u, ExpectedUpdate.fromLine line dmemDepth = some u → Is32Bit u.value ∧
    (u.isDestDmem = true → dmemAssignment line = some (u.addr, u.value) ∧ 0 ≤ u.addr ∧
      u.addr < dmemDepth) ∧
    (u.isDestDmem = false → registerAssignment line = some (u.addr, u.value) ∧ 0 ≤ u.addr ∧
      u.addr ≤ 31)

/-! ### The last assignment -/

/-- The value that the last of the lines for a cell states. -/
def lastAssigned (assignment : List Char → Option (Int × Int)) (lines : List (List Char))
    (key : Int) : Option Int :=
  lines.foldl (fun last line =>
    match assignment line with
    | some (k, value) => if k = key then some value else last
    | none => last) none

/-- The lines of the initial state as `main` looks at them. -/
def strippedLines (stdin : List Char) : List (List Char) := (textLines stdin).map strip

/-- What a line assigns to a register, when `RegisterState` accepts it. -/
def acceptedRegister (line : List Char) : Option (Int × Int) :=
  if (RegisterState.tryAdd ∅ line).2 then registerAssignment line else none

/-- What a line assigns to a data memory word, when `DmemState` accepts it. -/
def acceptedDmem (depth : Int) (line : List Char) : Option (Int × Int) :=
  if (DmemState.tryAdd depth ∅ line).2 then dmemAssignment line else none

/-- The value last assigned to register `r`. -/
def lastRegisterValue (stdin : List Char) (r : Int) : Option Int :=
  lastAssigned acceptedRegister (strippedLines stdin) r

/-- The value last assigned to the data memory word `a`. -/
def lastDmemValue (depth : Int) (stdin : List Char) (a : Int) : Option Int :=
  lastAssigned (acceptedDmem depth) (strippedLines stdin) a

/-- What a register is to hold: the value last assigned to it, modulo `2 ^ 32`, or zero. -/
def statedRegister (stdin : List Char) (r : BitVec 5) : BitVec 32 :=
  match lastRegisterValue stdin r.toNat with
  | some value => BitVec.ofInt 32 value
  | none => 0

/-- The last assignment after one more line: that line's, if it assigns to the key. -/
theorem lastAssigned_append_singleton (assignment : List Char → Option (Int × Int))
    (lines : List (List Char)) (line : List Char) (key : Int) :
    lastAssigned assignment (lines ++ [line]) key =
      match assignment line with
      | some (k, value) => if k = key then some value else lastAssigned assignment lines key
      | none => lastAssigned assignment lines key := by
  unfold lastAssigned
  rw [List.foldl_append]
  rfl

/-- The last assigned value stands in a line. -/
theorem exists_mem_of_lastAssigned {assignment : List Char → Option (Int × Int)}
    {lines : List (List Char)} {key value : Int}
    (h : lastAssigned assignment lines key = some value) :
    ∃ line ∈ lines, assignment line = some (key, value) := by
  induction lines using List.reverseRecOn with
  | nil => exact absurd h (by simp [lastAssigned])
  | append_singleton lines line ih =>
    rw [lastAssigned_append_singleton] at h
    -- a last line without the key leaves the question to the earlier ones
    have hearlier : lastAssigned assignment lines key = some value →
        ∃ line' ∈ lines ++ [line], assignment line' = some (key, value) := by
      intro hlast
      obtain ⟨line', hmem, hline'⟩ := ih hlast
      exact ⟨line', List.mem_append_left _ hmem, hline'⟩
    cases hline : assignment line with
    | none =>
      rw [hline] at h
      exact hearlier h
    | some a =>
      obtain ⟨k, v⟩ := a
      simp only [hline] at h
      by_cases hk : k = key
      · rw [if_pos hk] at h
        obtain rfl := Option.some.inj h
        exact ⟨line, by simp, by rw [hline, hk]⟩
      · rw [if_neg hk] at h
        exact hearlier h

end VivadoTest.Generator
