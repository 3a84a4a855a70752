import VivadoTest.Proofs.AcceptedLines

/-!
# `VivadoTest.Proofs.InitialState`: the dictionaries of the initial state

Of several lines for one cell the last accepted one counts: `HoldsLast` is the invariant of the
loop over the lines.

* `regfile_initState`, `dmem_initState`: the dictionaries hold what is assigned last.
* `mem_toList_regfile`, `mem_toList_dmem`: what their entries look like.

A line is tried as a register first and as a data memory word then, and the two formats exclude
each other (`acceptedDmem_of_register`). A line of neither format, or with a number out of range,
changes nothing. So the loop over the lines is one step lemma (`holdsLast_addLine`) and an
induction on the file from its end, which is where the last assignment is decided.
-/

set_option autoImplicit false

namespace VivadoTest.Generator

open VivadoTest.Lib

/-! ### The dictionaries -/

/-- A line adds what it assigns to the registers, or leaves them as they are. -/
theorem acceptedRegister_cases (regs : Dict) (line : List Char) :
    (∃ r value, acceptedRegister line = some (r, value) ∧ ((1 ≤ r ∧ r ≤ 31) ∧ Is32Bit value) ∧
      RegisterState.tryAdd regs line = (regs.insert r value, true)) ∨
    (acceptedRegister line = none ∧ RegisterState.tryAdd regs line = (regs, false)) := by
  unfold acceptedRegister
  rcases RegisterState.tryAdd_cases regs line with ⟨r, value, hline, hok, hadd⟩ | ⟨hline, hadd⟩ <;>
    rcases RegisterState.tryAdd_cases ∅ line with
      ⟨r', value', hline', hok', hadd'⟩ | ⟨hline', hadd'⟩
  · exact Or.inl ⟨r, value, by rw [hadd', if_pos rfl, hline], hok, hadd⟩
  · exact absurd hok (hline' r value hline)
  · exact absurd hok' (hline r' value' hline')
  · exact Or.inr ⟨by rw [hadd', if_neg Bool.false_ne_true], hadd⟩

/-- A line of the data memory section: it is accepted and stored, or ignored. -/
theorem acceptedDmem_cases (depth : Int) (words : Dict) (line : List Char) :
    (∃ a value, acceptedDmem depth line = some (a, value) ∧
      ((0 ≤ a ∧ a < depth) ∧ -(2 ^ 31) ≤ value ∧ value ≤ 2 ^ 32) ∧
      DmemState.tryAdd depth words line = (words.insert a value, true)) ∨
    (acceptedDmem depth line = none ∧ DmemState.tryAdd depth words line = (words, false)) := by
  unfold acceptedDmem
  rcases DmemState.tryAdd_cases depth words line with
    ⟨a, value, hline, hok, hadd⟩ | ⟨hline, hadd⟩ <;>
    rcases DmemState.tryAdd_cases depth ∅ line with
      ⟨a', value', hline', hok', hadd'⟩ | ⟨hline', hadd'⟩
  · exact Or.inl ⟨a, value, by rw [hadd', if_pos rfl, hline], hok, hadd⟩
  · exact absurd hok (hline' a value hline)
  · exact absurd hok' (hline a' value' hline')
  · exact Or.inr ⟨by rw [hadd', if_neg Bool.false_ne_true], hadd⟩

/-- A line for a register assigns no data memory word. -/
theorem acceptedDmem_of_register {depth : Int} {line : List Char} {r value : Int}
    (h : registerAssignment line = some (r, value)) : acceptedDmem depth line = none := by
  have hdmem : dmemAssignment line = none := by
    unfold dmemAssignment
    rw [matchRegex_dmem_of_register h]
    rfl
  unfold acceptedDmem
  rw [hdmem, ite_self]

/-- An accepted assignment is an assignment. -/
theorem registerAssignment_of_accepted {line : List Char} {r value : Int}
    (h : acceptedRegister line = some (r, value)) : registerAssignment line = some (r, value) := by
  unfold acceptedRegister at h
  split at h
  · exact h
  · exact absurd h (by simp)

/-- The dictionary holds the values that some lines assign last. -/
def HoldsLast (d : Dict) (assignment : List Char → Option (Int × Int)) (lines : List (List Char)) :
    Prop := ∀ key : Int, d[key]? = lastAssigned assignment lines key

section
variable {d : Dict} {assignment : List Char → Option (Int × Int)} {lines : List (List Char)}
  {line : List Char}

/-- An accepted line updates the dictionary to the last values. -/
theorem HoldsLast.insert (h : HoldsLast d assignment lines) {k value : Int}
    (hline : assignment line = some (k, value)) :
    HoldsLast (d.insert k value) assignment (lines ++ [line]) := by
  intro key
  rw [lastAssigned_append_singleton, hline, Std.TreeMap.getElem?_insert, h key]
  simp only [Std.LawfulEqCmp.compare_eq_iff_eq]

/-- A line that assigns nothing leaves the last values as they are. -/
theorem HoldsLast.skip (h : HoldsLast d assignment lines) (hline : assignment line = none) :
    HoldsLast d assignment (lines ++ [line]) := by
  intro key
  rw [lastAssigned_append_singleton, hline, h key]

end

/-- One line of the file keeps both dictionaries at the last values. The line is tried as a
register first and then as data memory, as the script does. -/
theorem holdsLast_addLine {depth : Int} {state : InitState} {lines : List (List Char)}
    (hregs : HoldsLast state.regfile acceptedRegister lines)
    (hdmem : HoldsLast state.dmem (acceptedDmem depth) lines) (line : List Char) :
    HoldsLast (state.addLine depth line).regfile acceptedRegister (lines ++ [strip line]) ∧
      HoldsLast (state.addLine depth line).dmem (acceptedDmem depth) (lines ++ [strip line]) := by
  unfold InitState.addLine
  dsimp only
  split
  · next hempty =>
    -- an empty line assigns nothing
    rw [List.isEmpty_iff.mp hempty]
    exact ⟨hregs.skip rfl, hdmem.skip rfl⟩
  -- A line that the registers take is none of the data memory.
  · rcases acceptedRegister_cases state.regfile (strip line) with
      ⟨r, value, hline, -, hadd⟩ | ⟨hline, hadd⟩
    · rw [hadd]
      exact ⟨hregs.insert hline,
        hdmem.skip (acceptedDmem_of_register (registerAssignment_of_accepted hline))⟩
    · rw [hadd]
      refine ⟨hregs.skip hline, ?_⟩
      rcases acceptedDmem_cases depth state.dmem (strip line) with
        ⟨a, value, hline', -, hadd'⟩ | ⟨hline', hadd'⟩
      · show HoldsLast (DmemState.tryAdd depth state.dmem (strip line)).1 _ _
        rw [hadd']
        exact hdmem.insert hline'
      · show HoldsLast (DmemState.tryAdd depth state.dmem (strip line)).1 _ _
        rw [hadd']
        exact hdmem.skip hline'

/-- After the whole file both dictionaries hold the last accepted values. -/
theorem holdsLast_initState (depth : Int) (stdin : List Char) :
    HoldsLast (initState depth stdin).regfile acceptedRegister (strippedLines stdin) ∧
      HoldsLast (initState depth stdin).dmem (acceptedDmem depth) (strippedLines stdin) := by
  unfold initState strippedLines
  generalize textLines stdin = lines
  induction lines using List.reverseRecOn with
  | nil => exact ⟨fun key => Std.TreeMap.getElem?_emptyc, fun key => Std.TreeMap.getElem?_emptyc⟩
  | append_singleton lines line ih =>
    rw [List.foldl_append, List.map_append]
    exact holdsLast_addLine ih.1 ih.2 line

/-- The dictionary of the registers holds what is assigned last. -/
theorem regfile_initState (depth : Int) (stdin : List Char) (r : Int) :
    (initState depth stdin).regfile[r]? = lastRegisterValue stdin r :=
  (holdsLast_initState depth stdin).1 r

/-- The dictionary of the data memory holds what is assigned last. -/
theorem dmem_initState (depth : Int) (stdin : List Char) (a : Int) :
    (initState depth stdin).dmem[a]? = lastDmemValue depth stdin a :=
  (holdsLast_initState depth stdin).2 a

/-- The entries are the values assigned last. -/
theorem mem_toList_regfile {depth : Int} {stdin : List Char} {r value : Int} :
    (r, value) ∈ (initState depth stdin).regfile.toList ↔
      lastRegisterValue stdin r = some value := by
  rw [Std.TreeMap.mem_toList_iff_getElem?_eq_some, regfile_initState]

/-- What is printed for data memory: each address with its last accepted value. -/
theorem mem_toList_dmem {depth : Int} {stdin : List Char} {a value : Int} :
    (a, value) ∈ (initState depth stdin).dmem.toList ↔
      lastDmemValue depth stdin a = some value := by
  rw [Std.TreeMap.mem_toList_iff_getElem?_eq_some, dmem_initState]

/-- A register that is assigned has a number from 1 to 31, and its value fits 32 bits. -/
theorem register_inRange {stdin : List Char} {r value : Int}
    (h : lastRegisterValue stdin r = some value) : (1 ≤ r ∧ r ≤ 31) ∧ Is32Bit value := by
  obtain ⟨line, -, hline⟩ := exists_mem_of_lastAssigned h
  rcases acceptedRegister_cases ∅ line with ⟨r', value', hline', hok, -⟩ | ⟨hline', -⟩
  · obtain ⟨rfl, rfl⟩ := Prod.mk.inj (Option.some.inj (hline'.symm.trans hline))
    exact hok
  · rw [hline'] at hline
    exact absurd hline (by simp)

/-- An assigned data memory word exists, and its value fits 32 bits or is `2 ^ 32`. -/
theorem dmem_inRange {depth : Int} {stdin : List Char} {a value : Int}
    (h : lastDmemValue depth stdin a = some value) :
    (0 ≤ a ∧ a < depth) ∧ -(2 ^ 31) ≤ value ∧ value ≤ 2 ^ 32 := by
  obtain ⟨line, -, hline⟩ := exists_mem_of_lastAssigned h
  rcases acceptedDmem_cases depth ∅ line with ⟨a', value', hline', hok, -⟩ | ⟨hline', -⟩
  · obtain ⟨rfl, rfl⟩ := Prod.mk.inj (Option.some.inj (hline'.symm.trans hline))
    exact hok
  · rw [hline'] at hline
    exact absurd hline (by simp)

end VivadoTest.Generator
