import VivadoTest.Spec.InitialState

/-!
# `VivadoTest.Proofs.AcceptedLines`: which lines the generators accept

The two dictionaries and the list of expected updates check the range of what a line states in
code of their own. Each of them is described once (`RegisterState.tryAdd_cases`,
`DmemState.tryAdd_cases`, `ExpectedUpdate.fromLine_eq_some_iff`).

* `acceptsOnlyMachineState_iff`: the lines that are let in although the machine has no such
  state.

The three checks are alike and not the same. A register's value has to fit 32 bits, and so has that
of an expected update, but a data memory word may have the value `2 ^ 32`
(`DmemState.addInitWord_cases`). Which of them a line meets is decided by its format
(`matchRegex_dmem_of_register`).
-/

set_option autoImplicit false

namespace VivadoTest.Generator

open VivadoTest.Lib

/-! ### The two line formats -/

/-- A greedy repetition stops somewhere in front of the rest of the match. -/
theorem greedy_eq_some {α : Type} {p : Char → Bool} {k : List Char → List Char → Option α}
    {taken cs : List Char} {result : α} (h : greedy p k taken cs = some result) :
    ∃ pre rest, cs = pre ++ rest ∧ (∀ c ∈ pre, p c = true) ∧
      k (taken.reverse ++ pre) rest = some result := by
  induction cs generalizing taken with
  | nil => exact ⟨[], [], rfl, fun c hc => absurd hc List.not_mem_nil, by simpa [greedy] using h⟩
  | cons c cs ih =>
    have hstop : k taken.reverse (c :: cs) = some result →
        ∃ pre rest, c :: cs = pre ++ rest ∧ (∀ c ∈ pre, p c = true) ∧
          k (taken.reverse ++ pre) rest = some result := fun hk =>
      ⟨[], c :: cs, rfl, fun x hx => absurd hx List.not_mem_nil, by rwa [List.append_nil]⟩
    rw [greedy] at h
    split at h
    · next hp =>
      -- either the repetition takes `c` and goes on, or it gives `c` back
      rcases hgo : greedy p k (c :: taken) cs with _ | result'
      · rw [hgo] at h
        exact hstop h
      · rw [hgo] at h
        obtain rfl := Option.some.inj h
        obtain ⟨pre, rest, rfl, hpre, hk⟩ := ih hgo
        refine ⟨c :: pre, rest, rfl, ?_, ?_⟩
        · intro x hx
          rcases List.mem_cons.mp hx with rfl | hx
          · exact hp
          · exact hpre x hx
        · rw [List.reverse_cons, List.append_assoc] at hk
          exact hk
    · exact hstop h

/-- What follows the white space of a line whose format starts with the character `x`. -/
theorem dropWhile_of_matchRegex {x : Char} (hx : isSpace x = false) {items : List RegexItem}
    {line : List Char} {groups : List (List Char)}
    (h : matchRegex (.many isSpace :: .one (isChar x) :: items) line = some groups) :
    (line.dropWhile isSpace).head? = some x := by
  rw [matchRegex] at h
  obtain ⟨pre, rest, rfl, hpre, hrest⟩ := greedy_eq_some h
  cases rest with
  | nil => exact absurd hrest (by simp [matchRegex])
  | cons c rest =>
    rw [matchRegex] at hrest
    split at hrest
    · next hc =>
      obtain rfl : c = x := by simpa [isChar] using hc
      rw [List.dropWhile_append_of_pos hpre, List.dropWhile_cons, if_neg (by simp [hx])]
      rfl
    · exact absurd hrest (by simp)

/-- No line has both formats. -/
theorem matchRegex_dmem_of_register {line : List Char} {r value : Int}
    (h : registerAssignment line = some (r, value)) : matchRegex dmemUpdateRegex line = none := by
  obtain ⟨groups, hreg, -⟩ := Option.bind_eq_some_iff.mp h
  have hr := dropWhile_of_matchRegex (x := 'r') (by decide) hreg
  cases hdmem : matchRegex dmemUpdateRegex line with
  | none => rfl
  | some groups' =>
    have hd := dropWhile_of_matchRegex (x := 'd') (by decide) hdmem
    rw [hr] at hd
    exact absurd hd (by decide)

/-! ### The dictionaries -/

/-- `try_add` with a check that either inserts the value or raises an exception. -/
theorem tryAdd_cases {regex : List RegexItem} {add : Dict → Int → Int → Option Dict}
    {ok : Int → Int → Prop}
    (hadd : ∀ state key value,
      (ok key value ∧ add state key value = some (state.insert key value)) ∨
      (¬ ok key value ∧ add state key value = none)) (state : Dict) (line : List Char) :
    (∃ key value, (matchRegex regex line).bind matchInts = some (key, value) ∧ ok key value ∧
      tryAdd regex add state line = (state.insert key value, true)) ∨
    ((∀ key value, (matchRegex regex line).bind matchInts = some (key, value) → ¬ ok key value) ∧
      tryAdd regex add state line = (state, false)) := by
  unfold tryAdd
  cases hline : (matchRegex regex line).bind matchInts with
  | none => exact Or.inr ⟨fun _ _ h => absurd h (by simp), rfl⟩
  | some assignment =>
    obtain ⟨key, value⟩ := assignment
    rcases hadd state key value with ⟨hok, hsome⟩ | ⟨hok, hnone⟩
    · left
      refine ⟨key, value, rfl, hok, ?_⟩
      simp only [hsome]
    · right
      refine ⟨fun k v h => ?_, ?_⟩
      · obtain ⟨rfl, rfl⟩ := Prod.mk.inj (Option.some.inj h)
        exact hok
      · simp only [hnone]

/-- A register's value is stored if its number and its value are in range; else there is an error.
-/
theorem RegisterState.addInitValue_cases (regs : Dict) (r value : Int) :
    (((1 ≤ r ∧ r ≤ 31) ∧ Is32Bit value) ∧
      RegisterState.addInitValue regs r value = some (regs.insert r value)) ∨
    (¬ ((1 ≤ r ∧ r ≤ 31) ∧ Is32Bit value) ∧ RegisterState.addInitValue regs r value = none) := by
  unfold RegisterState.addInitValue assertInRange guard Is32Bit
  by_cases hr : 1 ≤ r ∧ r ≤ 31
  · by_cases hv : -(2 ^ 31) ≤ value ∧ value ≤ 2 ^ 32 - 1
    · rw [if_pos hr, if_pos hv]
      exact Or.inl ⟨⟨hr, hv⟩, rfl⟩
    · rw [if_pos hr, if_neg hv]
      exact Or.inr ⟨fun h => hv h.2, rfl⟩
  · rw [if_neg hr]
    exact Or.inr ⟨fun h => hr h.1, rfl⟩

/-- A word is stored if its address and its value are in range; else there is an error. The upper
bound for the value is `2 ^ 32` itself. -/
theorem DmemState.addInitWord_cases (depth : Int) (words : Dict) (a value : Int) :
    (((0 ≤ a ∧ a < depth) ∧ -(2 ^ 31) ≤ value ∧ value ≤ 2 ^ 32) ∧
      DmemState.addInitWord depth words a value = some (words.insert a value)) ∨
    (¬ ((0 ≤ a ∧ a < depth) ∧ -(2 ^ 31) ≤ value ∧ value ≤ 2 ^ 32) ∧
      DmemState.addInitWord depth words a value = none) := by
  unfold DmemState.addInitWord assertInRange guard
  by_cases ha : 0 ≤ a ∧ a < depth
  · by_cases hv : -(2 ^ 31) ≤ value ∧ value ≤ 2 ^ 32
    · rw [if_pos ha, if_pos hv]
      exact Or.inl ⟨⟨ha, hv⟩, rfl⟩
    · rw [if_pos ha, if_neg hv]
      exact Or.inr ⟨fun h => hv h.2, rfl⟩
  · rw [if_neg ha]
    exact Or.inr ⟨fun h => ha h.1, rfl⟩

/-- A line is a register assignment in range and stored, or it changes nothing. -/
theorem RegisterState.tryAdd_cases (regs : Dict) (line : List Char) :
    (∃ r value, registerAssignment line = some (r, value) ∧ ((1 ≤ r ∧ r ≤ 31) ∧ Is32Bit value) ∧
      RegisterState.tryAdd regs line = (regs.insert r value, true)) ∨
    ((∀ r value, registerAssignment line = some (r, value) → ¬ ((1 ≤ r ∧ r ≤ 31) ∧ Is32Bit value)) ∧
      RegisterState.tryAdd regs line = (regs, false)) :=
  Generator.tryAdd_cases RegisterState.addInitValue_cases regs line

/-- A line is a data memory assignment in range and stored, or it changes nothing. -/
theorem DmemState.tryAdd_cases (depth : Int) (words : Dict) (line : List Char) :
    (∃ a value, dmemAssignment line = some (a, value) ∧
      ((0 ≤ a ∧ a < depth) ∧ -(2 ^ 31) ≤ value ∧ value ≤ 2 ^ 32) ∧
      DmemState.tryAdd depth words line = (words.insert a value, true)) ∨
    ((∀ a value, dmemAssignment line = some (a, value) →
        ¬ ((0 ≤ a ∧ a < depth) ∧ -(2 ^ 31) ≤ value ∧ value ≤ 2 ^ 32)) ∧
      DmemState.tryAdd depth words line = (words, false)) :=
  Generator.tryAdd_cases (DmemState.addInitWord_cases depth) words line

/-! ### The expected updates -/

namespace ExpectedUpdate

/-- The constructor returns what it was given, when it is in range. -/
theorem init_eq_some_iff {isDestDmem : Bool} {addr value dmemDepth : Int} {u : ExpectedUpdate} :
    init isDestDmem addr value dmemDepth = some u ↔ (0 ≤ addr ∧ addr ≤ dmemDepth - 1) ∧
      Is32Bit value ∧ u = ⟨isDestDmem, addr, value, Nat.clog 2 dmemDepth.toNat⟩ := by
  unfold init assertInRange guard Is32Bit
  by_cases ha : 0 ≤ addr ∧ addr ≤ dmemDepth - 1
  · by_cases hv : -(2 ^ 31) ≤ value ∧ value ≤ 2 ^ 32 - 1
    · rw [if_pos ha, if_pos hv]
      constructor
      · intro h
        exact ⟨ha, hv, (Option.some.inj h).symm⟩
      · intro h
        rw [h.2.2]
        rfl
    · rw [if_pos ha, if_neg hv]
      exact iff_of_false (by simp) fun h => hv h.2.1
  · rw [if_neg ha]
    exact iff_of_false (by simp) fun h => ha h.1

/-- A line becomes an update of the word or of the register that it names. -/
theorem fromLine_eq_some_iff {line : List Char} {dmemDepth : Int} {u : ExpectedUpdate} :
    fromLine line dmemDepth = some u ↔
      (∃ a value, dmemAssignment line = some (a, value) ∧ init true a value dmemDepth = some u) ∨
      (∃ r value, registerAssignment line = some (r, value) ∧
        init false r value dmemDepth = some u) := by
  unfold fromLine
  -- The pattern of the words is tried first; no line matches both.
  cases hdmem : matchRegex dmemUpdateRegex line with
  | some groups =>
    have hassign : dmemAssignment line = matchInts groups := by
      unfold dmemAssignment
      rw [hdmem]
      rfl
    constructor
    · intro h
      obtain ⟨⟨a, value⟩, hints, hinit⟩ := Option.bind_eq_some_iff.mp h
      exact Or.inl ⟨a, value, hassign.trans hints, hinit⟩
    · intro h
      rcases h with ⟨a, value, hints, hinit⟩ | ⟨r, value, hreg, -⟩
      · exact Option.bind_eq_some_iff.mpr ⟨(a, value), hassign.symm.trans hints, hinit⟩
      · rw [matchRegex_dmem_of_register hreg] at hdmem
        exact absurd hdmem (by simp)
  | none =>
    have hassign : dmemAssignment line = none := by
      unfold dmemAssignment
      rw [hdmem]
      rfl
    constructor
    · intro h
      obtain ⟨groups, hgroups, h⟩ := Option.bind_eq_some_iff.mp h
      obtain ⟨⟨r, value⟩, hints, hinit⟩ := Option.bind_eq_some_iff.mp h
      exact Or.inr ⟨r, value, Option.bind_eq_some_iff.mpr ⟨groups, hgroups, hints⟩, hinit⟩
    · intro h
      rcases h with ⟨a, value, hints, -⟩ | ⟨r, value, hreg, hinit⟩
      · rw [hassign] at hints
        exact absurd hints (by simp)
      · obtain ⟨groups, hgroups, hints⟩ := Option.bind_eq_some_iff.mp hreg
        exact Option.bind_eq_some_iff.mpr
          ⟨groups, hgroups, Option.bind_eq_some_iff.mpr ⟨(r, value), hints, hinit⟩⟩

end ExpectedUpdate

/-! ### The machine's state -/

/-- The lines for which the range checks are enough: no data memory word gets the value
`2 ^ 32`, and the expected updates name no register above 31. -/
theorem acceptsOnlyMachineState_iff (dmemDepth : Int) (line : List Char) :
    AcceptsOnlyMachineState dmemDepth line ↔
      (∀ a, dmemAssignment line = some (a, 2 ^ 32) → ¬ (0 ≤ a ∧ a < dmemDepth)) ∧
      (∀ r value, registerAssignment line = some (r, value) → Is32Bit value →
        ¬ (31 < r ∧ r < dmemDepth)) := by
  constructor
  · intro h
    refine ⟨fun a hassign ha => ?_, fun r value hassign hvalue hr => ?_⟩
    · -- the dictionary takes the word
      rcases DmemState.tryAdd_cases dmemDepth ∅ line with ⟨a', value, -, -, hadd⟩ | ⟨hnot, -⟩
      · obtain ⟨a'', value', hassign', -, -, hvalue⟩ := h.dmem ∅ (by rw [hadd])
        rw [hassign] at hassign'
        obtain ⟨-, rfl⟩ := Prod.mk.inj (Option.some.inj hassign')
        exact absurd hvalue.2 (by decide)
      · exact hnot a (2 ^ 32) hassign ⟨ha, by decide, le_refl _⟩
    · -- the constructor takes the register for an address
      have hinit : ExpectedUpdate.init false r value dmemDepth
          = some ⟨false, r, value, Nat.clog 2 dmemDepth.toNat⟩ :=
        ExpectedUpdate.init_eq_some_iff.mpr ⟨⟨by omega, by omega⟩, hvalue, rfl⟩
      have hline := ExpectedUpdate.fromLine_eq_some_iff.mpr (Or.inr ⟨r, value, hassign, hinit⟩)
      have hlast := ((h.expected _ hline).2.2 rfl).2.2
      exact absurd hlast (by dsimp only; omega)
  · intro h
    refine ⟨fun regs hacc => ?_, fun regs hrej => ?_, fun words hacc => ?_, fun words hrej => ?_,
      fun u hu => ?_⟩
    · rcases RegisterState.tryAdd_cases regs line with ⟨r, value, hassign, ⟨hr, hv⟩, -⟩ | ⟨-, hadd⟩
      · exact ⟨r, value, hassign, by omega, hr.2, hv⟩
      · rw [hadd] at hacc
        exact absurd hacc Bool.false_ne_true
    · rcases RegisterState.tryAdd_cases regs line with ⟨r, value, -, -, hadd⟩ | ⟨-, hadd⟩
      · rw [hadd] at hrej
        exact absurd hrej.symm Bool.false_ne_true
      · rw [hadd]
    · rcases DmemState.tryAdd_cases dmemDepth words line with
        ⟨a, value, hassign, ⟨ha, hv⟩, -⟩ | ⟨-, hadd⟩
      · refine ⟨a, value, hassign, ha.1, ha.2, hv.1, ?_⟩
        -- only the one value above the range passes the check
        have hne : value ≠ 2 ^ 32 := by
          rintro rfl
          exact h.1 a hassign ha
        omega
      · rw [hadd] at hacc
        exact absurd hacc Bool.false_ne_true
    · rcases DmemState.tryAdd_cases dmemDepth words line with ⟨a, value, -, -, hadd⟩ | ⟨-, hadd⟩
      · rw [hadd] at hrej
        exact absurd hrej.symm Bool.false_ne_true
      · rw [hadd]
    · -- The constructor checks the value and compares either kind of address with the depth.
      rcases ExpectedUpdate.fromLine_eq_some_iff.mp hu with
        ⟨a, value, hassign, hinit⟩ | ⟨r, value, hassign, hinit⟩
      · obtain ⟨ha, hv, rfl⟩ := ExpectedUpdate.init_eq_some_iff.mp hinit
        refine ⟨hv, fun _ => ⟨hassign, ha.1, ?_⟩, fun hreg => absurd hreg (by simp)⟩
        dsimp only
        omega
      · obtain ⟨hr, hv, rfl⟩ := ExpectedUpdate.init_eq_some_iff.mp hinit
        have hlast := h.2 r value hassign hv
        refine ⟨hv, fun hdmem => absurd hdmem (by simp), fun _ => ⟨hassign, hr.1, ?_⟩⟩
        dsimp only
        omega

/-- Two lines that get in. -/
theorem not_acceptsOnlyMachineState :
    (DmemState.tryAdd 1024 ∅ "dmem_word[0] = 4294967296".toList).2 = true ∧
      ExpectedUpdate.fromLine "r32 = 0".toList 1024 = some ⟨false, 32, 0, 10⟩ ∧
      ¬ ∀ (dmemDepth : Int) (line : List Char), AcceptsOnlyMachineState dmemDepth line := by
  have hdmem : (DmemState.tryAdd 1024 ∅ "dmem_word[0] = 4294967296".toList).2 = true := by
    decide +kernel
  have hupdate : ExpectedUpdate.fromLine "r32 = 0".toList 1024 = some ⟨false, 32, 0, 10⟩ := by
    decide +kernel
  refine ⟨hdmem, hupdate, fun h => ?_⟩
  have hlast := (((h 1024 "r32 = 0".toList).expected _ hupdate).2.2 rfl).2.2
  exact absurd hlast (by decide)

end VivadoTest.Generator
