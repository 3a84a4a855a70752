import VivadoTest.Framework.Tb
import VivadoTest.Lib.CrossOff
import VivadoTest.Lib.Loops
import VivadoTest.Spec.Trace

/-!
# `VivadoTest.Proofs.TbChecks`: the testbench's comparison of updates

What one call of `check_updates_incorrect` and of `read_current_updates` computes. The array
in which the testbench crosses off matches is a sequence, and its unmatched rest a `slice` of
it.

* `search_spec`: the loop over `j` overwrites every hit with the front.
* `checkUpdatesIncorrect_crossesOff`: the comparison is the algorithm of `CrossesOff`, and what
  the log tells agrees with its answer.
* `checkUpdatesIncorrect_exact_iff`: the inputs on which the answer is right.
* `checkUpdatesIncorrect_spec`: when no two updates of a cycle are equal, the answer is
  `false` exactly if they are the next expected updates in some order.
* `readCurrentUpdates_spec`: the updates read are those the processor makes.

## The exact condition

The loop over `j` does not stop at a hit, so it overwrites every equal entry with the front. On
updates that are pairwise different this is a multiset comparison. On equal updates it may lose
one, and reject a cycle that is right (`checkUpdatesIncorrect_twicePorts`).

`JudgedRightly` says that the answer is the one that the comparison is there for. It is a condition
on the current and on the expected updates, since a second hit does no harm where the lists are no
permutations anyway and an entry is missed: `checkUpdatesIncorrect_exact_iff` has the condition for
each pair of lists, and for the current updates alone, over all lists that may be expected.
-/

set_option autoImplicit false

namespace VivadoTest.Framework.Tb

open VivadoTest.Lib
open VivadoTest.Spec

variable {N : Nat}

/-- An index within the array can be read. -/
theorem readAt_of_lt {length i : Nat} (h : i < length) (a : TbArray) :
    readAt length a i = .ok (a i) := if_pos h

/-- And written. -/
theorem writeAt_of_lt {length i : Nat} (h : i < length) (a : TbArray) (u : ExpectedStateUpdate) :
    writeAt length a i u = .ok (Function.update a i u) := if_pos h

/-! ### The search for one expected update -/

/-- The array after the search for `next` among the indices from `i` to below `j`. -/
def overwriteHits (next : ExpectedStateUpdate) (temp : TbArray) (i j : Nat) : TbArray :=
  fun k => if i ≤ k ∧ k < j ∧ temp k = next then temp i else temp k

/-- The entry at the front is never overwritten by anything else: a hit there is replaced by
itself. -/
theorem overwriteHits_front (next : ExpectedStateUpdate) (temp : TbArray) (i j : Nat) :
    overwriteHits next temp i j i = temp i := by
  unfold overwriteHits
  split <;> rfl

/-- Before the loop nothing is overwritten. -/
theorem overwriteHits_self (next : ExpectedStateUpdate) (temp : TbArray) (i : Nat) :
    overwriteHits next temp i i = temp := by
  funext k
  unfold overwriteHits
  rw [if_neg (by omega)]

/-- One step of the search. -/
theorem overwriteHits_succ (next : ExpectedStateUpdate) (temp : TbArray) {i j : Nat} (hij : i ≤ j) :
    overwriteHits next temp i (j + 1) =
      if next = temp j then Function.update (overwriteHits next temp i j) j (temp i)
      else overwriteHits next temp i j := by
  funext k
  by_cases hk : k = j
  · subst hk
    by_cases hn : next = temp k
    · rw [if_pos hn, Function.update_self]
      unfold overwriteHits
      rw [if_pos ⟨hij, Nat.lt_succ_self k, hn.symm⟩]
    · rw [if_neg hn]
      unfold overwriteHits
      rw [if_neg fun h => hn h.2.2.symm, if_neg fun h => hn h.2.2.symm]
  · have hcond : (i ≤ k ∧ k < j + 1 ∧ temp k = next) ↔ (i ≤ k ∧ k < j ∧ temp k = next) := by
      constructor <;> rintro ⟨h1, h2, h3⟩ <;> exact ⟨h1, by omega, h3⟩
    have hself : overwriteHits next temp i (j + 1) k = overwriteHits next temp i j k := by
      unfold overwriteHits
      rw [if_congr hcond rfl rfl]
    rw [hself]
    split
    · rw [Function.update_of_ne hk]
    · rfl

/-- The loop over `j` finds `next` if it is there, and overwrites every hit. -/
theorem search_spec (next : ExpectedStateUpdate) (temp : TbArray) (sd : ExpectedStateUpdate)
    {i num : Nat} (hi : i ≤ num) (hnum : num ≤ N + 1) :
    ∃ w, (List.range' i (num - i)).foldlM (searchStep N next i) ⟨temp, false, false, sd⟩ = .ok w ∧
      w.tempCurUpdates = overwriteHits next temp i num ∧
      (w.foundExpected = true ↔ ∃ j, i ≤ j ∧ j < num ∧ temp j = next) := by
  -- Invariant: the entries before `j` have been searched, those from `j` on are untouched.
  have hloop := foldlM_range'_invariant (f := searchStep N next i) (a := i) (d := num - i)
    (I := fun j w => w.tempCurUpdates = overwriteHits next temp i j ∧
      (w.foundExpected = true ↔ ∃ l, i ≤ l ∧ l < j ∧ temp l = next))
    (s := ⟨temp, false, false, sd⟩) ?_ ?_
  · rwa [Nat.add_sub_cancel' hi] at hloop
  · rintro j w hij hj ⟨htemp, hfound⟩
    have hjN : j < N + 1 := by omega
    have hcur : w.tempCurUpdates j = temp j := by
      rw [htemp]
      unfold overwriteHits
      rw [if_neg (by omega)]
    have hfront : w.tempCurUpdates i = temp i := by rw [htemp, overwriteHits_front]
    have hsplit : (∃ l, i ≤ l ∧ l < j + 1 ∧ temp l = next)
        ↔ (∃ l, i ≤ l ∧ l < j ∧ temp l = next) ∨ temp j = next := by
      constructor
      · rintro ⟨l, h1, h2, h3⟩
        rcases Nat.lt_succ_iff_lt_or_eq.mp h2 with hlt | rfl
        · exact Or.inl ⟨l, h1, hlt, h3⟩
        · exact Or.inr h3
      · rintro (⟨l, h1, h2, h3⟩ | h)
        · exact ⟨l, h1, by omega, h3⟩
        · exact ⟨j, hij, Nat.lt_succ_self j, h⟩
    unfold searchStep
    simp only [readAt_of_lt hjN, readAt_of_lt (show i < N + 1 by omega), writeAt_of_lt hjN,
      hcur, hfront, bind, Except.bind, pure, Except.pure]
    -- A hit takes the entry at `i` and does not leave the loop.
    by_cases hn : next = temp j
    · refine ⟨_, if_pos hn, ?_, ?_⟩
      · rw [overwriteHits_succ next temp hij, if_pos hn, htemp]
      · rw [hsplit]
        exact ⟨fun _ => Or.inr hn.symm, fun _ => rfl⟩
    · rw [if_neg hn]
      have hstep : w.tempCurUpdates = overwriteHits next temp i (j + 1) ∧
          (w.foundExpected = true ↔ ∃ l, i ≤ l ∧ l < j + 1 ∧ temp l = next) := by
        rw [overwriteHits_succ next temp hij, if_neg hn, hsplit, hfound]
        exact ⟨htemp, ⟨Or.inl, fun h => h.resolve_right fun h => hn h.symm⟩⟩
      split
      · exact ⟨_, rfl, hstep⟩
      · exact ⟨_, rfl, hstep⟩
  · refine ⟨(overwriteHits_self next temp i).symm, ?_⟩
    constructor
    · intro h
      cases h
    · rintro ⟨l, h1, h2, -⟩
      omega

/-- The entries of an array from index `i` on, as a list. -/
def entries (a : TbArray) (i d : Nat) : List ExpectedStateUpdate := (List.range' i d).map a

/-- The entries from an index on, with the first of them taken off. -/
theorem entries_succ (a : TbArray) (i d : Nat) :
    entries a i (d + 1) = a i :: entries a (i + 1) d := by
  unfold entries
  rw [List.range'_succ, List.map_cons]

/-- As many entries as were asked for. -/
theorem length_entries (a : TbArray) (i d : Nat) : (entries a i d).length = d := by
  unfold entries
  rw [List.length_map, List.length_range']

/-- An entry is one at some index of the stretch. -/
theorem mem_entries {a : TbArray} {i d : Nat} {u : ExpectedStateUpdate} :
    u ∈ entries a i d ↔ ∃ j, i ≤ j ∧ j < i + d ∧ a j = u := by
  unfold entries
  rw [List.mem_map]
  constructor
  · rintro ⟨j, hj, rfl⟩
    exact ⟨j, (List.mem_range'_1.mp hj).1, (List.mem_range'_1.mp hj).2, rfl⟩
  · rintro ⟨j, h₁, h₂, rfl⟩
    exact ⟨j, List.mem_range'_1.mpr ⟨h₁, h₂⟩, rfl⟩

/-- As a multiset the entries are the slice that the other modules speak of. -/
theorem coe_entries (a : TbArray) (i d : Nat) :
    (entries a i d : Multiset ExpectedStateUpdate) = slice a i d := by
  unfold entries slice
  rw [List.range'_eq_map_range, List.map_map]
  rfl

/-- A search overwrites the hits behind the front. -/
theorem entries_overwriteHits (next : ExpectedStateUpdate) (temp : TbArray) (i d : Nat) :
    entries (overwriteHits next temp i (i + (d + 1))) (i + 1) d
      = overwrite (temp i) next (entries temp (i + 1) d) := by
  unfold entries overwrite
  rw [List.map_map]
  refine List.map_congr_left fun k hk => ?_
  obtain ⟨hik, hkd⟩ := List.mem_range'_1.mp hk
  have hcond : (i ≤ k ∧ k < i + (d + 1) ∧ temp k = next) ↔ temp k = next :=
    ⟨fun h => h.2.2, fun h => ⟨by omega, by omega, h⟩⟩
  unfold overwriteHits
  rw [if_congr hcond rfl rfl]
  rfl

/-! ### The log -/

/-- The lines that one edge appends to the log: a failure line if and only if `failed`, and
neither the final success line nor a timeout. -/
def Appends (log log' : List LogLine) (failed : Bool) : Prop :=
  ∃ new, log' = log ++ new ∧ (failed = true ↔ ∃ l ∈ new, l.failure = true) ∧
    ∀ l ∈ new, l.message ≠ .testSuccess ∧ l.message ≠ .testTimeout

/-- Nothing appended, and no failure. -/
theorem Appends.refl (log : List LogLine) : Appends log log false :=
  ⟨[], (List.append_nil log).symm, by simp, by simp⟩

/-- A failure line appended. -/
theorem Appends.logFailure {log log' : List LogLine} {failed : Bool} (h : Appends log log' failed)
    (clockCounter : Nat) {m : Message} (hm : m ≠ .testSuccess ∧ m ≠ .testTimeout) :
    Appends log (logFailure clockCounter m log') true := by
  obtain ⟨new, rfl, -, hnew⟩ := h
  refine ⟨new ++ [⟨true, clockCounter, m⟩], List.append_assoc _ _ _, ?_, ?_⟩
  · exact ⟨fun _ => ⟨_, List.mem_append_right new List.mem_cons_self, rfl⟩, fun _ => rfl⟩
  · intro l hl
    rcases List.mem_append.mp hl with hl | hl
    · exact hnew l hl
    · rw [List.mem_singleton.mp hl]
      exact hm

/-- A line of the other kind does not turn a success into a failure. -/
theorem Appends.logSuccess {log log' : List LogLine} {failed : Bool} (h : Appends log log' failed)
    (clockCounter : Nat) {m : Message} (hm : m ≠ .testSuccess ∧ m ≠ .testTimeout) :
    Appends log (logSuccess clockCounter m log') failed := by
  obtain ⟨new, rfl, hfailed, hnew⟩ := h
  refine ⟨new ++ [⟨false, clockCounter, m⟩], List.append_assoc _ _ _, ?_, ?_⟩
  · rw [hfailed]
    simp
  · intro l hl
    rcases List.mem_append.mp hl with hl | hl
    · exact hnew l hl
    · rw [List.mem_singleton.mp hl]
      exact hm

/-- A relation between the log and the failure flag of a cycle that the checks keep: a failure
line sets the flag, and an OK line is only written while the flag is clear. -/
structure LogRule (R : List LogLine → Bool → Prop) : Prop where
  failure : ∀ {log : List LogLine} {failed : Bool} {m : Message} (clockCounter : Nat),
    m ≠ .testSuccess ∧ m ≠ .testTimeout → R log failed → R (logFailure clockCounter m log) true
  success : ∀ {log : List LogLine} {m : Message} (clockCounter : Nat),
    m ≠ .testSuccess ∧ m ≠ .testTimeout → R log false → R (logSuccess clockCounter m log) false

/-- So `Appends` is a rule of the log: both ways of logging keep it. -/
theorem Appends.rule (log : List LogLine) : LogRule (Appends log) :=
  ⟨fun clockCounter hm h => h.logFailure clockCounter hm,
    fun clockCounter hm h => h.logSuccess clockCounter hm⟩

/-! ### The comparison -/

section
variable (g : Generics) (clockCounter : Nat) {num : Nat} (updateI : Nat) (expectedUpdates : TbArray)

/-- One iteration: it succeeds when there is an expected update and it is among those left. -/
theorem checkStep_spec (hnum : num ≤ N + 1) {i : Nat} (hi : i < num) (v : CheckVars) :
    ∃ v', checkStep N g clockCounter num expectedUpdates updateI v i = .ok v' ∧
      (∀ R, LogRule R → R v.log v.anyUpdatesIncorrect → R v'.log v'.anyUpdatesIncorrect) ∧
      (v'.anyUpdatesIncorrect = false ↔ v.anyUpdatesIncorrect = false ∧
        updateI + i < g.NUM_EXPECTED_UPDATES ∧
        ∃ j, i ≤ j ∧ j < num ∧ v.tempCurUpdates j = expectedUpdates (updateI + i)) ∧
      v'.tempCurUpdates =
        if updateI + i < g.NUM_EXPECTED_UPDATES then
          overwriteHits (expectedUpdates (updateI + i)) v.tempCurUpdates i num
        else v.tempCurUpdates := by
  have hiN : i < N + 1 := by omega
  unfold checkStep
  -- No expected update is left for this one.
  by_cases hend : updateI + i ≥ g.NUM_EXPECTED_UPDATES
  · simp only [if_pos hend, readAt_of_lt hiN, bind, Except.bind, pure, Except.pure]
    refine ⟨_, rfl, fun R hR h => hR.failure clockCounter ⟨nofun, nofun⟩ h, ?_, ?_⟩
    · simp [not_lt.mpr hend]
    · rw [if_neg (not_lt.mpr hend)]
  · have hlt : updateI + i < g.NUM_EXPECTED_UPDATES := not_le.mp hend
    obtain ⟨w, hw, htemp, hfound⟩ := search_spec (N := N) (expectedUpdates (updateI + i))
      v.tempCurUpdates v.sameDestUpdate (le_of_lt hi) hnum
    simp only [if_neg hend, readAt_of_lt (Nat.lt_succ_of_lt hlt), readAt_of_lt hiN, hw, bind,
      Except.bind, pure, Except.pure]
    -- The OK line is only written while no update of the cycle has failed.
    cases hf : w.foundExpected with
    | true =>
      refine ⟨_, if_pos rfl, ?_, ?_, ?_⟩
      · intro R hR h
        cases hv : v.anyUpdatesIncorrect with
        | true => rwa [hv] at h
        | false =>
          rw [hv] at h
          exact hR.success clockCounter ⟨nofun, nofun⟩ h
      · exact ⟨fun h => ⟨h, hlt, hfound.mp hf⟩, fun h => h.1⟩
      · rw [if_pos hlt, htemp]
    | false =>
      refine ⟨_, if_neg Bool.false_ne_true, ?_, ?_, ?_⟩
      · exact fun R hR h => hR.failure clockCounter ⟨nofun, nofun⟩ h
      · refine ⟨nofun, fun h => ?_⟩
        have htrue := hfound.mpr h.2.2
        rw [hf] at htrue
        cases htrue
      · rw [if_pos hlt, htemp]

/-- The loop over `i`, from any iteration on: the algorithm of `CrossesOff`. -/
theorem checkLoop_spec (hnum : num ≤ N + 1) {i d : Nat} (hid : i + d = num) (v : CheckVars) :
    ∃ v', (List.range' i d).foldlM
        (checkStep N g clockCounter num expectedUpdates updateI) v = .ok v' ∧
      (∀ R, LogRule R → R v.log v.anyUpdatesIncorrect → R v'.log v'.anyUpdatesIncorrect) ∧
      (v'.anyUpdatesIncorrect = false ↔ v.anyUpdatesIncorrect = false ∧
        (∀ k, i ≤ k → k < num → updateI + k < g.NUM_EXPECTED_UPDATES) ∧
        CrossesOff (entries v.tempCurUpdates i d) (entries expectedUpdates (updateI + i) d)) := by
  induction d generalizing i v with
  | zero =>
    refine ⟨v, rfl, fun _ _ h => h, fun h => ⟨h, fun k hk hkn => by omega, ?_⟩, fun h => h.1⟩
    exact trivial
  | succ d ih =>
    obtain ⟨v₁, hv₁, hlog₁, hany₁, htemp₁⟩ := checkStep_spec g clockCounter
      updateI expectedUpdates hnum (show i < num by omega) v
    obtain ⟨v', hv', hlog', hany'⟩ := ih (i := i + 1) (by omega) v₁
    refine ⟨v', ?_, fun R hR h => hlog' R hR (hlog₁ R hR h), ?_⟩
    · rw [List.range'_succ, List.foldlM_cons, hv₁]
      exact hv'
    · -- the hit of this iteration, and the search among what it leaves
      have hrest : updateI + i < g.NUM_EXPECTED_UPDATES →
          entries v₁.tempCurUpdates (i + 1) d
            = overwrite (v.tempCurUpdates i) (expectedUpdates (updateI + i))
              (entries v.tempCurUpdates (i + 1) d) := by
        intro hlt
        rw [htemp₁, if_pos hlt, ← hid, entries_overwriteHits]
      rw [hany', hany₁, entries_succ expectedUpdates, entries_succ v.tempCurUpdates]
      have hhit : (∃ j, i ≤ j ∧ j < num ∧ v.tempCurUpdates j = expectedUpdates (updateI + i)) ↔
          expectedUpdates (updateI + i)
            ∈ v.tempCurUpdates i :: entries v.tempCurUpdates (i + 1) d := by
        rw [← entries_succ, mem_entries, hid]
      rw [hhit]
      constructor
      · rintro ⟨⟨hv, hlt, hmem⟩, hrange, hcross⟩
        rw [hrest hlt] at hcross
        refine ⟨hv, fun k hk hkn => ?_, hmem, hcross⟩
        cases Nat.eq_or_lt_of_le hk with
        | inl h => rwa [← h]
        | inr h => exact hrange k h hkn
      · rintro ⟨hv, hrange, hmem, hcross⟩
        have hlt := hrange i le_rfl (by omega)
        refine ⟨⟨hv, hlt, hmem⟩, fun k hk hkn => hrange k (by omega) hkn, ?_⟩
        rw [hrest hlt]
        exact hcross

/-- `check_updates_incorrect`: the answer is `false` exactly when there are that many expected
updates left and the algorithm finds them. -/
theorem checkUpdatesIncorrect_crossesOff (hnum : num ≤ N + 1) (currentUpdates : TbArray)
    (log : List LogLine) :
    ∃ b log', checkUpdatesIncorrect N g clockCounter currentUpdates num expectedUpdates updateI log
        = .ok (b, log') ∧
      (∀ R, LogRule R → R log false → R log' b) ∧
      (b = false ↔ (num = 0 ∨ updateI + num ≤ g.NUM_EXPECTED_UPDATES) ∧
        CrossesOff (entries currentUpdates 0 num) (entries expectedUpdates updateI num)) := by
  obtain ⟨v, hv, hlog, hany⟩ := checkLoop_spec g clockCounter
    updateI expectedUpdates hnum (Nat.zero_add num) ⟨currentUpdates, .zero, false, log⟩
  refine ⟨v.anyUpdatesIncorrect, v.log, ?_, hlog, ?_⟩
  · unfold checkUpdatesIncorrect
    rw [hv]
    rfl
  · have hrange : (∀ k, 0 ≤ k → k < num → updateI + k < g.NUM_EXPECTED_UPDATES)
        ↔ num = 0 ∨ updateI + num ≤ g.NUM_EXPECTED_UPDATES := by
      constructor
      · intro h
        by_cases h0 : num = 0
        · exact Or.inl h0
        · have hlast := h (num - 1) (Nat.zero_le _) (by omega)
          omega
      · intro h k _ hk
        omega
    rw [hany, hrange]
    exact ⟨fun h => h.2, fun h => ⟨rfl, h⟩⟩

/-- On a list that the algorithm gets right, the answer is `false` exactly when there are that
many expected updates left and the updates are the next ones in some order. -/
theorem checkUpdatesIncorrect_of_crossable (hnum : num ≤ N + 1) {currentUpdates : TbArray}
    (hempty : num = 0 → updateI ≤ g.NUM_EXPECTED_UPDATES)
    (hcross : updateI + num ≤ g.NUM_EXPECTED_UPDATES → Crossable (entries currentUpdates 0 num))
    (log : List LogLine) :
    ∃ b log', checkUpdatesIncorrect N g clockCounter currentUpdates num expectedUpdates updateI log
        = .ok (b, log') ∧
      (∀ R, LogRule R → R log false → R log' b) ∧
      (b = false ↔ updateI + num ≤ g.NUM_EXPECTED_UPDATES ∧
        (entries currentUpdates 0 num).Perm (entries expectedUpdates updateI num)) := by
  obtain ⟨b, log', hb, hlog, hany⟩ := checkUpdatesIncorrect_crossesOff g clockCounter updateI
    expectedUpdates hnum currentUpdates log
  refine ⟨b, log', hb, hlog, ?_⟩
  rw [hany]
  by_cases hle : updateI + num ≤ g.NUM_EXPECTED_UPDATES
  · rw [(hcross hle).crossesOff_iff (by rw [length_entries, length_entries])]
    exact ⟨fun h => ⟨hle, h.2⟩, fun h => ⟨Or.inr hle, h.2⟩⟩
  · constructor
    · rintro ⟨h0 | h, -⟩
      · have := hempty h0
        omega
      · exact absurd h hle
    · exact fun h => absurd h.1 hle

/-- `check_updates_incorrect` on distinct updates: the answer is `false` exactly when there
are that many expected updates left and the updates are the next ones in some order. -/
theorem checkUpdatesIncorrect_spec (hnum : num ≤ N + 1) (hpos : 0 < num) {currentUpdates : TbArray}
    (hnodup : (slice currentUpdates 0 num).Nodup) (log : List LogLine) :
    ∃ b log', checkUpdatesIncorrect N g clockCounter currentUpdates num expectedUpdates updateI log
        = .ok (b, log') ∧
      Appends log log' b ∧
      (b = false ↔ updateI + num ≤ g.NUM_EXPECTED_UPDATES ∧
        slice currentUpdates 0 num = slice expectedUpdates updateI num) := by
  rw [← coe_entries, Multiset.coe_nodup] at hnodup
  obtain ⟨b, log', hb, hlog, hright⟩ := checkUpdatesIncorrect_of_crossable g clockCounter updateI
    expectedUpdates hnum (fun h => absurd h (by omega)) (fun _ => Or.inl hnodup) log
  refine ⟨b, log', hb, hlog _ (Appends.rule log) (Appends.refl log), ?_⟩
  rw [hright, ← coe_entries, ← coe_entries, Multiset.coe_eq_coe]

end

/-- An update that is read is counted, and it is among the updates of the cycle then. -/
theorem readUpdate_spec {v : TbArray × Nat} (hv : v.2 < N + 1) (update : ExpectedStateUpdate) :
    ∃ v', readUpdate N v update = .ok v' ∧ v'.2 = v.2 + 1 ∧
      slice v'.1 0 v'.2 = slice v.1 0 v.2 + {update} := by
  unfold readUpdate
  simp only [writeAt_of_lt hv, bind, Except.bind, pure, Except.pure]
  refine ⟨_, rfl, rfl, ?_⟩
  have hrest : slice (Function.update v.1 v.2 update) 0 v.2 = slice v.1 0 v.2 :=
    slice_congr_of_mem fun i _ hi => Function.update_of_ne (by omega) _ _
  show slice (Function.update v.1 v.2 update) 0 (v.2 + 1) = _
  rw [slice_succ, hrest, Nat.zero_add, Function.update_self, ← Multiset.singleton_add, add_comm]

/-- The data memory port gives one update when its write enable is high, and none otherwise. -/
theorem readDmemUpdate_spec (currentUpdates : TbArray) (p : ProcOut N) :
    ∃ v, readDmemUpdate currentUpdates p = .ok v ∧ v.2 ≤ 1 ∧
      slice v.1 0 v.2 =
        if p.dmemWriteEnable then {⟨.dmemUpdate, p.dmemAddress, p.dmemData⟩} else 0 := by
  unfold readDmemUpdate
  cases p.dmemWriteEnable with
  | false => exact ⟨_, rfl, Nat.zero_le 1, rfl⟩
  | true =>
    obtain ⟨v, hv, hnum, hslice⟩ := readUpdate_spec (N := N) (v := (currentUpdates, 0))
      (Nat.succ_pos N) ⟨.dmemUpdate, p.dmemAddress, p.dmemData⟩
    exact ⟨v, hv, le_of_eq hnum, by rw [hslice]; rfl⟩

/-- The loop over the register write ports. -/
theorem readPorts_spec (p : ProcOut N) (ports : List (Fin N)) {v : TbArray × Nat}
    (hv : v.2 + ports.length ≤ N + 1) :
    ∃ v', ports.foldlM (readPortUpdate p) v = .ok v' ∧
      v'.2 ≤ v.2 + ports.length ∧
      slice v'.1 0 v'.2 = slice v.1 0 v.2 +
        ((ports.filter fun i => (p.writePorts i).we).map fun i =>
          (⟨.regfileUpdate, regUpdateAddr (p.writePorts i).dst, (p.writePorts i).value⟩ :
            ExpectedStateUpdate) : Multiset ExpectedStateUpdate) := by
  induction ports generalizing v with
  | nil => exact ⟨v, rfl, le_rfl, by simp⟩
  | cons i rest ih =>
    rw [List.length_cons] at hv ⊢
    rw [List.foldlM_cons]
    cases hwe : (p.writePorts i).we with
    | false =>
      obtain ⟨v', hv', hle, hslice⟩ := ih (v := v) (by omega)
      refine ⟨v', ?_, by omega, ?_⟩
      · rw [readPortUpdate, if_neg (by rw [hwe]; exact Bool.false_ne_true)]
        exact hv'
      rw [hslice, List.filter_cons_of_neg (by rw [hwe]; exact Bool.false_ne_true)]
    | true =>
      obtain ⟨v₁, hv₁, hnum₁, hslice₁⟩ := readUpdate_spec (N := N) (v := v) (by omega)
        ⟨.regfileUpdate, regUpdateAddr (p.writePorts i).dst, (p.writePorts i).value⟩
      obtain ⟨v', hv', hle, hslice⟩ := ih (v := v₁) (by omega)
      refine ⟨v', ?_, by omega, ?_⟩
      · rw [readPortUpdate, if_pos hwe, hv₁]
        exact hv'
      · rw [hslice, hslice₁, List.filter_cons_of_pos (by rw [hwe]), List.map_cons,
          ← Multiset.cons_coe,
          ← Multiset.singleton_add, add_assoc]

/-- `read_current_updates` reads the updates that the processor makes. -/
theorem readCurrentUpdates_spec (currentUpdates : TbArray) (en : Bool) (p : ProcOut N) :
    ∃ v, readCurrentUpdates currentUpdates p = .ok v ∧ v.2 = (Activity.ofProc en p).count ∧
      slice v.1 0 v.2 = (Activity.ofProc en p).group := by
  obtain ⟨v₁, hv₁, hnum₁, hslice₁⟩ := readDmemUpdate_spec currentUpdates p
  obtain ⟨v, hv, -, hslice⟩ := readPorts_spec p (List.finRange N) (v := v₁)
    (by rw [List.length_finRange]; omega)
  have hports : (Finset.univ.filter fun i => (p.writePorts i).we = true).val
      = ((List.finRange N).filter fun i => (p.writePorts i).we : Multiset (Fin N)) := by
    show Multiset.filter (fun i => (p.writePorts i).we = true) (List.finRange N) = _
    rw [Multiset.filter_coe]
    simp only [Bool.decide_eq_true]
  have hgroup : slice v.1 0 v.2 = (Activity.ofProc en p).group := by
    rw [hslice, hslice₁, Activity.group_ofProc, hports, Multiset.map_coe]
  refine ⟨v, ?_, ?_, hgroup⟩
  · unfold readCurrentUpdates
    rw [hv₁]
    exact hv
  · rw [← card_slice v.1 0 v.2, hgroup, Activity.card_group]

/-- One data memory update and one register update are distinct. -/
theorem nodup_group (en : Bool) (p : ProcOut 1) : (Activity.ofProc en p).group.Nodup := by
  rw [Activity.group_ofProc]
  have hport : (Finset.univ.filter fun i => (p.writePorts i).we = true)
      = if (p.writePorts 0).we then {0} else ∅ := by
    ext i
    rw [Subsingleton.elim i 0]
    cases hwe : (p.writePorts 0).we <;> simp [hwe]
  rw [hport]
  cases p.dmemWriteEnable <;> cases (p.writePorts 0).we <;> simp

end VivadoTest.Framework.Tb
