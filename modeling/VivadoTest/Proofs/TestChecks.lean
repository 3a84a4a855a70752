import VivadoTest.Framework.TestChecks
import VivadoTest.Lib.GreedyMatch
import VivadoTest.Spec.Judge
import Mathlib.Data.Fintype.Fin

/-!
# `VivadoTest.Proofs.TestChecks`: the check chain is greedy matching

One `expectedUpdateCheck` is one `GreedyMatch.consume` on the set of active ports, so the
chain of `TestChecks` runs `GreedyMatch.remaining`: check `i` is active when ports remain
before the expected entry `i`, and it is unmatched when that entry fails. The three facts
the test monitor uses follow.

* `anyUnexpectedUpdate_eq_false_iff`: no check is unmatched exactly when the enabled
  updates are, as a multiset, the first expected entries.
* `isCheckActive_iff_lt`: then the active checks are the first ones, one for each enabled
  update.
* `firstUnmatched_eq`: otherwise the reported pair is the first entry that fails and the
  lowest port that was left before it.

## The signals of one check

Each signal of `ExpectedUpdateCheck` is read as a statement about the set of active ports
(`ports`): `is_matching_actual` are the hits of the expected update among them,
`is_first_matching_actual` the least of these, and what is passed on is the set without it
(`ports_after_check`). The chain is then an induction on the number of the check, and all three
facts are facts of `VivadoTest.Lib.GreedyMatch` about the set that is left.
-/

set_option autoImplicit false

namespace VivadoTest.Framework

open VivadoTest.Lib
open VivadoTest.Lib.GreedyMatch
open VivadoTest.Spec

variable {N : Nat}

/-- The reductions start from port `0` and add every port, port `0` again included. -/
theorem fold_last_iff (m : PortMask N) :
    Fin.induction (motive := fun _ => Bool) (m 0) (fun i acc => acc || m i) (Fin.last (N + 1))
        = true ↔ (ports m).Nonempty := by
  rw [orChain_last, ports_nonempty]
  exact ⟨fun h => h.elim (fun h0 => ⟨0, h0⟩) id, Or.inr⟩

/-- The reductions of `TestChecks` start from port `0` and add the ports above it. -/
theorem fold_succ_last_iff (m : PortMask N) :
    Fin.induction (motive := fun _ => Bool) (m 0) (fun i acc => acc || m i.succ) (Fin.last N)
        = true ↔ (ports m).Nonempty := by
  rw [orChain_last, ports_nonempty, Fin.exists_fin_succ]

/-! ### One check -/

namespace ExpectedUpdateCheckIn

variable (input : ExpectedUpdateCheckIn N)

/-- The signal says whether a port is active. -/
theorem anyActiveActual_iff :
    input.anyActiveActual = true ↔ (ports input.isActiveActual).Nonempty :=
  fold_last_iff input.isActiveActual

/-- The matching ports are the hits of the expected update among the active ports. -/
theorem ports_isMatchingActual :
    ports input.isMatchingActual
      = hits (ports input.isActiveActual) input.actual input.expected := by
  ext i
  rw [mem_hits, mem_ports, mem_ports]
  unfold isMatchingActual
  by_cases h : input.actual i = input.expected
  · simp [h]
  · simp [h]

/-- The signal says that no active port has the expected update. -/
theorem noMatchingActual_iff :
    input.noMatchingActual = true
      ↔ hits (ports input.isActiveActual) input.actual input.expected = ∅ := by
  rw [← ports_isMatchingActual, ← Finset.not_nonempty_iff_eq_empty, ← fold_last_iff]
  show (!input.isMatchingActualFold (Fin.last (N + 1))) = true ↔ _
  unfold isMatchingActualFold
  simp

/-- A port is matched by one of the entries before the position `k`. -/
theorem isAlreadyMatched_iff (k : Fin (N + 2)) :
    input.isAlreadyMatched k = true
      ↔ ∃ i : Fin (N + 1), i.castSucc < k ∧ input.isMatchingActual i = true := by
  induction k using Fin.induction with
  | zero => simp [isAlreadyMatched]
  | succ k ih =>
    have hstep : input.isAlreadyMatched k.succ
        = ((input.isMatchingActual k && !input.isAlreadyMatched k.castSucc)
            || input.isAlreadyMatched k.castSucc) := rfl
    rw [hstep]
    constructor
    · intro h
      by_cases hprev : input.isAlreadyMatched k.castSucc = true
      · obtain ⟨i, hi, hm⟩ := ih.mp hprev
        exact ⟨i, lt_trans hi k.castSucc_lt_succ, hm⟩
      · have hm : input.isMatchingActual k = true := by simpa [hprev] using h
        exact ⟨k, k.castSucc_lt_succ, hm⟩
    · rintro ⟨i, hi, hm⟩
      rcases lt_or_eq_of_le (Fin.castSucc_lt_succ_iff.mp hi) with hlt | rfl
      · have hprev := ih.mpr ⟨i, Fin.castSucc_lt_castSucc_iff.mpr hlt, hm⟩
        simp [hprev]
      · simp [hm]

/-- The first matching port is the least hit. -/
theorem isFirstMatchingActual_iff
    (h : (hits (ports input.isActiveActual) input.actual input.expected).Nonempty)
    (i : Fin (N + 1)) :
    input.isFirstMatchingActual i = true
      ↔ i = (hits (ports input.isActiveActual) input.actual input.expected).min' h := by
  have hmem : ∀ j, input.isMatchingActual j = true
      ↔ j ∈ hits (ports input.isActiveActual) input.actual input.expected := by
    intro j
    rw [← ports_isMatchingActual, mem_ports]
  unfold isFirstMatchingActual
  rw [Bool.and_eq_true, Bool.not_eq_true', ← Bool.not_eq_true, isAlreadyMatched_iff, hmem]
  constructor
  · rintro ⟨hi, hnone⟩
    refine le_antisymm ?_ (Finset.min'_le _ i hi)
    by_contra hlt
    exact hnone ⟨_, Fin.castSucc_lt_castSucc_iff.mpr (not_le.mp hlt),
      (hmem _).mpr (Finset.min'_mem _ h)⟩
  · rintro rfl
    refine ⟨Finset.min'_mem _ h, ?_⟩
    rintro ⟨j, hj, hm⟩
    exact absurd (Finset.min'_le _ j ((hmem j).mp hm))
      (not_le.mpr (Fin.castSucc_lt_castSucc_iff.mp hj))

/-- The ports that stay active after a check are the ones greedy matching leaves. -/
theorem ports_after_check :
    ports (fun i => input.updateWes i && !(expectedUpdateCheck input).disabledActuals i)
      = consume (ports input.isActiveActual) input.actual input.expected := by
  rcases (hits (ports input.isActiveActual) input.actual input.expected).eq_empty_or_nonempty
    with hnone | hhit
  · -- Nothing matches, so the check disables no further port.
    rw [consume_of_hits_eq_empty hnone]
    have hfirst : ∀ i, input.isFirstMatchingActual i = false := by
      intro i
      have hi : i ∉ ports input.isMatchingActual := by
        rw [ports_isMatchingActual, hnone]
        exact Finset.notMem_empty i
      rw [mem_ports, Bool.not_eq_true] at hi
      simp [isFirstMatchingActual, hi]
    ext i
    simp [expectedUpdateCheck, isActiveActual, hfirst]
  · rw [consume, dif_pos hhit]
    ext i
    rw [mem_ports, Finset.mem_erase, mem_ports]
    show (input.updateWes i
        && !(input.disabledActuals i || input.isFirstMatchingActual i)) = true ↔ _
    rw [ne_eq, ← isFirstMatchingActual_iff input hhit i]
    unfold isActiveActual
    cases input.isFirstMatchingActual i <;> simp

/-- The update a failing check reports is the one on its lowest active port. -/
theorem badActual_eq (h : (ports input.isActiveActual).Nonempty) :
    input.badActual = input.actual ((ports input.isActiveActual).min' h) := by
  have hmin : ∀ i < (ports input.isActiveActual).min' h, input.isActiveActual i = false := by
    intro i hi
    by_contra hact
    have hmem : i ∈ ports input.isActiveActual := by
      rw [mem_ports]
      simpa using hact
    exact absurd (Finset.min'_le _ i hmem) (not_le.mpr hi)
  have hact : input.isActiveActual ((ports input.isActiveActual).min' h) = true :=
    mem_ports.mp (Finset.min'_mem _ h)
  generalize (ports input.isActiveActual).min' h = k at hmin hact
  unfold badActual
  cases k using Fin.lastCases with
  | last =>
    exact foldl_reverse_finRange_none _ _ _ fun i => hmin _ (Fin.castSucc_lt_last i)
  | cast k =>
    exact foldl_reverse_finRange (fun i => input.isActiveActual i.castSucc)
      (fun i => input.actual i.castSucc) _ k hact
      fun i hi => hmin _ (Fin.castSucc_lt_castSucc_iff.mpr hi)

end ExpectedUpdateCheckIn

/-! ### The chain -/

namespace TestChecksIn

variable (input : TestChecksIn N)

/-- The expected entries as a sequence; the checks read its first `N + 1` elements. -/
def entry (k : Nat) : ExpectedStateUpdate := input.expected (Fin.ofNat (N + 1) k)

/-- The entry at the number of a port. -/
@[simp] theorem entry_val (i : Fin (N + 1)) : input.entry i.val = input.expected i := by
  simp [entry]

/-- Before check `i` the active ports are the ones greedy matching has left. -/
theorem ports_remaining (k : Fin (N + 2)) :
    ports (fun i => input.updateWes i && !(input.expectedUpdateChecksOut k).disabledActuals i)
      = remaining (ports input.updateWes) input.actual input.entry k.val := by
  induction k using Fin.induction with
  | zero =>
    ext i
    simp [expectedUpdateChecksOut, remaining]
  | succ k ih =>
    have hstep := ExpectedUpdateCheckIn.ports_after_check
      (input.checkIn k (input.expectedUpdateChecksOut k.castSucc))
    rw [Fin.val_succ, remaining, ← Fin.val_castSucc, ← ih, Fin.val_castSucc, entry_val]
    exact hstep

/-- Check `i` is active when ports remain before the expected entry `i`. -/
theorem isCheckActive_iff (i : Fin (N + 1)) :
    (input.expectedUpdateChecksOut i.succ).isCheckActive = true
      ↔ (remaining (ports input.updateWes) input.actual input.entry i.val).Nonempty := by
  rw [← Fin.val_castSucc, ← ports_remaining]
  exact ExpectedUpdateCheckIn.anyActiveActual_iff _

/-- Check `i` is unmatched when the expected entry `i` fails in the greedy matching. -/
theorem isExpectedUnmatched_iff (i : Fin (N + 1)) :
    (input.expectedUpdateChecksOut i.succ).isExpectedUnmatched = true
      ↔ FailsAt (ports input.updateWes) input.actual input.entry i.val := by
  unfold FailsAt
  rw [← Fin.val_castSucc, ← ports_remaining, Fin.val_castSucc, entry_val,
    show (input.expectedUpdateChecksOut i.succ).isExpectedUnmatched
      = ((input.checkIn i (input.expectedUpdateChecksOut i.castSucc)).anyActiveActual
        && (input.checkIn i (input.expectedUpdateChecksOut i.castSucc)).noMatchingActual) from rfl,
    Bool.and_eq_true, ExpectedUpdateCheckIn.anyActiveActual_iff,
    ExpectedUpdateCheckIn.noMatchingActual_iff]
  rfl

/-- The signal says whether a port writes. -/
theorem anyUpdate_iff : input.anyUpdate = true ↔ (ports input.updateWes).Nonempty :=
  fold_succ_last_iff input.updateWes

/-- The signal says that the greedy match fails at some position that is checked. -/
theorem anyUnexpectedUpdate_iff :
    input.anyUnexpectedUpdate = true
      ↔ ∃ i < N + 1, FailsAt (ports input.updateWes) input.actual input.entry i := by
  show input.unmatchedExpectedFold (Fin.last N) = true ↔ _
  unfold unmatchedExpectedFold
  rw [fold_succ_last_iff, ports_nonempty]
  constructor
  · rintro ⟨i, hi⟩
    exact ⟨i.val, i.isLt, (input.isExpectedUnmatched_iff i).mp hi⟩
  · rintro ⟨i, hi, hf⟩
    exact ⟨⟨i, hi⟩, (input.isExpectedUnmatched_iff ⟨i, hi⟩).mpr hf⟩

/-- No check is unmatched exactly when the enabled updates are, as a multiset, the first
expected entries. -/
theorem anyUnexpectedUpdate_eq_false_iff :
    input.anyUnexpectedUpdate = false
      ↔ (ports input.updateWes).val.map input.actual
          = (Multiset.range (ports input.updateWes).card).map input.entry := by
  rw [← not_failsAt_iff (card_ports_le input.updateWes), ← Bool.not_eq_true,
    anyUnexpectedUpdate_iff]
  simp

/-- When nothing is unmatched, the active checks are a run of ones, one for each enabled
update. -/
theorem isCheckActive_iff_lt (h : input.anyUnexpectedUpdate = false) (i : Fin (N + 1)) :
    (input.expectedUpdateChecksOut i.succ).isCheckActive = true
      ↔ i.val < (ports input.updateWes).card := by
  have hnone : ∀ k < N + 1, ¬ FailsAt (ports input.updateWes) input.actual input.entry k := by
    rw [← Bool.not_eq_true, anyUnexpectedUpdate_iff] at h
    simpa using h
  have hcard := card_remaining fun k (hk : k < i.val) => hnone k (lt_trans hk i.isLt)
  rw [isCheckActive_iff, ← Finset.card_pos, hcard]
  omega

/-- The active checks come first. -/
theorem isCheckActive_anti {i j : Fin (N + 1)} (hij : i ≤ j)
    (h : (testChecks input).isCheckActive j = true) :
    (testChecks input).isCheckActive i = true := by
  have hj := (input.isCheckActive_iff j).mp h
  exact (input.isCheckActive_iff i).mpr (hj.mono (remaining_anti _ _ _ hij))

/-- The updates on the enabled ports, and all expected entries. -/
def enabledActuals : List ExpectedStateUpdate :=
  ((List.finRange (N + 1)).filter input.updateWes).map input.actual

/-- The entries that the checks compare, in the order of the checks. -/
def expectedEntries : List ExpectedStateUpdate := List.ofFn input.expected

/-- The updates of the cycle, port by port, as a multiset. -/
theorem coe_enabledActuals :
    (input.enabledActuals : Multiset ExpectedStateUpdate)
      = (ports input.updateWes).val.map input.actual := by
  have hports : (((List.finRange (N + 1)).filter input.updateWes : List (Fin (N + 1))) :
      Multiset (Fin (N + 1))) = (ports input.updateWes).val := by
    simp [ports, Finset.filter_val, Fin.univ_def]
  rw [← hports]
  rfl

/-- There are as many as ports that write. -/
theorem length_enabledActuals : input.enabledActuals.length = (ports input.updateWes).card := by
  have h := congrArg Multiset.card input.coe_enabledActuals
  rwa [Multiset.coe_card, Multiset.card_map] at h

/-- The next entries of the list, as a multiset. -/
theorem coe_take_expectedEntries {k : Nat} (hk : k ≤ N + 1) :
    (input.expectedEntries.take k : Multiset ExpectedStateUpdate)
      = (Multiset.range k).map input.entry := by
  have htake : input.expectedEntries.take k = (List.range k).map input.entry := by
    refine List.ext_getElem (by simp [expectedEntries, hk]) fun i hi hi' => ?_
    have hlt : i < N + 1 := by
      simp [expectedEntries] at hi
      omega
    rw [List.getElem_take, List.getElem_map, List.getElem_range]
    exact (List.getElem_ofFn _).trans (input.entry_val ⟨i, hlt⟩).symm
  rw [htake]
  rfl

/-- No check is unmatched when the enabled updates are the first entries in some order. -/
theorem unmatchedExpected_eq_false_iff :
    (∀ i, input.unmatchedExpected i = false)
      ↔ input.enabledActuals.Perm (input.expectedEntries.take input.enabledActuals.length) := by
  have hfold : input.anyUnexpectedUpdate = false ↔ ∀ i, input.unmatchedExpected i = false := by
    rw [← Bool.not_eq_true]
    show ¬ input.unmatchedExpectedFold (Fin.last N) = true ↔ _
    unfold unmatchedExpectedFold
    rw [fold_succ_last_iff, ports_nonempty]
    simp
  rw [← hfold, anyUnexpectedUpdate_eq_false_iff, ← Multiset.coe_eq_coe, coe_enabledActuals,
    length_enabledActuals, coe_take_expectedEntries _ (card_ports_le _)]

/-- When every entry is matched, nothing is unexpected. -/
theorem anyUnexpectedUpdate_of_forall (h : ∀ i, input.unmatchedExpected i = false) :
    input.anyUnexpectedUpdate = false := by
  rw [← Bool.not_eq_true]
  show ¬ input.unmatchedExpectedFold (Fin.last N) = true
  unfold unmatchedExpectedFold
  rw [fold_succ_last_iff, ports_nonempty]
  simpa using h

/-- Then the active checks are as many as the enabled updates. -/
theorem card_isCheckActive (h : ∀ i, input.unmatchedExpected i = false) :
    (ports (testChecks input).isCheckActive).card = input.enabledActuals.length := by
  have hnone := input.anyUnexpectedUpdate_of_forall h
  have hle := card_ports_le input.updateWes
  have hset : ports (testChecks input).isCheckActive
      = Finset.univ.filter fun i : Fin (N + 1) => i.val < (ports input.updateWes).card := by
    ext i
    rw [mem_ports, Finset.mem_filter, and_iff_right (Finset.mem_univ i)]
    exact input.isCheckActive_iff_lt hnone i
  rw [hset, Fin.card_filter_val_lt, length_enabledActuals]
  omega

/-- The reported pair: the first expected entry that fails, and the update on the lowest
enabled port that no earlier entry has taken. -/
theorem firstUnmatched_eq (j : Fin (N + 1))
    (hj : FailsAt (ports input.updateWes) input.actual input.entry j.val)
    (hmin : ∀ i < j.val, ¬ FailsAt (ports input.updateWes) input.actual input.entry i) :
    input.firstUnmatched
      = (input.expected j,
          input.actual
            ((remaining (ports input.updateWes) input.actual input.entry j.val).min' hj.1)) := by
  have hbad : (input.expectedUpdateChecksOut j.succ).badActual
      = input.actual
          ((remaining (ports input.updateWes) input.actual input.entry j.val).min' hj.1) := by
    have hports := input.ports_remaining j.castSucc
    rw [Fin.val_castSucc] at hports
    have hne : (ports (input.checkIn j
        (input.expectedUpdateChecksOut j.castSucc)).isActiveActual).Nonempty := by
      show (ports (fun i => input.updateWes i
        && !(input.expectedUpdateChecksOut j.castSucc).disabledActuals i)).Nonempty
      rw [hports]
      exact hj.1
    refine (ExpectedUpdateCheckIn.badActual_eq _ hne).trans ?_
    show input.actual _ = _
    congr 1
    congr 1
  have hother : ∀ i < j, (input.expectedUpdateChecksOut i.succ).isExpectedUnmatched = false := by
    intro i hi
    rw [← Bool.not_eq_true, isExpectedUnmatched_iff]
    exact hmin i.val hi
  rw [← hbad]
  have hhit := (input.isExpectedUnmatched_iff j).mpr hj
  unfold firstUnmatched
  cases j using Fin.lastCases with
  | last =>
    -- The last check is the default of the loop.
    exact foldl_reverse_finRange_none
      (fun i : Fin N => (input.expectedUpdateChecksOut i.castSucc.succ).isExpectedUnmatched)
      _ _ fun i => hother i.castSucc (Fin.castSucc_lt_last i)
  | cast j =>
    exact foldl_reverse_finRange
      (fun i : Fin N => (input.expectedUpdateChecksOut i.castSucc.succ).isExpectedUnmatched)
      (fun i => (input.expected i.castSucc,
        (input.expectedUpdateChecksOut i.castSucc.succ).badActual)) _ j hhit
      fun i hi => hother i.castSucc (Fin.castSucc_lt_castSucc_iff.mpr hi)

end TestChecksIn

end VivadoTest.Framework
