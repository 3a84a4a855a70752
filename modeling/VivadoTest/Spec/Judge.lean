import VivadoTest.Framework.Util
import Mathlib.Data.Multiset.Range
import Mathlib.Data.Multiset.MapFold

/-!
# `VivadoTest.Spec.Judge`: what a test monitor is for

The abstract monitor. It sees one `Activity` per clock cycle: whether the processor was
enabled and which state updates it made. It keeps its `Progress` through a list of
expected updates and, in each cycle, either goes on or gives a verdict (`judge`). There
are no ports, no check chain, no RAM latency and no pipeline register here: the updates of
a cycle are one multiset, compared with as many entries of the list.

Positions in the list are 9-bit addresses, so the abstract monitor wraps where the
hardware does. `VivadoTest.Spec.Trace` removes the positions.

## A cycle

`judge` decides in the order of the source: the full idle wait comes first, then the timeout while
the list is open, then updates of a disabled processor, updates behind the end of the list, updates
that are not the next entries, and last a group of updates that runs past the end. A verdict
carries the progress and the activity of its cycle, because the report of the hardware depends on
them. A pending judgement carries the progress behind the cycle.

The list is a function on addresses and `n` is its length, so entries past the end exist, as they
do in the RAM.
-/

set_option autoImplicit false

namespace VivadoTest.Spec

open VivadoTest.Framework

variable {N : Nat}

/-- The ports whose bit in `m` is set. -/
def ports (m : PortMask N) : Finset (Fin (N + 1)) := Finset.univ.filter (fun i => m i = true)

/-- A port is among `ports m` exactly when its bit is set. -/
@[simp] theorem mem_ports {m : PortMask N} {i : Fin (N + 1)} : i ∈ ports m ↔ m i = true := by
  simp [ports]

/-- There is such a port exactly when some bit is set. -/
theorem ports_nonempty {m : PortMask N} : (ports m).Nonempty ↔ ∃ i, m i = true := by
  simp [Finset.Nonempty]

/-- There are at most `N + 1` of them: the register file's ports and data memory's. -/
theorem card_ports_le (m : PortMask N) : (ports m).card ≤ N + 1 := by
  simpa using Finset.card_le_univ (ports m)

/-- What the processor does in one clock cycle, as far as a test can see it. -/
structure Activity (N : Nat) where
  procEnable : Bool
  updates : UpdateArray N
  updateWes : PortMask N

namespace Activity

variable (a : Activity N)

/-- A cycle in which the processor shows `p`. -/
def ofProc (procEnable : Bool) (p : ProcOut N) : Activity N :=
  ⟨procEnable, p.updates, p.updateWes⟩

/-- The number of updates made in the cycle. -/
def count : Nat := (ports a.updateWes).card

/-- The updates made in the cycle. -/
def group : Multiset ExpectedStateUpdate := (ports a.updateWes).val.map a.updates

/-- A cycle makes at most `N + 1` updates. -/
theorem count_le : a.count ≤ N + 1 := card_ports_le a.updateWes

/-- The multiset of a cycle's updates has as many elements as there are updates. -/
@[simp] theorem card_group : Multiset.card a.group = a.count := by
  simp [group, count]

/-- A cycle without updates has the empty group. -/
theorem group_eq_zero_iff : a.group = 0 ↔ a.count = 0 := by
  rw [← card_group, Multiset.card_eq_zero]

/-- The updates that a processor makes: the data memory update, then those of the register
write ports. -/
theorem group_ofProc (en : Bool) (p : ProcOut N) :
    (ofProc en p).group =
      (if p.dmemWriteEnable then {⟨.dmemUpdate, p.dmemAddress, p.dmemData⟩} else 0) +
      ((Finset.univ.filter fun i => (p.writePorts i).we = true).val.map fun i =>
        (⟨.regfileUpdate, regUpdateAddr (p.writePorts i).dst, (p.writePorts i).value⟩ :
          ExpectedStateUpdate)) := by
  show (ports p.updateWes).val.map p.updates = _
  have hports : (ports p.updateWes).val =
      (if p.dmemWriteEnable then {0} else 0) +
        ((Finset.univ.filter fun i => (p.writePorts i).we = true).val.map Fin.succ) := by
    unfold ports
    rw [Fin.univ_succ, Finset.filter_cons]
    cases hd : p.dmemWriteEnable <;> simp [ProcOut.updateWes, hd, Finset.filter_map]
  rw [hports, Multiset.map_add, Multiset.map_map]
  cases p.dmemWriteEnable <;> rfl

end Activity

/-- The `k` entries of the list from address `pos` on, as a multiset. -/
def entries (expected : BitVec 9 → ExpectedStateUpdate) (pos : BitVec 9) (k : Nat) :
    Multiset ExpectedStateUpdate :=
  (Multiset.range k).map fun i => expected (pos + BitVec.ofNat 9 i)

/-- No entries of the list are no updates. -/
@[simp] theorem entries_zero (expected : BitVec 9 → ExpectedStateUpdate) (pos : BitVec 9) :
    entries expected pos 0 = 0 := rfl

/-- How far a test has come: the next entry, whether the list has been completed in an
earlier cycle, the enabled cycles so far, and those of them after the completion. -/
structure Progress where
  pos : BitVec 9
  listDone : Bool
  cycles : Nat
  idle : Nat
  deriving DecidableEq

/-- The state of the abstract monitor: still pending, or a verdict together with the
progress before the cycle that gave it and the activity of that cycle. -/
inductive Judgement (N : Nat)
  | pending (p : Progress)
  | decided (status : TestStatus) (p : Progress) (a : Activity N)

/-- The status that a judgement amounts to. -/
def Judgement.status : Judgement N → TestStatus
  | .pending _ => .notDone
  | .decided st _ _ => st

/-- A judgement with a verdict has been decided in some cycle, with the progress and the activity
of that cycle. -/
theorem Judgement.status_eq {j : Judgement N} {st : TestStatus} (hst : st ≠ .notDone)
    (h : j.status = st) : ∃ p a, j = .decided st p a := by
  cases j with
  | pending p => exact absurd h.symm hst
  | decided st' p a => exact ⟨p, a, by rw [show st' = st from h]⟩

section
variable (expected : BitVec 9 → ExpectedStateUpdate) (n : BitVec 9) (T : Nat)

/-- The progress after a cycle that gives no verdict. -/
def Progress.advance (p : Progress) (a : Activity N) : Progress where
  pos := p.pos + BitVec.ofNat 9 a.count
  listDone := p.listDone || decide (n ≤ p.pos + BitVec.ofNat 9 a.count)
  cycles := p.cycles + a.procEnable.toNat
  idle := p.idle + (p.listDone && a.procEnable).toNat

/-- One cycle of the abstract monitor, in the order in which the verdicts take
precedence. -/
def judge (p : Progress) (a : Activity N) : Judgement N :=
  if p.idle ≥ 100 then .decided .success p a
  else if p.cycles > T ∧ p.listDone = false then .decided .timeout p a
  else if a.count ≠ 0 ∧ a.procEnable = false then .decided .updateWhileDisabled p a
  else if a.count ≠ 0 ∧ p.listDone = true then .decided .extraUpdate p a
  else if a.group ≠ entries expected p.pos a.count then .decided .incorrectUpdate p a
  else if p.pos + BitVec.ofNat 9 a.count > n then .decided .extraUpdate p a
  else .pending (p.advance n a)

/-- A cycle without a verdict: the idle wait is not over, the timeout has not passed (or no
longer counts), updates come only from an enabled processor before the completion, and they
are the next entries of the list, without going past its end. -/
theorem judge_eq_pending_iff {p p' : Progress} {a : Activity N} :
    judge expected n T p a = .pending p' ↔
      p.idle < 100 ∧ (p.listDone = true ∨ p.cycles ≤ T) ∧
      (a.count = 0 ∨ a.procEnable = true ∧ p.listDone = false) ∧
      a.group = entries expected p.pos a.count ∧
      p.pos + BitVec.ofNat 9 a.count ≤ n ∧ p' = p.advance n a := by
  unfold judge
  by_cases hidle : p.idle ≥ 100
  · simp [hidle, not_lt.mpr hidle]
  by_cases htime : p.cycles > T ∧ p.listDone = false
  · simp [hidle, htime, not_le.mpr htime.1]
  have htime' : p.listDone = true ∨ p.cycles ≤ T := by
    rcases Bool.eq_false_or_eq_true p.listDone with hd | hd
    · exact Or.inl hd
    · exact Or.inr (not_lt.mp fun h => htime ⟨h, hd⟩)
  rw [if_neg hidle, if_neg htime]
  -- The two checks on where an update may come at all.
  by_cases hdis : a.count ≠ 0 ∧ a.procEnable = false
  · simp [hdis]
  rw [if_neg hdis]
  by_cases hdone : a.count ≠ 0 ∧ p.listDone = true
  · simp [hdone]
  have hupd : a.count = 0 ∨ a.procEnable = true ∧ p.listDone = false := by
    rcases Nat.eq_zero_or_pos a.count with hc | hc
    · exact Or.inl hc
    · simp only [Nat.pos_iff_ne_zero.mp hc, ne_eq, not_false_eq_true, true_and,
        Bool.not_eq_false, Bool.not_eq_true] at hdis hdone
      exact Or.inr ⟨hdis, hdone⟩
  rw [if_neg hdone]
  -- The comparison with the list, and the step past its end.
  by_cases hgroup : a.group = entries expected p.pos a.count
  · rw [if_neg (not_not.mpr hgroup)]
    by_cases hnext : p.pos + BitVec.ofNat 9 a.count > n
    · rw [if_pos hnext]
      simp [BitVec.not_le.mpr hnext]
    · rw [if_neg hnext]
      have hle : p.pos + BitVec.ofNat 9 a.count ≤ n := BitVec.not_lt.mp hnext
      constructor
      · intro h
        cases h
        exact ⟨not_le.mp hidle, htime', hupd, hgroup, hle, rfl⟩
      · rintro ⟨-, -, -, -, -, rfl⟩
        rfl
  · simp [hgroup]

/-- A verdict records the cycle it was given in, and is a verdict. -/
theorem judge_decided {p p' : Progress} {a a' : Activity N} {st : TestStatus}
    (h : judge expected n T p a = .decided st p' a') :
    p' = p ∧ a' = a ∧ st ≠ .notDone := by
  unfold judge at h
  split_ifs at h <;> cases h <;> exact ⟨rfl, rfl, by decide⟩

/-- The verdict `success` comes exactly when the idle wait is over. -/
theorem judge_eq_success_iff {p p' : Progress} {a a' : Activity N} :
    judge expected n T p a = .decided .success p' a' ↔ p.idle ≥ 100 ∧ p' = p ∧ a' = a := by
  constructor
  · intro h
    obtain ⟨hp, ha, -⟩ := judge_decided expected n T h
    refine ⟨?_, hp, ha⟩
    by_contra hidle
    unfold judge at h
    rw [if_neg hidle] at h
    split_ifs at h <;> cases h
  · rintro ⟨hidle, rfl, rfl⟩
    unfold judge
    rw [if_pos hidle]

/-- The verdict `incorrectUpdate` comes in time, from an enabled processor, before the list is
complete, for updates that are not the next entries. -/
theorem of_judge_eq_incorrectUpdate {p p' : Progress} {a a' : Activity N}
    (h : judge expected n T p a = .decided .incorrectUpdate p' a') :
    a.procEnable = true ∧ p.listDone = false ∧ p.cycles ≤ T ∧
      a.group ≠ entries expected p.pos a.count := by
  have hgroup : a.group ≠ entries expected p.pos a.count := by
    intro hgroup
    unfold judge at h
    rw [if_neg (not_not.mpr hgroup)] at h
    split_ifs at h <;> cases h
  have hcount : a.count ≠ 0 := by
    intro hcount
    rw [hcount, a.group_eq_zero_iff.mpr hcount] at hgroup
    exact hgroup rfl
  unfold judge at h
  split_ifs at h with hidle htime hdis hdone <;> cases h
  have hlist : p.listDone = false := by
    rw [← Bool.not_eq_true]
    exact fun hd => hdone ⟨hcount, hd⟩
  refine ⟨?_, hlist, not_lt.mp fun hlt => htime ⟨hlt, hlist⟩, hgroup⟩
  rw [← Bool.not_eq_false]
  exact fun he => hdis ⟨hcount, he⟩

/-- The list is open after more than `T` cycles: the verdict is the timeout, whatever the cycle
does. -/
theorem judge_eq_timeout {p : Progress} {a : Activity N} (hidle : p.idle < 100)
    (htime : T < p.cycles) (hlist : p.listDone = false) :
    judge expected n T p a = .decided .timeout p a := by
  unfold judge
  rw [if_neg (not_le.mpr hidle), if_pos ⟨htime, hlist⟩]

/-- In time and with the list open, an enabled cycle whose updates are not the next entries gives
the verdict of an incorrect update. -/
theorem judge_eq_incorrectUpdate {p : Progress} {a : Activity N} (hidle : p.idle < 100)
    (hen : a.procEnable = true) (hlist : p.listDone = false) (htime : p.cycles ≤ T)
    (hgroup : a.group ≠ entries expected p.pos a.count) :
    judge expected n T p a = .decided .incorrectUpdate p a := by
  unfold judge
  rw [if_neg (not_le.mpr hidle), if_neg (fun h => absurd h.1 (not_lt.mpr htime)),
    if_neg (fun h => absurd h.2 (by simp [hen])), if_neg (fun h => absurd h.2 (by simp [hlist])),
    if_pos hgroup]

/-- A verdict is final. -/
def Judgement.next (j : Judgement N) (a : Activity N) : Judgement N :=
  match j with
  | .pending p => judge expected n T p a
  | .decided .. => j

/-- Before the first cycle the empty list is already complete. -/
def Progress.start : Progress := ⟨0, decide (n = 0), 0, 0⟩

end

end VivadoTest.Spec
