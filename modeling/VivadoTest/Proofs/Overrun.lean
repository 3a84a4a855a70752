import VivadoTest.Proofs.Verdict
import Mathlib.Data.Fintype.Fin

/-!
# `VivadoTest.Proofs.Overrun`: too many updates at the capacity limit

The position in the list is a 9-bit sum. A cycle whose updates run past the last address
brings it back to the front, where the test for updates past the end of the list does not
see them.

* `neverPassesOverrun_iff`: no run with more than `n` updates succeeds exactly when the list
  is empty or ends `RF_NUM_WRITE_PORTS` below the RAM depth.
* `overrun_run`: for every other list length, a run that does succeed. Its last entries
  come in one cycle together with the stale entries up to the last address, and the
  processor then makes the whole list once more.

## The run

For a list of `n` entries with less room than the updates of a cycle, `overrunProc` writes zero to
register 0 until the next entry is the last one. Then it makes all updates that the RAM holds from
there to address 511, the stale entries among them, which brings the position to zero; the check
for too many updates compares positions and finds nothing. The processor makes the list once more,
and after the idle wait the status is a success (`judgement_overrun_before`,
`judgement_overrun_burst`, `judgement_overrun_again`, `judgement_overrun_idle`).

With one write port, as the framework has it, a cycle makes up to two updates, and 511 is the one
length of a list at which this happens (`fullList_passes_overrun`).
-/

set_option autoImplicit false

namespace VivadoTest.Framework.TestMonitorState

open VivadoTest.Lib
open VivadoTest.Spec

variable {N : Nat}

/-- No run after a configuration with `n` expected updates succeeds when, in some cycle before
the verdict, the enabled processor has made more than `n` updates. -/
def NeverPassesOverrun (N : Nat) (n : ExpupdAddr) : Prop :=
  ∀ (s : TestMonitorState N), AfterConfiguration s → s.numExpUpdates = n →
    ∀ ins : Nat → TestMonitorIn N, (∀ t, (ins t).NoHostAccess) →
      ∀ v, (trajectory step s ins (v + 1)).testWasDone = false →
        n.toNat < updatesBefore (fun t => (ins t).activity) v →
        ∀ t, (trajectory step s ins t).output.testStatus ≠ 0x01

/-- A cycle before the verdict is one with a pending judgement. -/
theorem Tracks.testWasDone {ram : ExpupdRam} {n : ExpupdAddr} {T : BitVec 16} {j : Judgement N}
    {s : TestMonitorState N} (h : Tracks ram n T j s) :
    s.testWasDone = false ↔ ∃ p, j = .pending p := by
  have hj := h.judged
  cases j with
  | pending p =>
    have hj : AtProgress ram p s := hj
    exact ⟨fun _ => ⟨p, rfl⟩, fun _ => hj.testWasDone⟩
  | decided st p a =>
    have hj : AtVerdict ram st p a s := hj
    simp [hj.testWasDone]

/-- With room no run before the verdict has more than `n` updates. -/
theorem neverPassesOverrun_of_room {n : ExpupdAddr} (h : n = 0 ∨ n.toNat + N < 2 ^ 9) :
    NeverPassesOverrun N n := by
  rintro s hs rfl ins hins v hv hlt
  obtain ⟨p, hp⟩ := (tracks_trajectory hs hins v).testWasDone.mp hv
  have hpass := passes_of_judgement_eq_pending (room_of_lt h) hp
  exact absurd (updatesBefore_le_of_passes hpass) (not_le.mpr hlt)

/-! ### The updates of the overrunning run -/

/-- The processor writes data memory if `d`, and the value zero through the first `k` register
write ports, always at address zero. -/
def burst (d : Bool) (k : Nat) : ProcOut N where
  imemAddress := 0
  dmemAddress := 0
  dmemData := 0
  dmemWriteEnable := d
  writePorts := fun i => ⟨0, decide (i.val < k), 0⟩

/-- A write of zero to data memory address zero. -/
def dmemZero : ExpectedStateUpdate := ⟨.dmemUpdate, 0, 0⟩

/-- The updates of a burst: `k` register writes of zero, and the one of data memory if it takes
part. -/
theorem group_burst {d : Bool} {k : Nat} (hk : k ≤ N) :
    (TestMonitorIn.ofProc true (burst (N := N) d k)).activity.group =
      (if d then {dmemZero} else 0) + Multiset.replicate k .zero := by
  have hcard : (Finset.univ.filter fun i : Fin N => i.val < k).card = k := by
    rw [Fin.card_filter_val_lt]
    omega
  show (Activity.ofProc true (burst d k)).group = _
  rw [Activity.group_ofProc]
  simp only [burst, decide_eq_true_eq]
  congr 1
  rw [Multiset.map_const', Finset.card_val, hcard]
  rfl

/-! ### The overrunning run -/

/-- A RAM whose entries are register writes of zero to address zero, except the last, which is
a data memory write of zero. -/
def overrunRam : ExpupdRam := fun k => if k = 511 then 1 <<< 42 else 0

/-- The processor makes register writes one by one, up to the last entry but one; then, in
one cycle, the updates of all entries up to the last address; then the list once more, one
by one; and nothing from then on. -/
def overrunProc (N : Nat) (n : ExpupdAddr) (t : Nat) : ProcOut N :=
  if t + 1 = n.toNat then burst true (512 - n.toNat)
  else if t < 2 * n.toNat then burst false 1
  else burst false 0

/-- In the cycle of the last entry the processor makes `512 - n` register updates and one of data
memory at once. -/
theorem overrunProc_last {n : ExpupdAddr} {t : Nat} (h : t + 1 = n.toNat) :
    overrunProc N n t = burst true (512 - n.toNat) := if_pos h

/-- In the other cycles it makes one update. -/
theorem overrunProc_single {n : ExpupdAddr} {t : Nat} (h : t + 1 ≠ n.toNat)
    (hlt : t < 2 * n.toNat) : overrunProc N n t = burst false 1 := by
  unfold overrunProc
  rw [if_neg h, if_pos hlt]

/-- After that it makes none. -/
theorem overrunProc_quiet {n : ExpupdAddr} {t : Nat} (h : t + 1 ≠ n.toNat)
    (hle : 2 * n.toNat ≤ t) : overrunProc N n t = burst false 0 := by
  unfold overrunProc
  rw [if_neg h, if_neg (not_lt.mpr hle)]

/-- The inputs of the run. -/
def overrunInput (N : Nat) (n : ExpupdAddr) (t : Nat) : TestMonitorIn N :=
  .ofProc true (overrunProc N n t)

/-- The entries of `overrunRam`. -/
def overrunList (k : ExpupdAddr) : ExpectedStateUpdate := decodeUpdate (overrunRam k)

/-- Every entry but the last of the RAM is a write of zero to the register file. -/
theorem overrunList_ofNat {k : Nat} (hk : k < 511) : overrunList (BitVec.ofNat 9 k) = .zero := by
  have hne : BitVec.ofNat 9 k ≠ 511 := by
    intro h
    have hto := congrArg BitVec.toNat h
    rw [BitVec.toNat_ofNat, show (511 : ExpupdAddr).toNat = 511 from rfl] at hto
    omega
  unfold overrunList overrunRam
  rw [if_neg hne]
  rfl

/-- The entries from a position up to the last address. -/
theorem entries_overrunList {u k : Nat} (h : u + k = 511) :
    entries overrunList (BitVec.ofNat 9 u) (k + 1) = {dmemZero} + Multiset.replicate k .zero := by
  unfold entries
  rw [Multiset.range_succ, Multiset.map_cons, ← Multiset.singleton_add, ← BitVec.ofNat_add, h]
  have hlast : overrunList (BitVec.ofNat 9 511) = dmemZero := by decide
  have hrest : (Multiset.range k).map (fun i => overrunList (BitVec.ofNat 9 u + BitVec.ofNat 9 i))
      = Multiset.replicate k .zero := by
    refine Multiset.eq_replicate.mpr ⟨by simp, ?_⟩
    intro x hx
    obtain ⟨i, hi, rfl⟩ := Multiset.mem_map.mp hx
    rw [Multiset.mem_range] at hi
    rw [← BitVec.ofNat_add]
    exact overrunList_ofNat (by omega)
  rw [hlast, hrest]

section
variable {n : ExpupdAddr}

/-- A cycle in which an enabled processor makes the next updates of a list that is not
complete, without going past its end. -/
theorem judge_take (expected : BitVec 9 → ExpectedStateUpdate) {T c : Nat} (u : Nat)
    {a : Activity N}
    (hc : c ≤ T) (hen : a.procEnable = true)
    (hgroup : a.group = entries expected (BitVec.ofNat 9 u) a.count)
    (hle : BitVec.ofNat 9 (u + a.count) ≤ n) :
    judge expected n T ⟨BitVec.ofNat 9 u, false, c, 0⟩ a =
      .pending ⟨BitVec.ofNat 9 (u + a.count), decide (n ≤ BitVec.ofNat 9 (u + a.count)),
        c + 1, 0⟩ := by
  rw [BitVec.ofNat_add] at hle ⊢
  refine (judge_eq_pending_iff _ _ _).mpr
    ⟨Nat.zero_lt_succ 99, Or.inr hc, Or.inr ⟨hen, rfl⟩, hgroup, hle, ?_⟩
  simp [Progress.advance, hen]

/-- The number of updates of a burst. -/
theorem count_burst {d : Bool} {k : Nat} (hk : k ≤ N) :
    (TestMonitorIn.ofProc true (burst (N := N) d k)).activity.count = d.toNat + k := by
  rw [← Activity.card_group, group_burst hk, Multiset.card_add, Multiset.card_replicate]
  cases d <;> rfl

/-- One register write, taken as the entry at a position before the last. -/
theorem judge_single {u c : Nat} (hN : 1 ≤ N) (hu : u < n.toNat) (hc : c ≤ 65535) :
    judge overrunList n 65535 ⟨BitVec.ofNat 9 u, false, c, 0⟩
        (TestMonitorIn.ofProc true (burst (N := N) false 1)).activity =
      .pending ⟨BitVec.ofNat 9 (u + 1), decide (u + 1 = n.toNat), c + 1, 0⟩ := by
  have hn := n.isLt
  have hcount : (TestMonitorIn.ofProc true (burst (N := N) false 1)).activity.count = 1 :=
    count_burst hN
  have hentry : entries overrunList (BitVec.ofNat 9 u) 1 = {.zero} := by
    show {overrunList (BitVec.ofNat 9 u + BitVec.ofNat 9 0)} = _
    rw [← BitVec.ofNat_add, overrunList_ofNat (by omega)]
  have hto : (BitVec.ofNat 9 (u + 1)).toNat = u + 1 := by
    rw [BitVec.toNat_ofNat, Nat.mod_eq_of_lt (by omega)]
  have htake := judge_take (N := N) (n := n) overrunList u hc
    (a := (TestMonitorIn.ofProc true (burst false 1)).activity) rfl
    (by rw [hcount, group_burst hN]; exact hentry.symm)
    (by rw [hcount, BitVec.le_def, hto]; omega)
  rw [htake, hcount]
  have hdone : decide (n ≤ BitVec.ofNat 9 (u + 1)) = decide (u + 1 = n.toNat) := by
    refine decide_eq_decide.mpr ?_
    rw [BitVec.le_def, hto]
    omega
  rw [hdone]

/-- Before the burst. -/
theorem judgement_overrun_before (hN : 1 ≤ N) (hn : 1 ≤ n.toNat) {t : Nat} (ht : t + 1 ≤ n.toNat) :
    judgement overrunList n 65535 (fun t => (overrunInput N n t).activity) t =
      .pending ⟨BitVec.ofNat 9 t, false, t, 0⟩ := by
  have hlt := n.isLt
  induction t with
  | zero =>
    have hne : n ≠ 0 := by
      rintro rfl
      exact absurd hn (by decide)
    show Judgement.pending ⟨0, decide (n = 0), 0, 0⟩ = _
    rw [decide_eq_false hne]
    rfl
  | succ t ih =>
    rw [judgement_succ, ih (by omega)]
    show judge overrunList n 65535 _ (TestMonitorIn.ofProc true (overrunProc N n t)).activity = _
    rw [overrunProc_single (by omega) (by omega), judge_single hN (by omega) (by omega)]
    have hnot : decide (t + 1 = n.toNat) = false := decide_eq_false (by omega)
    rw [hnot]

/-- The burst takes the position back to the front. -/
theorem judgement_overrun_burst (hN : 1 ≤ N) (hn : 1 ≤ n.toNat) (hnN : 512 ≤ n.toNat + N) :
    judgement overrunList n 65535 (fun t => (overrunInput N n t).activity) n.toNat =
      .pending ⟨0, false, n.toNat, 0⟩ := by
  have hlt := n.isLt
  obtain ⟨u, hu⟩ : ∃ u, n.toNat = u + 1 := ⟨n.toNat - 1, by omega⟩
  have hproc : overrunProc N n u = burst true (512 - n.toNat) := overrunProc_last hu.symm
  have hk : 512 - n.toNat ≤ N := by omega
  have hcount := count_burst (N := N) (d := true) hk
  have hsum : u + (true.toNat + (512 - n.toNat)) = 512 := by
    show u + (1 + (512 - n.toNat)) = 512
    omega
  rw [hu, judgement_succ, judgement_overrun_before hN hn (by omega)]
  show judge overrunList n 65535 _ (TestMonitorIn.ofProc true (overrunProc N n u)).activity = _
  rw [hproc]
  -- The updates of the cycle are the entries up to the last address, in any order.
  have htake := judge_take (N := N) (n := n) (T := 65535) (c := u) overrunList u
    (by omega) (a := (TestMonitorIn.ofProc true (burst true (512 - n.toNat))).activity) rfl
    (by
      rw [hcount, group_burst hk, if_pos rfl, ← entries_overrunList (u := u) (by omega)]
      congr 1
      exact Nat.add_comm _ _)
    (by rw [hcount, hsum]; exact BitVec.le_def.mpr (Nat.zero_le _))
  rw [htake, hcount, hsum]
  have hnot : decide (n ≤ BitVec.ofNat 9 512) = false := by
    refine decide_eq_false ?_
    rw [BitVec.le_def]
    show ¬ n.toNat ≤ 0
    omega
  rw [hnot]
  rfl

/-- The second time through the list. -/
theorem judgement_overrun_again (hN : 1 ≤ N) (hn : 1 ≤ n.toNat) (hnN : 512 ≤ n.toNat + N) {k : Nat}
    (hk : k ≤ n.toNat) :
    judgement overrunList n 65535 (fun t => (overrunInput N n t).activity) (n.toNat + k) =
      .pending ⟨BitVec.ofNat 9 k, decide (k = n.toNat), n.toNat + k, 0⟩ := by
  have hlt := n.isLt
  induction k with
  | zero =>
    have hnot : decide (0 = n.toNat) = false := decide_eq_false (by omega)
    rw [Nat.add_zero, judgement_overrun_burst hN hn hnN, hnot]
    rfl
  | succ k ih =>
    have hnot : decide (k = n.toNat) = false := decide_eq_false (by omega)
    rw [← Nat.add_assoc, judgement_succ, ih (by omega), hnot]
    show judge overrunList n 65535 _
      (TestMonitorIn.ofProc true (overrunProc N n (n.toNat + k))).activity = _
    rw [overrunProc_single (by omega) (by omega), judge_single hN (by omega) (by omega)]

/-- The idle wait. -/
theorem judgement_overrun_idle (hN : 1 ≤ N) (hn : 1 ≤ n.toNat) (hnN : 512 ≤ n.toNat + N) {k : Nat}
    (hk : k ≤ 100) :
    judgement overrunList n 65535 (fun t => (overrunInput N n t).activity)
        (n.toNat + n.toNat + k) =
      .pending ⟨n, true, n.toNat + n.toNat + k, k⟩ := by
  induction k with
  | zero =>
    rw [Nat.add_zero, judgement_overrun_again hN hn hnN le_rfl]
    simp
  | succ k ih =>
    have hcount : (TestMonitorIn.ofProc true (burst (N := N) false 0)).activity.count = 0 :=
      count_burst (Nat.zero_le N)
    rw [← Nat.add_assoc, judgement_succ, ih (by omega)]
    show judge overrunList n 65535 _
      (TestMonitorIn.ofProc true (overrunProc N n (n.toNat + n.toNat + k))).activity = _
    rw [overrunProc_quiet (by omega) (by omega)]
    refine (judge_eq_pending_iff _ _ _).mpr
      ⟨Nat.lt_of_succ_le hk, Or.inl rfl, Or.inl hcount, ?_, ?_, ?_⟩
    · rw [hcount, group_burst (Nat.zero_le N)]
      rfl
    · rw [hcount]
      rw [BitVec.add_zero]
      exact BitVec.le_refl n
    · simp only [Progress.advance, hcount]
      simp [TestMonitorIn.activity, TestMonitorIn.ofProc]

/-- The updates made before the position is back at the front. -/
theorem updatesBefore_overrun (hn : 1 ≤ n.toNat) (hnN : 512 ≤ n.toNat + N) :
    updatesBefore (fun t => (overrunInput N n t).activity) n.toNat = 512 := by
  have hlt := n.isLt
  have hbefore : ∀ t, t + 1 ≤ n.toNat →
      updatesBefore (fun t => (overrunInput N n t).activity) t = t := by
    intro t ht
    induction t with
    | zero => rfl
    | succ t ih =>
      show _ + (TestMonitorIn.ofProc true (overrunProc N n t)).activity.count = _
      rw [ih (by omega), overrunProc_single (by omega) (by omega), count_burst (by omega)]
      rfl
  obtain ⟨u, hu⟩ : ∃ u, n.toNat = u + 1 := ⟨n.toNat - 1, by omega⟩
  rw [hu]
  show _ + (TestMonitorIn.ofProc true (overrunProc N n u)).activity.count = _
  rw [hbefore u (by omega), overrunProc_last hu.symm, count_burst (by omega)]
  show u + (1 + (512 - n.toNat)) = 512
  omega

/-- The overrunning run: not decided after the burst, more than `n` updates before it, and
the status `0x01` in the end. -/
theorem overrun_run (hn : 1 ≤ n.toNat) (hnN : 512 ≤ n.toNat + N) :
    (trajectory step (configured overrunRam n 65535) (overrunInput N n)
        (n.toNat + 1)).testWasDone = false ∧
      n.toNat < updatesBefore (fun t => (overrunInput N n t).activity) n.toNat ∧
      (trajectory step (configured overrunRam n 65535) (overrunInput N n)
        (n.toNat + n.toNat + 102)).output.testStatus = 0x01 := by
  have hlt := n.isLt
  have hconf := configured_afterConfiguration (N := N) overrunRam n 65535
  obtain ⟨hram, hcount, hwait⟩ := configured_config (N := N) overrunRam n 65535
  have hT : (65535 : BitVec 16).toNat = 65535 := by decide
  -- The hardware shows what the abstract monitor decides on this run.
  have htracks : ∀ t, Tracks overrunRam n 65535
      (judgement overrunList n 65535 (fun t => (overrunInput N n t).activity) t)
      (trajectory step (configured overrunRam n 65535) (overrunInput N n) (t + 1)) := by
    intro t
    have h := tracks_trajectory hconf
      (fun t => TestMonitorIn.ofProc_noHostAccess true (overrunProc N n t)) t
    rw [hram, hcount, hwait, judgementRam, hT] at h
    exact h
  refine ⟨?_, ?_, ?_⟩
  · exact (htracks n.toNat).testWasDone.mpr ⟨_, judgement_overrun_burst (by omega) hn hnN⟩
  · rw [updatesBefore_overrun hn hnN]
    omega
  · have hj : (judgement overrunList n 65535 (fun t => (overrunInput N n t).activity)
        (n.toNat + n.toNat + 100 + 1)).status = .success := by
      rw [judgement_succ, judgement_overrun_idle (by omega) hn hnN le_rfl]
      exact congrArg Judgement.status ((judge_eq_success_iff _ _ _).mpr ⟨le_rfl, rfl, rfl⟩)
    have hst := (htracks (n.toNat + n.toNat + 100 + 1)).testStatus
    rw [hj] at hst
    exact hst

/-- No run with too many updates succeeds exactly for the lists that are empty or end
`RF_NUM_WRITE_PORTS` below the RAM depth. -/
theorem neverPassesOverrun_iff (N : Nat) (n : ExpupdAddr) :
    NeverPassesOverrun N n ↔ n = 0 ∨ n.toNat + N < 512 := by
  refine ⟨fun h => ?_, neverPassesOverrun_of_room⟩
  by_contra hnot
  rw [not_or, not_lt] at hnot
  have hn : 1 ≤ n.toNat := by
    by_contra hzero
    exact hnot.1 (BitVec.eq_of_toNat_eq (by rw [Nat.lt_one_iff.mp (not_le.mp hzero)]; rfl))
  obtain ⟨hdone, hcount, hstatus⟩ := overrun_run hn hnot.2
  obtain ⟨-, hconf, -⟩ := configured_config (N := N) overrunRam n 65535
  exact h _ (configured_afterConfiguration overrunRam n 65535) hconf (overrunInput N n)
    (fun t => TestMonitorIn.ofProc_noHostAccess true (overrunProc N n t)) n.toNat hdone hcount _
    hstatus

/-- With the configured number of write ports, the list of 511 entries is the one that does
not hold: after 510 register writes, one cycle with a data memory write and a register write
completes the list and goes past it, and the test passes 612 cycles later. -/
theorem fullList_passes_overrun :
    AfterConfiguration (configured (N := RF_NUM_WRITE_PORTS) overrunRam 511 65535) ∧
      (configured (N := RF_NUM_WRITE_PORTS) overrunRam 511 65535).numExpUpdates = 511 ∧
      (∀ t, (overrunInput RF_NUM_WRITE_PORTS 511 t).NoHostAccess) ∧
      (trajectory step (configured overrunRam 511 65535) (overrunInput RF_NUM_WRITE_PORTS 511)
        512).testWasDone = false ∧
      511 < updatesBefore (fun t => (overrunInput RF_NUM_WRITE_PORTS 511 t).activity) 511 ∧
      (trajectory step (configured overrunRam 511 65535) (overrunInput RF_NUM_WRITE_PORTS 511)
        1124).output.testStatus = 0x01 := by
  obtain ⟨hdone, hcount, hstatus⟩ :=
    overrun_run (N := RF_NUM_WRITE_PORTS) (n := 511) (by decide) (by decide)
  exact ⟨configured_afterConfiguration _ _ _, (configured_config _ _ _).2.1,
    fun t => TestMonitorIn.ofProc_noHostAccess true _, hdone, hcount, hstatus⟩

end

end VivadoTest.Framework.TestMonitorState
