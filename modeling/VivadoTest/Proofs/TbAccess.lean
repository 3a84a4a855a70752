import VivadoTest.Framework.TbAccess
import VivadoTest.Proofs.Agreement

/-!
# `VivadoTest.Proofs.TbAccess`: the testbench looks at updates that are there

The process with noted accesses is the process (`NotesOnly` relates the two, subprogram by
subprogram), and in a cycle with `num_updates` updates it uses the indices below `num_updates` and
below `NUM_EXPECTED_UPDATES` only. The loop over the updates of a disabled processor is the one
exception: it uses the index `num_updates`.

* `checkExpectedUpdates_noted`: the process with noted accesses does what the process does.
* `looksInRange_iff`, `simulation_looksInRange_iff`: the accesses of one rising edge in any state,
  and of a whole simulation.
* `not_looksInRange`: one update too many.

## Which program the results are about

The accesses are those of the subprograms in `VivadoTest.Framework.TbAccess`, which are a second
copy of the process with notes. `checkExpectedUpdates_noted` proves that the copy computes what
`Tb.checkExpectedUpdates` does, on every input, index errors included. So the indices that
`accesses` lists are those that the process uses, and `looksInRange_iff` and
`simulation_looksInRange_iff` are about the process of `tb.vhd` itself.
-/

set_option autoImplicit false

namespace VivadoTest.Framework.Tb

open VivadoTest.Lib VivadoTest.Spec
open VivadoTest.Framework.TestMonitorState (oneUpdate dmemWriter)

variable {N : Nat}

/-- The index is one of `numUpdates` updates of a cycle and within the bounds of the array, or one
of `numExpected` expected updates. -/
def Access.InRange (N numUpdates numExpected : Nat) : Access → Prop
  | .current index => index < numUpdates ∧ index ≤ N
  | .temp index => index < numUpdates ∧ index ≤ N
  | .expected index => index < numExpected

section
variable {P : Access → Prop}

/-- A read notes its index and does what the read without notes does. -/
theorem readAt_notesOnly {access : Nat → Access} {length i : Nat} (h : P (access i)) (a : TbArray) :
    NotesOnly P (Noted.readAt access length a i) (readAt length a i) :=
  NotesOnly.noted h _

/-- So does a write. -/
theorem writeAt_notesOnly {access : Nat → Access} {length i : Nat} (h : P (access i)) (a : TbArray)
    (u : ExpectedStateUpdate) :
    NotesOnly P (Noted.writeAt access length a i u) (writeAt length a i u) :=
  NotesOnly.noted h _

/-! ### The comparison -/

/-- A turn of the inner loop uses the front and the index of the turn. -/
theorem searchStep_notesOnly (nextExpected : ExpectedStateUpdate) {i j : Nat} (hi : P (.temp i))
    (hj : P (.temp j)) (v : SearchVars) :
    NotesOnly P (Noted.searchStep N nextExpected i v j) (searchStep N nextExpected i v j) := by
  unfold Noted.searchStep searchStep
  refine (readAt_notesOnly hj _).bind fun update _ => ?_
  split
  · refine (readAt_notesOnly hi _).bind fun front _ => ?_
    exact (writeAt_notesOnly hj _ _).bind fun temp _ => NotesOnly.pure _
  · split
    · exact NotesOnly.pure _
    · exact NotesOnly.pure _

variable {g : Generics} {expectedUpdates : TbArray} {clockCounter numUpdates updateI : Nat}

/-- The expected list is read below its end only. -/
theorem checkStep_notesOnly (htemp : ∀ i < numUpdates, P (.temp i))
    (hexpected : ∀ i < g.NUM_EXPECTED_UPDATES, P (.expected i)) {i : Nat} (hi : i < numUpdates)
    (v : CheckVars) :
    NotesOnly P (Noted.checkStep N g clockCounter numUpdates expectedUpdates updateI v i)
      (checkStep N g clockCounter numUpdates expectedUpdates updateI v i) := by
  unfold Noted.checkStep checkStep
  split
  · exact (readAt_notesOnly (htemp i hi) _).bind fun update _ => NotesOnly.pure _
  · rename_i hlist
    refine (readAt_notesOnly (hexpected _ (not_le.mp hlist)) _).bind fun nextExpected _ => ?_
    refine NotesOnly.bind ?_ fun w _ => ?_
    · refine NotesOnly.foldlM (fun v j hj => ?_) _
      rw [List.mem_range'_1] at hj
      exact searchStep_notesOnly nextExpected (htemp i hi) (htemp j (by omega)) v
    · split
      · exact NotesOnly.pure _
      · exact (readAt_notesOnly (htemp i hi) _).bind fun update _ => NotesOnly.pure _

/-- The whole function uses the updates of the cycle and the entries of the list that are there.
-/
theorem checkUpdatesIncorrect_notesOnly (htemp : ∀ i < numUpdates, P (.temp i))
    (hexpected : ∀ i < g.NUM_EXPECTED_UPDATES, P (.expected i)) (currentUpdates : TbArray)
    (log : List LogLine) :
    NotesOnly P
      (Noted.checkUpdatesIncorrect N g clockCounter currentUpdates numUpdates expectedUpdates
        updateI log)
      (checkUpdatesIncorrect N g clockCounter currentUpdates numUpdates expectedUpdates updateI
        log) := by
  unfold Noted.checkUpdatesIncorrect checkUpdatesIncorrect
  refine NotesOnly.bind ?_ fun v _ => NotesOnly.pure _
  refine NotesOnly.foldlM (fun v i hi => ?_) _
  rw [List.mem_range'_1] at hi
  exact checkStep_notesOnly htemp hexpected (by omega) v

end

/-! ### The updates of a cycle -/

section
variable {P : Access → Prop}

/-- An update that is read is stored behind those before it. -/
theorem readUpdate_notesOnly {v : TbArray × Nat} (h : P (.current v.2))
    (update : ExpectedStateUpdate) :
    NotesOnly P (Noted.readUpdate N v update) (readUpdate N v update) := by
  unfold Noted.readUpdate readUpdate
  exact (writeAt_notesOnly h _ _).bind fun current _ => NotesOnly.pure _

/-- An update read is counted. -/
theorem readUpdate_snd {v v' : TbArray × Nat} {update : ExpectedStateUpdate}
    (h : readUpdate N v update = .ok v') : v'.2 = v.2 + 1 := by
  unfold readUpdate writeAt at h
  split at h
  · cases h
    rfl
  · cases h

/-- The count does not fall from port to port. -/
theorem readPortUpdate_le {p : ProcOut N} {v v' : TbArray × Nat} {i : Fin N}
    (h : readPortUpdate p v i = .ok v') : v.2 ≤ v'.2 := by
  unfold readPortUpdate at h
  split at h
  · rw [readUpdate_snd h]
    exact Nat.le_succ v.2
  · cases h
    exact le_rfl

/-- Nor over all ports. -/
theorem readPorts_le {p : ProcOut N} {ports : List (Fin N)} {v v' : TbArray × Nat}
    (h : ports.foldlM (readPortUpdate p) v = .ok v') : v.2 ≤ v'.2 := by
  induction ports generalizing v with
  | nil =>
    cases h
    exact le_rfl
  | cons i ports ih =>
    rw [List.foldlM_cons] at h
    obtain ⟨v₁, hv₁, hrest⟩ := exists_of_bind_eq_ok h
    exact (readPortUpdate_le hv₁).trans (ih hrest)

/-- An update is stored at an index that the number of updates covers in the end. -/
theorem readPorts_notesOnly {p : ProcOut N} {ports : List (Fin N)} {v v' : TbArray × Nat}
    (h : ports.foldlM (readPortUpdate p) v = .ok v') (hP : ∀ i < v'.2, P (.current i)) :
    NotesOnly P (ports.foldlM (Noted.readPortUpdate p) v) (ports.foldlM (readPortUpdate p) v) := by
  induction ports generalizing v with
  | nil => exact NotesOnly.pure v
  | cons i ports ih =>
    rw [List.foldlM_cons] at h
    obtain ⟨v₁, hv₁, hrest⟩ := exists_of_bind_eq_ok h
    rw [List.foldlM_cons, List.foldlM_cons]
    refine NotesOnly.bind ?_ fun v₂ hv₂ => ?_
    · unfold Noted.readPortUpdate readPortUpdate at *
      split
      · rename_i hwe
        rw [if_pos hwe] at hv₁
        have := readUpdate_snd hv₁
        have := readPorts_le hrest
        exact readUpdate_notesOnly (hP v.2 (by omega)) _
      · exact NotesOnly.pure v
    · obtain rfl := Except.ok.inj (hv₁.symm.trans hv₂)
      exact ih hrest

/-- Reading the updates of a cycle uses the indices below their number. -/
theorem readCurrentUpdates_notesOnly {currentUpdates : TbArray} {p : ProcOut N} {v : TbArray × Nat}
    (h : readCurrentUpdates currentUpdates p = .ok v) (hP : ∀ i < v.2, P (.current i)) :
    NotesOnly P (Noted.readCurrentUpdates currentUpdates p)
      (readCurrentUpdates currentUpdates p) := by
  unfold readCurrentUpdates at h
  obtain ⟨v₁, hv₁, hports⟩ := exists_of_bind_eq_ok h
  unfold Noted.readCurrentUpdates readCurrentUpdates
  refine NotesOnly.bind ?_ fun v₂ hv₂ => ?_
  · unfold Noted.readDmemUpdate readDmemUpdate at *
    split
    · rename_i hwe
      rw [if_pos hwe] at hv₁
      have := readUpdate_snd hv₁
      have := readPorts_le hports
      exact readUpdate_notesOnly (hP 0 (by omega)) _
    · exact NotesOnly.pure _
  · obtain rfl := Except.ok.inj (hv₁.symm.trans hv₂)
    exact readPorts_notesOnly hports hP

/-! ### The branches -/

variable {clockCounter : Nat} {updates : TbArray}

/-- The loop that logs uses the indices that it is given. -/
theorem logEach_notesOnly {message : ExpectedStateUpdate → Message} {indices : List Nat}
    (h : ∀ i ∈ indices, P (.current i)) (log : List LogLine) :
    NotesOnly P (Noted.logEach N clockCounter message updates indices log)
      (logEach N clockCounter message updates indices log) := by
  refine NotesOnly.foldlM (fun log i hi => ?_) log
  exact (readAt_notesOnly (h i hi) _).bind fun update _ => NotesOnly.pure _

/-- So does the procedure around it. -/
theorem assertNoAdditionalUpdates_notesOnly {numUpdates : Nat}
    (h : ∀ i < numUpdates, P (.current i)) (log : List LogLine) :
    NotesOnly P (Noted.assertNoAdditionalUpdates N clockCounter numUpdates updates log)
      (assertNoAdditionalUpdates N clockCounter numUpdates updates log) := by
  unfold Noted.assertNoAdditionalUpdates assertNoAdditionalUpdates
  split
  · refine NotesOnly.bind (logEach_notesOnly (fun i hi => h i ?_) log) fun log _ => NotesOnly.pure _
    rw [List.mem_range'_1] at hi
    omega
  · exact NotesOnly.pure _

/-- The branches outside the loop over the updates of a disabled processor. -/
theorem checkBranches_notesOnly {g : Generics} {expectedUpdates : TbArray} {s : TbState}
    {processorEnable : Bool} (hcurrent : ∀ i < s.numUpdates, P (.current i))
    (htemp : ∀ i < s.numUpdates, P (.temp i))
    (hexpected : ∀ i < g.NUM_EXPECTED_UPDATES, P (.expected i))
    (hbranch : s.updateI < g.NUM_EXPECTED_UPDATES → 0 < s.numUpdates → processorEnable = false →
      ∀ i ≤ s.numUpdates, P (.current i)) :
    NotesOnly P (Noted.checkBranches N g expectedUpdates s processorEnable)
      (checkBranches N g expectedUpdates s processorEnable) := by
  unfold Noted.checkBranches checkBranches
  split
  · refine (assertNoAdditionalUpdates_notesOnly hcurrent _).bind fun r _ => ?_
    obtain ⟨failed, log⟩ := r
    cases failed
    · exact NotesOnly.pure _
    · exact NotesOnly.pure _
  · rename_i hlist
    split
    · rename_i hnum
      cases processorEnable with
      | true =>
        refine (checkUpdatesIncorrect_notesOnly htemp hexpected _ _).bind fun r _ => ?_
        exact NotesOnly.pure _
      | false =>
        refine (logEach_notesOnly (fun i hi => ?_) _).bind fun log _ => NotesOnly.pure _
        rw [List.mem_range'_1] at hi
        exact hbranch (not_le.mp hlist) hnum rfl i (by omega)
    · split
      · exact NotesOnly.pure _
      · exact NotesOnly.pure _

/-- One rising edge, with what each branch uses as hypotheses. The last one is about the branch of
a disabled processor, which is the only one that can use the index behind the updates. -/
theorem checkExpectedUpdates_notesOnly {g : Generics} {expectedUpdates : TbArray} {s : TbState}
    {processorEnable : Bool} {p : ProcOut N} {v : TbArray × Nat}
    (hv : readCurrentUpdates s.currentUpdates p = .ok v) (hcurrent : ∀ i < v.2, P (.current i))
    (htemp : ∀ i < v.2, P (.temp i))
    (hexpected : ∀ i < g.NUM_EXPECTED_UPDATES, P (.expected i))
    (hbranch : s.updateI < g.NUM_EXPECTED_UPDATES → 0 < v.2 → processorEnable = false →
      ∀ i ≤ v.2, P (.current i)) :
    NotesOnly P (Noted.checkExpectedUpdates g expectedUpdates s processorEnable p)
      (checkExpectedUpdates g expectedUpdates s processorEnable p) := by
  unfold Noted.checkExpectedUpdates checkExpectedUpdates
  refine (readCurrentUpdates_notesOnly hv hcurrent).bind fun v' hv' => ?_
  obtain rfl := Except.ok.inj (hv.symm.trans hv')
  refine NotesOnly.bind ?_ fun s' _ => NotesOnly.pure _
  exact checkBranches_notesOnly hcurrent htemp hexpected hbranch

end

/-- The process with noted accesses does what the process does. -/
theorem checkExpectedUpdates_noted (g : Generics) (expectedUpdates : TbArray) (s : TbState)
    (processorEnable : Bool) (p : ProcOut N) :
    Notes (Noted.checkExpectedUpdates g expectedUpdates s processorEnable p)
      (checkExpectedUpdates g expectedUpdates s processorEnable p)
      (accesses g expectedUpdates s processorEnable p) := by
  obtain ⟨v, hv, -, -⟩ := readCurrentUpdates_spec s.currentUpdates processorEnable p
  obtain ⟨new, hnew, -⟩ := checkExpectedUpdates_notesOnly (P := fun _ => True)
    (g := g) (s := s) hv (fun _ _ => trivial) (fun _ _ => trivial) (fun _ _ => trivial)
    (fun _ _ _ _ _ => trivial)
  unfold accesses
  rw [hnew.notesOf]
  exact hnew

/-! ### The updates of a disabled processor -/

/-- The loop goes one index too far. -/
theorem logEach_notesSome {clockCounter numUpdates : Nat} (hnum : numUpdates ≤ N + 1)
    {message : ExpectedStateUpdate → Message}
    (hm : ∀ u, message u ≠ .testSuccess ∧ message u ≠ .testTimeout) (updates : TbArray)
    (log : List LogLine) :
    NotesSome (.current numUpdates)
      (Noted.logEach N clockCounter message updates (List.range' 0 (numUpdates + 1)) log) := by
  have hindices : ∀ i ∈ List.range' 0 numUpdates, i < N + 1 := by
    intro i hi
    rw [List.mem_range'_1] at hi
    omega
  -- the updates of the cycle are read without an error, so the loop reaches the index behind them
  obtain ⟨log', hlog, -⟩ := logEach_spec clockCounter hm updates (Appends.rule log) hindices
    (Appends.refl log)
  unfold Noted.logEach
  rw [List.range'_concat, List.foldlM_append]
  refine NotesSome.bind_right (P := fun _ => True)
    (logEach_notesOnly (fun _ _ => trivial) log) hlog ?_
  rw [List.foldlM_cons]
  refine NotesSome.bind_left ?_ fun log => NotesOnly.pure log
  rw [Nat.zero_add, Nat.one_mul]
  exact NotesSome.bind_left (NotesSome.noted _ _) fun update => NotesOnly.pure _

/-- That branch does use it. -/
theorem mem_accesses_of_disabled {g : Generics} {expectedUpdates : TbArray} {s : TbState}
    {p : ProcOut N} {v : TbArray × Nat} (hv : readCurrentUpdates s.currentUpdates p = .ok v)
    (hle : v.2 ≤ N + 1) (hlist : s.updateI < g.NUM_EXPECTED_UPDATES) (hnum : 0 < v.2) :
    .current v.2 ∈ accesses g expectedUpdates s false p := by
  refine NotesSome.mem_notesOf ?_
  unfold Noted.checkExpectedUpdates
  refine NotesSome.bind_right (P := fun _ => True)
    (readCurrentUpdates_notesOnly hv fun _ _ => trivial) hv ?_
  refine NotesSome.bind_left ?_ fun s => NotesOnly.pure _
  unfold Noted.checkBranches
  rw [if_neg (not_le.mpr hlist), if_pos hnum, if_neg Bool.false_ne_true]
  refine NotesSome.bind_left ?_ fun log => NotesOnly.pure _
  exact logEach_notesSome hle (fun u => ⟨by simp, by simp⟩) _ _

/-! ### Simulations -/

/-- A cycle of the testbench in which the processor is disabled and makes an update although more
updates are expected. -/
def DisabledUpdate (g : Generics) (s : TbState) (processorEnable : Bool) (p : ProcOut N) : Prop :=
  s.updateI < g.NUM_EXPECTED_UPDATES ∧ (Activity.ofProc processorEnable p).count ≠ 0 ∧
    processorEnable = false

/-- The process uses the indices of updates that are there. `checkExpectedUpdates_noted` says that
the accesses are those of the process itself. -/
def LooksInRange (g : Generics) (expectedUpdates : TbArray) (s : TbState) (processorEnable : Bool)
    (p : ProcOut N) : Prop :=
  ∀ access ∈ accesses g expectedUpdates s processorEnable p,
    access.InRange N (Activity.ofProc processorEnable p).count g.NUM_EXPECTED_UPDATES

/-- One rising edge, in any state of the process. -/
theorem looksInRange_iff (g : Generics) (expectedUpdates : TbArray) (s : TbState)
    (processorEnable : Bool) (p : ProcOut N) :
    LooksInRange g expectedUpdates s processorEnable p ↔
      ¬ DisabledUpdate g s processorEnable p := by
  obtain ⟨v, hv, hcount, -⟩ := readCurrentUpdates_spec s.currentUpdates processorEnable p
  have hle := (Activity.ofProc processorEnable p).count_le
  constructor
  · rintro h ⟨hlist, hnum, rfl⟩
    have hin := h _ (mem_accesses_of_disabled hv (by omega) hlist (by omega))
    have hlt : v.2 < (Activity.ofProc false p).count := hin.1
    omega
  · intro h
    refine (checkExpectedUpdates_notesOnly hv ?_ ?_ ?_ ?_).forall_notesOf
    · intro i hi
      exact ⟨by omega, by omega⟩
    · intro i hi
      exact ⟨by omega, by omega⟩
    · intro i hi
      exact hi
    · intro hlist hnum hen
      exact absurd ⟨hlist, by omega, hen⟩ h

/-- A cycle of a simulation that has not ended, with the state of the process before it. -/
def IsCycleOf (g : Generics) (expectedUpdates : TbArray) (cycles : List (Bool × ProcOut N))
    (s : TbState) (cycle : Bool × ProcOut N) : Prop :=
  ∃ done todo, cycles = done ++ cycle :: todo ∧ simulate g expectedUpdates done = .ok s ∧
    s.ended = false

/-- For every number of write ports and every simulation: each index is used on an update that is
there exactly when no cycle is one of a disabled processor that makes an update while more are
expected. The accesses are noted by a second copy of the process, which does the same in every
cycle (`checkExpectedUpdates_noted`). -/
theorem simulation_looksInRange_iff (g : Generics) (expectedUpdates : TbArray)
    (cycles : List (Bool × ProcOut N)) :
    (∀ s cycle, IsCycleOf g expectedUpdates cycles s cycle →
        LooksInRange g expectedUpdates s cycle.1 cycle.2) ↔
      ∀ s cycle, IsCycleOf g expectedUpdates cycles s cycle →
        ¬ DisabledUpdate g s cycle.1 cycle.2 :=
  forall₃_congr fun s cycle _ => looksInRange_iff g expectedUpdates s cycle.1 cycle.2

/-- A processor that writes a word before it is enabled: the testbench looks at a second update. -/
theorem not_looksInRange :
    IsCycleOf oneUpdate (fun _ => .zero) [(false, dmemWriter)] {} (false, dmemWriter) ∧
      accesses oneUpdate (fun _ => .zero) {} false dmemWriter
        = [.current 0, .current 0, .current 1] ∧
      ¬ LooksInRange oneUpdate (fun _ => .zero) {} false dmemWriter := by
  have haccesses : accesses oneUpdate (fun _ => .zero) {} false dmemWriter
      = [.current 0, .current 0, .current 1] := by decide
  refine ⟨⟨[], [], rfl, rfl, rfl⟩, haccesses, fun h => ?_⟩
  have hin := h (.current 1) (by rw [haccesses]; decide)
  exact absurd hin.1 (by decide)

end VivadoTest.Framework.Tb
