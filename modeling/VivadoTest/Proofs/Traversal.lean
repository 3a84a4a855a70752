import VivadoTest.Spec.Traversal
import VivadoTest.Proofs.Score

/-!
# `VivadoTest.Proofs.Traversal`: where a traversal ends

A visitor whose methods return (`Visitor.Answers`) leaves one way for a traversal to fail: a
group of unrecognised entries only, which raises an exception that nothing between it and the
root catches. Along the tree, a traversal therefore is the intended one or it raises
(`decided`).

* `traversesTotally_iff`: a traversal with any such visitor.
* `traverseTests_total_iff`: the three visitors of the program.

## Two loops

The loop over the subgroups of the source combines its results under the subgroup that its last
turn has visited; `traverseGroup` is what the traversal ought to compute. `Decided` says of a
directory that the traversal returns and is the intended one, or raises whatever the state is, and
which of the two is the case depends on the groups that are visited. It is proved along the tree
with `Node.ind`.

The visitors differ in what they enter. The evaluation enters the groups that have a weight, the
other two enter everything that is enabled, so a group of unrecognised entries may stop one of them
and not the other.
-/

set_option autoImplicit false

namespace VivadoTest.Spec

open VivadoTest.Host

/-! ### Computations that return and computations that raise -/

section
variable {σ α β : Type}

/-- The computation raises an exception, whatever the state. -/
def Raises (x : StateT σ (Except PyError) α) : Prop := ∀ s, ∃ e, x.run s = .error e

/-- A program that only returns a value returns. -/
theorem total_pure (a : α) : Total (pure a : StateT σ (Except PyError) α) :=
  fun s => ⟨a, s, rfl⟩

/-- Two programs that return, one after the other. -/
theorem Total.bind {x : StateT σ (Except PyError) α} {f : α → StateT σ (Except PyError) β}
    (hx : Total x) (hf : ∀ a, Total (f a)) : Total (x >>= f) := by
  intro s
  obtain ⟨a, s', hrun⟩ := hx s
  obtain ⟨r, s'', hrun'⟩ := hf a s'
  refine ⟨r, s'', ?_⟩
  rw [StateT.run_bind, hrun]
  exact hrun'

/-- A program that raises does so whatever would follow it. -/
theorem Raises.bind {x : StateT σ (Except PyError) α} (hx : Raises x)
    (f : α → StateT σ (Except PyError) β) : Raises (x >>= f) := by
  intro s
  obtain ⟨e, hrun⟩ := hx s
  refine ⟨e, ?_⟩
  rw [StateT.run_bind, hrun]
  rfl

/-- A program that raises behind one that returns raises. -/
theorem Total.raises_bind {x : StateT σ (Except PyError) α} {f : α → StateT σ (Except PyError) β}
    (hx : Total x) (hf : ∀ a, Raises (f a)) : Raises (x >>= f) := by
  intro s
  obtain ⟨a, s', hrun⟩ := hx s
  obtain ⟨e, hrun'⟩ := hf a s'
  refine ⟨e, ?_⟩
  rw [StateT.run_bind, hrun]
  exact hrun'

/-- A loop over programs that return returns. -/
theorem total_mapM {ι : Type} {f : ι → StateT σ (Except PyError) α} (hf : ∀ i, Total (f i))
    (is : List ι) : Total (is.mapM f) := by
  induction is with
  | nil => exact total_pure []
  | cons i is ih =>
    rw [List.mapM_cons]
    exact (hf i).bind fun a => ih.bind fun as => total_pure (a :: as)

/-- A program that returns does not raise. -/
theorem Total.not_raises [Nonempty σ] {x : StateT σ (Except PyError) α} (hx : Total x) :
    ¬ Raises x := by
  intro hraises
  obtain ⟨s⟩ := ‹Nonempty σ›
  obtain ⟨r, s', hrun⟩ := hx s
  obtain ⟨e, hrun'⟩ := hraises s
  rw [hrun] at hrun'
  exact absurd hrun' (by simp)

end

end VivadoTest.Spec

namespace VivadoTest.Host

open VivadoTest.Lib VivadoTest.Spec

/-! ### Visitors that return -/

/-- The methods of the visitor return; of the subgroups it enters those that `enter` says. -/
structure Visitor.Answers {σ ρ ς τ : Type} (visitor : Visitor σ ρ ς τ) (enter : Path → Bool) :
    Prop where
  default : Total visitor.getDefaultRetValue
  preorder : ∀ sg depth s, ∃ s', (visitor.visitSubgroupPreorder sg depth).run s
    = .ok (enter sg.path, s')
  postorder : ∀ sg depth result, enter sg.path = true →
    Total (visitor.visitSubgroupPostorder sg depth result)
  test : ∀ test depth, Total (visitor.visitTest test depth)
  combineTests : ∀ results depth, Total (visitor.combineTestResults results depth)
  combineSubgroups : ∀ sg depth results, Total (visitor.combineSubgroupResults sg depth results)

/-- The evaluation answers the call before a subgroup by its table of weights. -/
theorem answers_evaluationVisitor (weights : TestWeights) (testStrategy : Path → Nat → Nat) :
    (evaluationVisitor weights testStrategy).Answers (weighted weights) where
  default := fun _ => ⟨_, _, rfl⟩
  preorder := fun _ _ _ => ⟨_, rfl⟩
  postorder := by
    intro sg depth result henter s
    obtain ⟨weight, hweight⟩ := Option.isSome_iff_exists.mp henter
    exact ⟨_, _, postorder_run weights testStrategy hweight depth result s⟩
  test := fun test depth s => ⟨_, _, visitTest_run weights testStrategy test depth s⟩
  combineTests := fun _ _ _ => ⟨_, _, rfl⟩
  combineSubgroups := fun _ _ _ _ => ⟨_, _, rfl⟩

/-- The printing visitor enters every subgroup. -/
theorem answers_prettyPrintVisitor : prettyPrintVisitor.Answers fun _ => true where
  default := fun _ => ⟨(), _, rfl⟩
  preorder := fun _ _ _ => ⟨_, rfl⟩
  postorder := fun _ _ _ _ _ => ⟨(), _, rfl⟩
  test := fun _ _ _ => ⟨(), _, rfl⟩
  combineTests := fun _ _ _ => ⟨(), _, rfl⟩
  combineSubgroups := fun _ _ _ _ => ⟨(), _, rfl⟩

/-- So does the visitor that generates the tests. -/
theorem answers_testGeneratingVisitor (archName : List Char) :
    (testGeneratingVisitor archName).Answers fun _ => true where
  default := fun _ => ⟨(), _, rfl⟩
  preorder := fun _ _ _ => ⟨_, rfl⟩
  postorder := fun _ _ _ _ _ => ⟨(), _, rfl⟩
  test := fun _ _ _ => ⟨(), _, rfl⟩
  combineTests := fun _ _ _ => ⟨(), _, rfl⟩
  combineSubgroups := fun _ _ _ _ => ⟨(), _, rfl⟩

/-! ### Traversals -/

section
variable {σ ρ ς τ : Type} {visitor : Visitor σ ρ ς τ} {enabled enter : Path → Bool}

/-- A subgroup that is entered: its turn in the loop. -/
def subgroupTurn (visitor : Visitor σ ρ ς τ) (sg : DirEntry) (depth : Nat)
    (traversal : StateT σ (Except PyError) ρ) (rest : StateT σ (Except PyError) (List ς)) :
    StateT σ (Except PyError) (List ς) := do
  if ← visitor.visitSubgroupPreorder sg depth then
    let result ← traversal
    let subgroupResult ← visitor.visitSubgroupPostorder sg depth result
    return subgroupResult :: (← rest)
  else rest

/-- The loop of the source over a subgroup and the entries behind it. -/
theorem traverseSubgroups_dir (dir : Path) (depth : Nat) (name : List Char)
    (children rest : List Node) :
    traverseSubgroups visitor enabled dir depth (.dir name children :: rest)
      = if enabled (DirEntry.of dir name).path then
          subgroupTurn visitor (.of dir name) depth
            (traverseTests visitor enabled (DirEntry.of dir name).path (depth + 1)
              (.dir name children))
            (traverseSubgroups visitor enabled dir depth rest)
        else traverseSubgroups visitor enabled dir depth rest := by
  rw [traverseSubgroups]
  rfl

/-- The same for the loop that ought to be there. -/
theorem traverseEntries_dir (dir : Path) (depth : Nat) (name : List Char)
    (children rest : List Node) :
    traverseEntries visitor enabled dir depth (.dir name children :: rest)
      = if enabled (DirEntry.of dir name).path then
          subgroupTurn visitor (.of dir name) depth
            (traverseGroup visitor enabled (DirEntry.of dir name).path (depth + 1)
              (.dir name children))
            (traverseEntries visitor enabled dir depth rest)
        else traverseEntries visitor enabled dir depth rest := by
  rw [traverseEntries]
  rfl

/-- A subgroup that the visitor declines. -/
theorem subgroupTurn_declined (h : visitor.Answers enter) {sg : DirEntry}
    (hsg : enter sg.path = false) (depth : Nat) (traversal : StateT σ (Except PyError) ρ)
    (rest : StateT σ (Except PyError) (List ς)) (s : σ) :
    ∃ s', (subgroupTurn visitor sg depth traversal rest).run s = rest.run s' := by
  obtain ⟨s', hrun⟩ := h.preorder sg depth s
  refine ⟨s', ?_⟩
  unfold subgroupTurn
  rw [StateT.run_bind, hrun, hsg]
  rfl

/-- A subgroup that it enters. -/
theorem subgroupTurn_entered (h : visitor.Answers enter) {sg : DirEntry}
    (hsg : enter sg.path = true) (depth : Nat) (traversal : StateT σ (Except PyError) ρ)
    (rest : StateT σ (Except PyError) (List ς)) (s : σ) :
    ∃ s', (subgroupTurn visitor sg depth traversal rest).run s = (do
      let result ← traversal
      let subgroupResult ← visitor.visitSubgroupPostorder sg depth result
      return subgroupResult :: (← rest)).run s' := by
  obtain ⟨s', hrun⟩ := h.preorder sg depth s
  refine ⟨s', ?_⟩
  unfold subgroupTurn
  rw [StateT.run_bind, hrun, hsg]
  rfl

/-- What a traversal that is not entered would do makes no difference. -/
theorem subgroupTurn_congr (h : visitor.Answers enter) (sg : DirEntry) (depth : Nat)
    {traversal traversal' : StateT σ (Except PyError) ρ}
    {rest rest' : StateT σ (Except PyError) (List ς)}
    (htraversal : enter sg.path = true → traversal = traversal') (hrest : rest = rest') :
    subgroupTurn visitor sg depth traversal rest =
      subgroupTurn visitor sg depth traversal' rest' := by
  subst hrest
  cases hsg : enter sg.path with
  | true => rw [htraversal hsg]
  | false =>
    refine StateT.ext fun s => ?_
    obtain ⟨s', hrun⟩ := h.preorder sg depth s
    unfold subgroupTurn
    rw [StateT.run_bind, StateT.run_bind, hrun, hsg]
    rfl

/-- The turn of a subgroup returns when what it runs does. -/
theorem total_subgroupTurn (h : visitor.Answers enter) (sg : DirEntry) (depth : Nat)
    {traversal : StateT σ (Except PyError) ρ} {rest : StateT σ (Except PyError) (List ς)}
    (htraversal : enter sg.path = true → Total traversal) (hrest : Total rest) :
    Total (subgroupTurn visitor sg depth traversal rest) := by
  intro s
  cases hsg : enter sg.path with
  | false =>
    obtain ⟨s', hrun⟩ := subgroupTurn_declined h hsg depth traversal rest s
    rw [hrun]
    exact hrest s'
  | true =>
    obtain ⟨s', hrun⟩ := subgroupTurn_entered h hsg depth traversal rest s
    rw [hrun]
    exact (htraversal hsg).bind (fun result => (h.postorder sg depth result hsg).bind fun r =>
      hrest.bind fun rs => total_pure (r :: rs)) s'

/-- It raises when a traversal that is entered does, and when the turns behind it do. -/
theorem raises_subgroupTurn (h : visitor.Answers enter) {sg : DirEntry} (depth : Nat)
    {traversal : StateT σ (Except PyError) ρ} (rest : StateT σ (Except PyError) (List ς))
    (hsg : enter sg.path = true) (htraversal : Raises traversal) :
    Raises (subgroupTurn visitor sg depth traversal rest) := by
  intro s
  obtain ⟨s', hrun⟩ := subgroupTurn_entered h hsg depth traversal rest s
  rw [hrun]
  exact htraversal.bind _ s'

/-- A later entry that raises makes the loop raise, whether or not the subgroup before it is
entered. -/
theorem raises_subgroupTurn_of_rest (h : visitor.Answers enter) (sg : DirEntry) (depth : Nat)
    {traversal : StateT σ (Except PyError) ρ} {rest : StateT σ (Except PyError) (List ς)}
    (htraversal : enter sg.path = true → Total traversal) (hrest : Raises rest) :
    Raises (subgroupTurn visitor sg depth traversal rest) := by
  intro s
  cases hsg : enter sg.path with
  | false =>
    obtain ⟨s', hrun⟩ := subgroupTurn_declined h hsg depth traversal rest s
    rw [hrun]
    exact hrest s'
  | true =>
    obtain ⟨s', hrun⟩ := subgroupTurn_entered h hsg depth traversal rest s
    rw [hrun]
    exact (htraversal hsg).raises_bind (fun result =>
      (h.postorder sg depth result hsg).raises_bind fun r => hrest.bind _) s'

/-- A traversal returns and is the intended one when no group of unrecognised entries is
visited, and raises otherwise. The intended one always returns. -/
structure Decided (visitor : Visitor σ ρ ς τ) (enabled enter : Path → Bool) (node : Node) :
    Prop where
  agrees : ∀ dir depth, VisitsRecognised (fun path => enabled path && enter path) dir node →
    traverseTests visitor enabled dir depth node = traverseGroup visitor enabled dir depth node
  raises : ∀ dir depth, ¬ VisitsRecognised (fun path => enabled path && enter path) dir node →
    Raises (traverseTests visitor enabled dir depth node)
  total : ∀ dir depth, Total (traverseGroup visitor enabled dir depth node)

/-- The intended loop over the subgroups returns. -/
theorem total_traverseEntries (h : visitor.Answers enter) {children : List Node}
    (hchildren : ∀ c ∈ children, c.isSubgroup = true → Decided visitor enabled enter c)
    (dir : Path) (depth : Nat) : Total (traverseEntries visitor enabled dir depth children) := by
  induction children with
  | nil => exact total_pure []
  | cons c rest ih =>
    have hrest := ih fun x hx => hchildren x (List.mem_cons_of_mem c hx)
    cases c with
    | dir name children =>
      have hc := hchildren _ List.mem_cons_self rfl
      rw [traverseEntries_dir]
      split
      · exact total_subgroupTurn h _ _ (fun _ => hc.total _ _) hrest
      · exact hrest
    | file name => exact hrest
    | other name => exact hrest

/-- The loop over the subgroups is the intended one or raises. -/
theorem traverseSubgroups_decided (h : visitor.Answers enter) {children : List Node}
    (hchildren : ∀ c ∈ children, c.isSubgroup = true → Decided visitor enabled enter c)
    (dir : Path) (depth : Nat) :
    (EntriesVisitRecognised (fun path => enabled path && enter path) dir children →
      traverseSubgroups visitor enabled dir depth children
        = traverseEntries visitor enabled dir depth children) ∧
    (¬ EntriesVisitRecognised (fun path => enabled path && enter path) dir children →
      Raises (traverseSubgroups visitor enabled dir depth children)) := by
  induction children with
  | nil =>
    exact ⟨fun _ => by rw [traverseSubgroups, traverseEntries], fun hnot => absurd trivial hnot⟩
  | cons c rest ih =>
    have hrest := ih fun x hx => hchildren x (List.mem_cons_of_mem c hx)
    cases c with
    | file name => exact hrest
    | other name => exact hrest
    | dir name children =>
      have hc := hchildren _ List.mem_cons_self rfl
      rw [EntriesVisitRecognised, traverseSubgroups_dir, traverseEntries_dir]
      cases henabled : enabled (DirEntry.of dir name).path with
      | false =>
        -- a disabled subgroup is skipped by both
        rw [if_neg Bool.false_ne_true, if_neg Bool.false_ne_true]
        refine ⟨fun hvisits => hrest.1 hvisits.2,
          fun hnot => hrest.2 fun hvisits => hnot ⟨?_, hvisits⟩⟩
        intro henter
        exact absurd henter Bool.false_ne_true
      | true =>
        rw [if_pos rfl, if_pos rfl]
        simp only [Bool.true_and]
        constructor
        · intro hvisits
          exact subgroupTurn_congr h _ _ (fun henter => hc.agrees _ _ (hvisits.1 henter))
            (hrest.1 hvisits.2)
        · intro hnot
          by_cases hfirst : enter (DirEntry.of dir name).path = true →
              VisitsRecognised (fun path => enabled path && enter path) (DirEntry.of dir name).path
                (.dir name children)
          · -- this subgroup returns, so one behind it raises
            refine raises_subgroupTurn_of_rest h _ _ (fun henter => ?_)
              (hrest.2 fun hvisits => hnot ⟨hfirst, hvisits⟩)
            rw [hc.agrees _ _ (hfirst henter)]
            exact hc.total _ _
          · obtain ⟨henter, hvisits⟩ := Classical.not_imp.mp hfirst
            exact raises_subgroupTurn h _ _ henter (hc.raises _ _ hvisits)

/-- A group of subgroups only, with the subgroup that its results are combined under. -/
theorem traverseTests_lastSubgroup (dir : Path) (depth : Nat) (name : List Char)
    {children : List Node} (hgroups : children.any Node.isSubgroup = true)
    (htests : children.any Node.isSubtest = false) :
    traverseTests visitor enabled dir depth (.dir name children) = (do
      let subgroupResults ← traverseSubgroups visitor enabled dir depth children
      visitor.combineSubgroupResults (lastSubgroup dir children) depth subgroupResults) := by
  obtain ⟨c, rest, hsub⟩ := exists_filter_of_any hgroups
  unfold lastSubgroup
  simp only [traverseTests, isEmpty_eq_false_of_any hgroups, filter_eq_nil_of_any htests, hsub,
    List.getLast?_cons, Bool.false_eq_true, if_false, Option.map_some, Option.getD_some]

/-- Every directory is decided. -/
theorem decided (h : visitor.Answers enter) (node : Node) : node.isSubgroup = true →
    Decided visitor enabled enter node := by
  induction node using Node.ind with
  | file name => exact fun hsub => absurd hsub Bool.false_ne_true
  | other name => exact fun hsub => absurd hsub Bool.false_ne_true
  | dir name children ih =>
    intro _
    cases hgroups : children.any Node.isSubgroup with
    | true =>
      cases htests : children.any Node.isSubtest with
      | true =>
        -- a mixed group is ignored
        refine ⟨fun dir depth _ => ?_, fun dir depth hnot => ?_, fun dir depth => ?_⟩
        · rw [traverseTests_mixed _ _ _ _ _ hgroups htests, traverseGroup, hgroups, htests]
          rfl
        · rw [VisitsRecognised, hgroups, htests] at hnot
          exact absurd
            ⟨fun _ => Or.inl rfl, fun hfalse => absurd hfalse.symm Bool.false_ne_true⟩ hnot
        · rw [traverseGroup, hgroups, htests]
          exact h.default
      | false =>
        refine ⟨fun dir depth hvisits => ?_, fun dir depth hnot => ?_, fun dir depth => ?_⟩
        · rw [VisitsRecognised] at hvisits
          rw [traverseTests_lastSubgroup dir depth name hgroups htests, traverseGroup,
            hgroups, htests,
            (traverseSubgroups_decided h ih dir depth).1 (hvisits.2 htests)]
          rfl
        · rw [VisitsRecognised] at hnot
          rw [traverseTests_lastSubgroup dir depth name hgroups htests]
          refine ((traverseSubgroups_decided h ih dir depth).2 fun hvisits => ?_).bind _
          exact hnot ⟨fun _ => Or.inl hgroups, fun _ => hvisits⟩
        · rw [traverseGroup, hgroups, htests]
          exact (total_traverseEntries h ih dir depth).bind fun results =>
            h.combineSubgroups _ depth results
    | false =>
      cases htests : children.any Node.isSubtest with
      | true =>
        refine ⟨fun dir depth _ => ?_, fun dir depth hnot => ?_, fun dir depth => ?_⟩
        · rw [traverseTests_tests _ _ _ _ _ hgroups htests, traverseGroup, hgroups, htests]
          rfl
        · rw [VisitsRecognised, hgroups, htests] at hnot
          exact absurd
            ⟨fun _ => Or.inr rfl, fun hfalse => absurd hfalse.symm Bool.false_ne_true⟩ hnot
        · rw [traverseGroup, hgroups, htests]
          exact (total_mapM (fun test => h.test _ _) _).bind fun results =>
            h.combineTests results depth
      | false =>
        cases children with
        | nil =>
          refine ⟨fun dir depth _ => ?_, fun dir depth hnot => ?_, fun dir depth => h.default⟩
          · rw [traverseTests_empty, traverseGroup]
            rfl
          · exact absurd ⟨fun hne => absurd rfl hne, fun _ => trivial⟩ hnot
        | cons c rest =>
          -- only unrecognised entries
          refine ⟨fun dir depth hvisits => ?_, fun dir depth _ => ?_, fun dir depth => ?_⟩
          · rw [VisitsRecognised, hgroups, htests] at hvisits
            rcases hvisits.1 (List.cons_ne_nil c rest) with hfalse | hfalse
            · exact absurd hfalse Bool.false_ne_true
            · exact absurd hfalse Bool.false_ne_true
          · rw [traverseTests_unrecognised _ _ _ _ _ hgroups htests]
            exact fun s => ⟨_, rfl⟩
          · rw [traverseGroup, hgroups, htests]
            exact h.default

/-- Exactly a visited group of unrecognised entries stops a traversal. -/
theorem traversesTotally_iff [Nonempty σ] (h : visitor.Answers enter) (enabled : Path → Bool)
    (dir : Path) (depth : Nat) (name : List Char) (children : List Node) :
    TraversesTotally visitor enabled dir depth (.dir name children) ↔
      VisitsRecognised (fun path => enabled path && enter path) dir (.dir name children) := by
  have hdecided : Decided visitor enabled enter (.dir name children) := decided h _ rfl
  constructor
  · intro htotal
    by_contra hnot
    exact htotal.returns.not_raises (hdecided.raises dir depth hnot)
  · intro hvisits
    have hagrees := hdecided.agrees dir depth hvisits
    refine ⟨?_, hagrees⟩
    rw [hagrees]
    exact hdecided.total dir depth

end

/-- The traversals of the three visitors: each of them returns, and is the intended one, exactly
when no group that it visits consists of unrecognised entries only. -/
theorem traverseTests_total_iff (weights : TestWeights) (testStrategy : Path → Nat → Nat)
    (archName : List Char) (enabled : Path → Bool) (dir : Path) (depth : Nat) (name : List Char)
    (children : List Node) :
    (TraversesTotally (evaluationVisitor weights testStrategy) enabled dir depth
      (.dir name children) ↔
      VisitsRecognised (enters weights enabled) dir (.dir name children)) ∧
    (TraversesTotally prettyPrintVisitor enabled dir depth (.dir name children) ↔
      VisitsRecognised enabled dir (.dir name children)) ∧
    (TraversesTotally (testGeneratingVisitor archName) enabled dir depth (.dir name children) ↔
      VisitsRecognised enabled dir (.dir name children)) := by
  have : Nonempty Evaluation := ⟨⟨[], []⟩⟩
  have hevaluation := traversesTotally_iff (answers_evaluationVisitor weights testStrategy) enabled
    dir depth name children
  have hprint := traversesTotally_iff answers_prettyPrintVisitor enabled dir depth name children
  have hgenerate := traversesTotally_iff (answers_testGeneratingVisitor archName) enabled dir depth
    name children
  simp only [Bool.and_true] at hprint hgenerate
  exact ⟨hevaluation, hprint, hgenerate⟩

/-- A group whose only entry is a readme, next to a group of tests. -/
theorem not_traversesTotally :
    (traverseTests prettyPrintVisitor (fun _ => true) "tests".toList 0 (.dir "tests".toList
      [.dir "a".toList [.file "README".toList], .dir "b".toList [.file "x.test".toList]])).run []
      = .error (.nameError "tests_covered") ∧
    ¬ ∀ (enabled : Path → Bool) (dir : Path) (depth : Nat) (name : List Char)
      (children : List Node), TraversesTotally prettyPrintVisitor enabled dir depth
        (.dir name children) := by
  have hraises : (traverseTests prettyPrintVisitor (fun _ => true) "tests".toList 0
      (.dir "tests".toList [.dir "a".toList [.file "README".toList],
        .dir "b".toList [.file "x.test".toList]])).run [] =
          .error (.nameError "tests_covered") := rfl
  refine ⟨hraises, fun h => ?_⟩
  obtain ⟨r, s', hrun⟩ := (h (fun _ => true) "tests".toList 0 "tests".toList
    [.dir "a".toList [.file "README".toList], .dir "b".toList [.file "x.test".toList]]).returns []
  rw [hraises] at hrun
  exact absurd hrun (by simp)

end VivadoTest.Host
