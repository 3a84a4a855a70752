import VivadoTest.Spec.Score
import Mathlib.Algebra.BigOperators.Ring.List
import Mathlib.Algebra.Order.BigOperators.Group.List
import Mathlib.Algebra.Order.BigOperators.GroupWithZero.List
import Mathlib.Tactic.Positivity
import Mathlib.Tactic.Linarith

/-!
# `VivadoTest.Proofs.Score`: the traversal computes the score

`Node.ind` is the induction over directory trees. Along it the traversal of an evaluation
computes the `score` of the leaf groups and runs their tests (`traverseTests_run`). An accepted
table gives the subgroups of a directory at most `100` together (`sum_weights_le`), so the score
is a percentage.

* `TestTree.evaluateTestScore_spec`: the score as a formula, its bounds, its independence of the
  order of entries, and its monotonicity.

## From the traversal to the sum

The traversal of the program is a loop in a loop with a visitor that keeps a state. `score` is a
sum over a list, with no order and no state. The way from the one to the other is one equation for
each form of a directory: mixed, with subgroups only, with tests only, and empty
(`traverseTests_mixed`, `traverseTests_subgroups`, `traverseTests_tests`, `traverseTests_empty`).
The sum obeys the same equations (`score_leafGroups`, `testsOf_leafGroups`), so an induction on the
tree makes them equal.

What follows is about the sum alone: that it lies between 0 and 100, that the order of the entries
does not change it (`score_reordered`, by induction on the way in which the trees were reordered),
and that passing more tests does not lower it (`score_mono`).
-/

set_option autoImplicit false

namespace VivadoTest.Host

open VivadoTest.Lib VivadoTest.Spec

/-! ### Induction over trees -/

mutual

/-- Induction over a tree: a property of all entries passes to their directory. -/
theorem Node.ind {P : Node → Prop}
    (dir : ∀ name children, (∀ c ∈ children, P c) → P (.dir name children))
    (file : ∀ name, P (.file name)) (other : ∀ name, P (.other name)) : ∀ node, P node
  | .dir name children => dir name children (Node.indEntries dir file other children)
  | .file name => file name
  | .other name => other name

/-- The entries of a directory, for the induction over a whole tree: what holds of every node when
it holds of its entries holds of the entries of every list. -/
theorem Node.indEntries {P : Node → Prop}
    (dir : ∀ name children, (∀ c ∈ children, P c) → P (.dir name children))
    (file : ∀ name, P (.file name)) (other : ∀ name, P (.other name)) :
    ∀ children : List Node, ∀ c ∈ children, P c
  | [], _, h => absurd h List.not_mem_nil
  | c :: rest, _, h => (List.mem_cons.mp h).elim
      (fun heq => heq ▸ Node.ind dir file other c)
      (fun hrest => Node.indEntries dir file other rest _ hrest)

end

/-- A list of entries is recognised when each of them is. -/
theorem allRecognised_iff {children : List Node} :
    AllRecognised children ↔ ∀ c ∈ children, Recognised c := by
  induction children with
  | nil => simp [AllRecognised]
  | cons c rest ih => simp [AllRecognised, ih]

/-- A list of entries is well formed when each of them is. -/
theorem allWellFormed_iff {children : List Node} :
    AllWellFormed children ↔ ∀ c ∈ children, WellFormed c := by
  induction children with
  | nil => simp [AllWellFormed]
  | cons c rest ih => simp [AllWellFormed, ih]

/-! ### One group -/

section
variable {σ ρ ς τ : Type} (visitor : Visitor σ ρ ς τ) (enabled : Path → Bool) (dir : Path)
  (depth : Nat) (name : List Char) {children : List Node}

/-- No entry of a kind: the list of them is empty. -/
theorem filter_eq_nil_of_any {p : Node → Bool} (h : children.any p = false) :
    children.filter p = [] := by
  rw [List.filter_eq_nil_iff]
  exact fun c hc => by simpa using (List.any_eq_false.mp h) c hc

/-- Some entry of a kind: the list of them has a first one. -/
theorem exists_filter_of_any {p : Node → Bool} (h : children.any p = true) :
    ∃ c rest, children.filter p = c :: rest := by
  obtain ⟨c, hc, hp⟩ := List.any_eq_true.mp h
  exact List.exists_cons_of_ne_nil (List.ne_nil_of_mem (List.mem_filter.mpr ⟨hc, hp⟩))

/-- A directory with an entry of some kind is not empty. -/
theorem isEmpty_eq_false_of_any {p : Node → Bool} (h : children.any p = true) :
    children.isEmpty = false := by
  cases children with
  | nil => exact absurd h Bool.false_ne_true
  | cons c rest => rfl

/-- An empty directory has the default value of the visitor. The source returns before it sorts
the entries. -/
theorem traverseTests_empty : traverseTests visitor enabled dir depth (.dir name [])
    = visitor.getDefaultRetValue := rfl

/-- A group with subgroups and tests is ignored. -/
theorem traverseTests_mixed (hgroups : children.any Node.isSubgroup = true)
    (htests : children.any Node.isSubtest = true) :
    traverseTests visitor enabled dir depth (.dir name children)
      = visitor.getDefaultRetValue := by
  obtain ⟨test, tests, hfilter⟩ := exists_filter_of_any htests
  obtain ⟨c, rest, hsub⟩ := exists_filter_of_any hgroups
  simp only [traverseTests, isEmpty_eq_false_of_any hgroups, hfilter, hsub,
    List.getLast?_cons, Bool.false_eq_true, if_false]

/-- A group with subgroups only. -/
theorem traverseTests_subgroups (hgroups : children.any Node.isSubgroup = true)
    (htests : children.any Node.isSubtest = false) :
    ∃ sg, traverseTests visitor enabled dir depth (.dir name children) = (do
      let subgroupResults ← traverseSubgroups visitor enabled dir depth children
      visitor.combineSubgroupResults sg depth subgroupResults) := by
  obtain ⟨c, rest, hsub⟩ := exists_filter_of_any hgroups
  refine ⟨.of dir (rest.getLast?.getD c).name, ?_⟩
  simp only [traverseTests, isEmpty_eq_false_of_any hgroups, filter_eq_nil_of_any htests, hsub,
    List.getLast?_cons, Bool.false_eq_true, if_false]

/-- A group with tests only. -/
theorem traverseTests_tests (hgroups : children.any Node.isSubgroup = false)
    (htests : children.any Node.isSubtest = true) :
    traverseTests visitor enabled dir depth (.dir name children) = (do
      let testResults ← (children.filter Node.isSubtest).mapM fun test =>
        visitor.visitTest (.of dir test.name) (depth + 1)
      visitor.combineTestResults testResults depth) := by
  obtain ⟨test, tests, hfilter⟩ := exists_filter_of_any htests
  simp only [traverseTests, isEmpty_eq_false_of_any htests, hfilter,
    filter_eq_nil_of_any hgroups, List.getLast?_nil, Bool.false_eq_true, if_false]

/-- A group with entries and without recognised ones. -/
theorem traverseTests_unrecognised {c : Node} {rest : List Node}
    (hgroups : (c :: rest).any Node.isSubgroup = false)
    (htests : (c :: rest).any Node.isSubtest = false) :
    traverseTests visitor enabled dir depth (.dir name (c :: rest))
      = throw (.nameError "tests_covered") := by
  simp only [traverseTests, List.isEmpty_cons, filter_eq_nil_of_any htests,
    filter_eq_nil_of_any hgroups, List.getLast?_nil, Bool.false_eq_true, if_false]

end

/-! ### The sum over leaf groups -/

section
variable (weights : TestWeights) (outcome enter : Path → Bool)

/-- The weight of a path, zero without an entry. -/
def weightOf (path : Path) : Int := (weights.lookup path).getD 0

/-- The score is a sum over the groups of tests, so groups may be scored apart. -/
theorem score_append (l l' : List LeafGroup) :
    score weights outcome enter (l ++ l')
      = score weights outcome enter l + score weights outcome enter l' := by
  unfold score
  rw [List.filter_append, List.map_append, List.sum_append]

/-- The tests of two lists of groups. -/
theorem testsOf_append (l l' : List LeafGroup) :
    testsOf enter (l ++ l') = testsOf enter l ++ testsOf enter l' := by
  unfold testsOf
  rw [List.filter_append, List.flatMap_append]

/-- A group below a directory counts when the group does and the directory is entered. -/
theorem counts_cons (path : Path) (leaf : LeafGroup) :
    LeafGroup.counts enter { leaf with chain := path :: leaf.chain }
      = (enter path && leaf.counts enter) := by
  unfold LeafGroup.counts
  rw [List.all_cons, Bool.and_left_comm]

/-- The leaf groups of a directory count below it if it is entered. -/
theorem filter_counts_cons (path : Path) (leaves : List LeafGroup) :
    (leaves.map fun leaf => { leaf with chain := path :: leaf.chain }).filter
        (LeafGroup.counts enter)
      = if enter path then
          (leaves.filter (LeafGroup.counts enter)).map fun leaf =>
            { leaf with chain := path :: leaf.chain }
        else [] := by
  rw [List.filter_map]
  cases h : enter path with
  | false =>
    rw [if_neg Bool.false_ne_true, List.map_eq_nil_iff, List.filter_eq_nil_iff]
    intro leaf _
    simp [counts_cons, h]
  | true =>
    rw [if_pos rfl]
    congr 1
    refine List.filter_congr fun leaf _ => ?_
    rw [Function.comp_apply, counts_cons, h, Bool.true_and]

/-- A directory passes its weighted share on. -/
theorem score_cons (path : Path) (leaves : List LeafGroup) :
    score weights outcome enter
        (leaves.map fun leaf => { leaf with chain := path :: leaf.chain })
      = if enter path then
          score weights outcome enter leaves * (weightOf weights path : Rat) / 100 else 0 := by
  unfold score
  rw [filter_counts_cons]
  cases enter path with
  | false => rfl
  | true =>
    rw [if_pos rfl, if_pos rfl, List.map_map, mul_div_assoc, ← List.sum_map_mul_right]
    congr 1
    refine List.map_congr_left fun leaf _ => ?_
    show leaf.percentage outcome * _ = leaf.percentage outcome * leaf.weight weights * _
    unfold LeafGroup.weight weightOf
    rw [List.map_cons, List.prod_cons]
    ring

/-- The tests below a directory that is entered are those of its groups, and no other directory
has any. -/
theorem testsOf_cons (path : Path) (leaves : List LeafGroup) :
    testsOf enter (leaves.map fun leaf => { leaf with chain := path :: leaf.chain })
      = if enter path then testsOf enter leaves else [] := by
  unfold testsOf
  rw [filter_counts_cons]
  cases enter path with
  | false => rfl
  | true => rw [if_pos rfl, if_pos rfl, List.flatMap_map]

/-- A mixed directory drops all leaf groups below it. -/
theorem filter_mixed (b : Bool) (leaves : List LeafGroup) :
    (leaves.map fun leaf => { leaf with mixed := leaf.mixed || b }).filter
        (LeafGroup.counts enter)
      = if b then [] else leaves.filter (LeafGroup.counts enter) := by
  cases b with
  | true =>
    rw [if_pos rfl, List.filter_eq_nil_iff]
    intro leaf hleaf
    obtain ⟨leaf', -, rfl⟩ := List.mem_map.mp hleaf
    simp [LeafGroup.counts]
  | false =>
    rw [if_neg Bool.false_ne_true]
    congr 1
    simp

/-- The score of a directory, by what is in it. -/
theorem score_leafGroups (dir : Path) (name : List Char) (children : List Node) :
    score weights outcome enter (leafGroups dir (.dir name children))
      = if children.any Node.isSubgroup then
          if children.any Node.isSubtest then 0
          else score weights outcome enter (leafGroupsBelow dir children)
        else if children.any Node.isSubtest then
          LeafGroup.percentage outcome ⟨[], false, subtestPaths dir children⟩
        else 0 := by
  unfold leafGroups
  cases children.any Node.isSubgroup with
  | true =>
    rw [if_pos rfl, if_pos rfl]
    unfold score
    rw [filter_mixed]
    cases children.any Node.isSubtest <;> rfl
  | false =>
    rw [if_neg Bool.false_ne_true, if_neg Bool.false_ne_true]
    cases children.any Node.isSubtest with
    | true => simp [score, LeafGroup.counts, LeafGroup.weight]
    | false => rfl

/-- The tests of a directory by its entries: those of its subgroups, or its own. A directory with
both kinds has none, since the traversal reports it instead. -/
theorem testsOf_leafGroups (dir : Path) (name : List Char) (children : List Node) :
    testsOf enter (leafGroups dir (.dir name children))
      = if children.any Node.isSubgroup then
          if children.any Node.isSubtest then []
          else testsOf enter (leafGroupsBelow dir children)
        else subtestPaths dir children := by
  unfold leafGroups
  cases children.any Node.isSubgroup with
  | true =>
    rw [if_pos rfl, if_pos rfl]
    unfold testsOf
    rw [filter_mixed]
    cases children.any Node.isSubtest <;> rfl
  | false =>
    rw [if_neg Bool.false_ne_true, if_neg Bool.false_ne_true]
    cases h : children.any Node.isSubtest with
    | true => simp [testsOf, LeafGroup.counts]
    | false =>
      have hnone : children.filter Node.isSubtest = [] := by
        rw [List.filter_eq_nil_iff]
        exact fun c hc => by simpa using (List.any_eq_false.mp h) c hc
      unfold subtestPaths
      rw [hnone]
      rfl

end

/-! ### The traversal -/

section
variable (weights : TestWeights) (outcome enabled : Path → Bool)

/-- Before a subgroup the visitor answers by the table of weights: a group with an entry is
entered. -/
theorem preorder_run (st : Path → Nat → Nat) (sg : DirEntry) (depth : Nat) (e : Evaluation) :
    ((evaluationVisitor weights st).visitSubgroupPreorder sg depth).run e
      = .ok (weighted weights sg.path, e) := rfl

/-- Behind a subgroup the visitor scales its percentage by its weight, and the subgroup is
covered. -/
theorem postorder_run (st : Path → Nat → Nat) {sg : DirEntry} {weight : Int}
    (h : weights.lookup sg.path = some weight) (depth : Nat) (result : Rat × List Path)
    (e : Evaluation) :
    ((evaluationVisitor weights st).visitSubgroupPostorder sg depth result).run e
      = .ok (result.1 * weight / 100,
        { e with testsCovered := e.testsCovered.insert sg.path }) := by
  simp only [evaluationVisitor, h]
  rfl

/-- A test is run, noted, and its points are the result. -/
theorem visitTest_run (st : Path → Nat → Nat) (test : DirEntry) (depth : Nat) (e : Evaluation) :
    ((evaluationVisitor weights st).visitTest test depth).run e
      = .ok (st test.path depth, { e with testsRun := e.testsRun ++ [test.path] }) := rfl

/-- The rest of a program behind a step that has succeeded. -/
theorem ok_bind {α β : Type} (a : α) (f : α → Except PyError β) : (Except.ok a >>= f) = f a := rfl

/-- The tests of a leaf group run one after the other. -/
theorem visitTests_run (dir : Path) (depth : Nat) (tests : List Node) (e : Evaluation) :
    (tests.mapM fun test => (evaluationVisitor weights (strategyOf outcome)).visitTest
        (.of dir test.name) depth).run e
      = .ok (tests.map fun test => (outcome (DirEntry.of dir test.name).path).toNat,
        { e with testsRun := e.testsRun ++ tests.map fun test => (DirEntry.of dir test.name).path })
      := by
  induction tests generalizing e with
  | nil =>
    rw [List.mapM_nil, List.map_nil, List.map_nil, List.append_nil]
    rfl
  | cons test tests ih =>
    rw [List.mapM_cons, StateT.run_bind, visitTest_run, ok_bind, StateT.run_bind, ih, ok_bind,
      List.map_cons, List.map_cons, List.append_assoc]
    rfl

/-- The percentage of a group: the sum of its points, out of one point for each of its tests. -/
theorem combineTests_eq (dir : Path) (children : List Node) :
    LeafGroup.percentage outcome ⟨[], false, subtestPaths dir children⟩
      = ((((children.filter Node.isSubtest).map fun test =>
          (outcome (DirEntry.of dir test.name).path).toNat).sum : Nat) : Rat) * 100
        / (((children.filter Node.isSubtest).map fun test =>
          (outcome (DirEntry.of dir test.name).path).toNat).length : Rat) := by
  have hcount : ∀ tests : List Node,
      (tests.map fun test => (DirEntry.of dir test.name).path).countP outcome
        = (tests.map fun test => (outcome (DirEntry.of dir test.name).path).toNat).sum := by
    intro tests
    induction tests with
    | nil => rfl
    | cons test tests ih =>
      rw [List.map_cons, List.countP_cons, ih, List.map_cons, List.sum_cons]
      cases outcome (DirEntry.of dir test.name).path <;> simp [Nat.add_comm]
  unfold LeafGroup.percentage subtestPaths
  rw [hcount, List.length_map, List.length_map, mul_comm]

/-- What a traversal of a directory computes. It fails in a directory with an unrecognised group
only. -/
def Traverses (node : Node) : Prop :=
  ∀ (dir : Path) (depth : Nat) (e : Evaluation),
    (∃ covered e',
      (traverseTests (evaluationVisitor weights (strategyOf outcome)) enabled dir depth node).run e
        = .ok ((score weights outcome (enters weights enabled) (leafGroups dir node), covered),
            e') ∧
      e'.testsRun
        = e.testsRun ++ testsOf (enters weights enabled) (leafGroups dir node)) ∨
    (¬ Recognised node ∧ ∃ error,
      (traverseTests (evaluationVisitor weights (strategyOf outcome)) enabled dir depth node).run e
        = .error error)

/-- The loop over the subgroups, when the traversals of the subgroups are as they should be. -/
theorem traverseSubgroups_run (dir : Path) (depth : Nat) {children : List Node}
    (h : ∀ c ∈ children, c.isSubgroup = true → Traverses weights outcome enabled c)
    (e : Evaluation) :
    (∃ results e',
      (traverseSubgroups (evaluationVisitor weights (strategyOf outcome)) enabled dir depth
        children).run e = .ok (results, e') ∧
      results.sum
        = score weights outcome (enters weights enabled) (leafGroupsBelow dir children) ∧
      e'.testsRun
        = e.testsRun ++ testsOf (enters weights enabled) (leafGroupsBelow dir children)) ∨
    (¬ AllRecognised children ∧ ∃ error,
      (traverseSubgroups (evaluationVisitor weights (strategyOf outcome)) enabled dir depth
        children).run e = .error error) := by
  induction children generalizing e with
  | nil => exact .inl ⟨[], e, rfl, rfl, (List.append_nil _).symm⟩
  | cons c rest ih =>
    have hrest := ih fun c hc => h c (List.mem_cons_of_mem _ hc)
    cases c with
    | file name => exact (hrest e).imp_right fun ⟨hnot, herror⟩ => ⟨fun hall => hnot hall.2, herror⟩
    | other name => exact (hrest e).imp_right fun ⟨hnot, herror⟩ =>
      ⟨fun hall => hnot hall.2, herror⟩
    | dir name children =>
      rw [leafGroupsBelow, score_append, testsOf_append, score_cons, testsOf_cons]
      simp only [traverseSubgroups]
      cases hin : enters weights enabled (DirEntry.of dir name).path with
      | false =>
        -- disabled, or without a weight
        have hskip := (hrest e).imp_right fun ⟨hnot, herror⟩ =>
          (⟨fun hall => hnot hall.2, herror⟩ :
            ¬ AllRecognised (.dir name children :: rest) ∧ _)
        rw [if_neg Bool.false_ne_true, if_neg Bool.false_ne_true, zero_add, List.nil_append]
        cases henabled : enabled (DirEntry.of dir name).path with
        | false =>
          rw [if_neg Bool.false_ne_true]
          exact hskip
        | true =>
          have hweight : weighted weights (DirEntry.of dir name).path = false := by
            simpa [enters, henabled] using hin
          rw [if_pos rfl, StateT.run_bind, preorder_run, ok_bind, hweight,
            if_neg Bool.false_ne_true]
          exact hskip
      | true =>
        obtain ⟨henabled, hweighted⟩ := Bool.and_eq_true_iff.mp hin
        obtain ⟨weight, hweight⟩ := Option.isSome_iff_exists.mp hweighted
        rw [henabled, if_pos rfl, StateT.run_bind, preorder_run, ok_bind, hweighted, if_pos rfl,
          StateT.run_bind]
        -- The subdirectory, then the rest of the loop: an error in either ends the evaluation.
        cases h _ List.mem_cons_self rfl (DirEntry.of dir name).path (depth + 1) e with
        | inr hfail =>
          obtain ⟨hnot, error, hrun⟩ := hfail
          exact .inr ⟨fun hall => hnot hall.1, error, by rw [hrun]; rfl⟩
        | inl hok =>
          obtain ⟨covered, e₁, hrun₁, htests₁⟩ := hok
          rw [hrun₁, ok_bind, StateT.run_bind, postorder_run weights _ hweight, ok_bind,
            StateT.run_bind]
          cases hrest { e₁ with
            testsCovered := e₁.testsCovered.insert (DirEntry.of dir name).path } with
          | inr hfail =>
            obtain ⟨hnot, error, hrun⟩ := hfail
            exact .inr ⟨fun hall => hnot hall.2, error, by rw [hrun]; rfl⟩
          | inl hok =>
            obtain ⟨results, e', hrun, hsum, htests⟩ := hok
            refine .inl ⟨score weights outcome (enters weights enabled)
              (leafGroups (DirEntry.of dir name).path (.dir name children)) * weight / 100
                :: results, e', ?_, ?_, ?_⟩
            · rw [hrun]
              rfl
            · rw [if_pos rfl, List.sum_cons, hsum, weightOf, hweight]
              rfl
            · rw [if_pos rfl, htests, htests₁, List.append_assoc]

/-- The traversal of a directory computes its score and runs its tests. -/
theorem traverseTests_run (node : Node) : node.isSubgroup = true →
    Traverses weights outcome enabled node := by
  induction node using Node.ind with
  | file name => exact fun h => absurd h Bool.false_ne_true
  | other name => exact fun h => absurd h Bool.false_ne_true
  | dir name children ih =>
    intro _ dir depth e
    rw [score_leafGroups, testsOf_leafGroups]
    -- The four forms of a directory, in the order in which the source tells them apart.
    cases hgroups : children.any Node.isSubgroup with
    | true =>
      rw [if_pos rfl, if_pos rfl]
      cases htests : children.any Node.isSubtest with
      | true =>
        rw [traverseTests_mixed _ _ _ _ _ hgroups htests, if_pos rfl, if_pos rfl]
        exact .inl ⟨_, e, rfl, (List.append_nil _).symm⟩
      | false =>
        obtain ⟨sg, htraverse⟩ := traverseTests_subgroups
          (evaluationVisitor weights (strategyOf outcome)) enabled dir depth name hgroups htests
        rw [htraverse, if_neg Bool.false_ne_true, if_neg Bool.false_ne_true, StateT.run_bind]
        cases traverseSubgroups_run weights outcome enabled dir depth ih e with
        | inl hok =>
          obtain ⟨results, e', hrun, hsum, hrest⟩ := hok
          refine .inl ⟨e'.testsCovered, e', ?_, hrest⟩
          rw [hrun, ok_bind, ← hsum]
          rfl
        | inr hfail =>
          obtain ⟨hnot, error, hrun⟩ := hfail
          exact .inr ⟨fun hrec => hnot hrec.2, error, by rw [hrun]; rfl⟩
    | false =>
      rw [if_neg Bool.false_ne_true, if_neg Bool.false_ne_true]
      cases htests : children.any Node.isSubtest with
      | true =>
        rw [traverseTests_tests _ _ _ _ _ hgroups htests, if_pos rfl]
        refine .inl ⟨e.testsCovered,
          { e with testsRun := e.testsRun ++ subtestPaths dir children }, ?_, rfl⟩
        rw [StateT.run_bind, visitTests_run, ok_bind, combineTests_eq]
        rfl
      | false =>
        cases children with
        | nil => exact .inl ⟨_, e, rfl, (List.append_nil _).symm⟩
        | cons c rest =>
          -- nothing is recognised
          refine .inr ⟨fun hrec => ?_, .nameError "tests_covered", ?_⟩
          · cases hrec.1 (List.cons_ne_nil c rest) with
            | inl h => exact Bool.false_ne_true (hgroups.symm.trans h)
            | inr h => exact Bool.false_ne_true (htests.symm.trans h)
          · rw [traverseTests_unrecognised _ _ _ _ _ hgroups htests]
            rfl

end

/-! ### The weight table -/

/-- The parent of an entry is its directory. -/
theorem parentKey_entry (dir : Path) {name : List Char} (h : '/' ∉ name) :
    parentKey (DirEntry.of dir name).path = dir := by
  unfold parentKey DirEntry.of
  rw [List.splitOn_append_cons_self, List.splitOn_eq_singleton h, List.dropLast_concat,
    List.intercalate_splitOn]

/-- In an accepted table the members of a group have `100` together. -/
theorem sum_weights_of_readTestWeights {file : List Char} {weights : TestWeights}
    (h : readTestWeights file = some weights) {d : Path} (hd : d ∈ weights.keys) :
    ((weights.keys.filter fun d' => parentKey d' = parentKey d).map (weightOf weights)).sum
      = 100 := by
  obtain ⟨pairs, -, h⟩ := Option.bind_eq_some_iff.mp h
  obtain ⟨_, hguard, hsome⟩ := Option.bind_eq_some_iff.mp h
  obtain rfl := Option.some.inj hsome
  clear h hsome
  generalize pairs.foldl (fun (weights : TestWeights) (pair : Path × Int) =>
    weights.insert pair.1 pair.2) ∅ = weights at hd hguard ⊢
  have hall := (Option.guard_eq_some' _).mp hguard
  have hperm := List.perm_insertionSort (fun a b => parentKey a ≤ parentKey b) weights.keys
  have : Std.Total fun a b : Path => parentKey a ≤ parentKey b :=
    ⟨fun a b => le_total (parentKey a) (parentKey b)⟩
  have : IsTrans Path fun a b => parentKey a ≤ parentKey b := ⟨fun _ _ _ => le_trans⟩
  have hsorted := List.pairwise_insertionSort (fun a b => parentKey a ≤ parentKey b) weights.keys
  obtain ⟨group, hgroup⟩ := exists_mem_groupBy parentKey (hperm.mem_iff.mpr hd)
  have hsum : (group.map (weightOf weights)).sum = 100 :=
    of_decide_eq_true (List.all_eq_true.mp hall _ hgroup)
  rw [groupBy_eq_filter parentKey hsorted hgroup] at hsum
  rw [← hsum]
  exact ((hperm.filter _).map _).sum_eq.symm

section
variable {weights : TestWeights} {outcome enter : Path → Bool}

/-- Different members of a group have at most `100` together. -/
theorem sum_weights_le (hsum : ∀ d ∈ weights.keys,
      ((weights.keys.filter fun d' => parentKey d' = parentKey d).map (weightOf weights)).sum = 100)
    (hnonneg : ∀ d, 0 ≤ weightOf weights d) {paths : List Path} (hnodup : paths.Nodup) {dir : Path}
    (hparent : ∀ d ∈ paths, parentKey d = dir) : (paths.map (weightOf weights)).sum ≤ 100 := by
  -- a path without an entry weighs nothing
  have hfilter : (paths.map (weightOf weights)).sum
      = ((paths.filter (weighted weights)).map (weightOf weights)).sum := by
    clear hnodup hparent
    induction paths with
    | nil => rfl
    | cons d paths ih =>
      cases hd : weighted weights d with
      | true => rw [List.filter_cons_of_pos hd, List.map_cons, List.map_cons, List.sum_cons,
          List.sum_cons, ih]
      | false =>
        have hzero : weightOf weights d = 0 := by
          have hnone : weights.lookup d = none := by simpa [weighted] using hd
          unfold weightOf
          rw [hnone]
          rfl
        rw [List.filter_cons_of_neg (by simp [hd]), List.map_cons, List.sum_cons, hzero, zero_add,
          ih]
  rw [hfilter]
  -- The entries of one directory are among the group of one of them in the weight table.
  cases hmembers : paths.filter (weighted weights) with
  | nil => simp
  | cons d rest =>
    have hd : d ∈ paths.filter (weighted weights) := hmembers ▸ List.mem_cons_self
    have hkey : d ∈ weights.keys :=
      AList.mem_keys.mp (AList.lookup_isSome.mp (List.mem_filter.mp hd).2)
    have hsub : (paths.filter (weighted weights)).Subperm
        (weights.keys.filter fun d' => parentKey d' = parentKey d) := by
      refine (hnodup.filter _).subperm fun d' hd' => ?_
      obtain ⟨hmem, hentry⟩ := List.mem_filter.mp hd'
      refine List.mem_filter.mpr ⟨AList.mem_keys.mp (AList.lookup_isSome.mp hentry), ?_⟩
      rw [hparent d' hmem, hparent d (List.mem_filter.mp hd).1]
      exact decide_eq_true rfl
    obtain ⟨l, hl, hsublist⟩ := hsub
    rw [← hmembers, ← hsum d hkey, ← (hl.map _).sum_eq]
    refine (hsublist.map _).sum_le_sum fun w hw => ?_
    obtain ⟨d', -, rfl⟩ := List.mem_map.mp hw
    exact hnonneg d'

/-! ### Bounds -/

/-- The score of the subdirectories, one by one. -/
theorem score_leafGroupsBelow (dir : Path) (children : List Node) :
    score weights outcome enter (leafGroupsBelow dir children)
      = ((children.filter Node.isSubgroup).map fun c =>
          if enter (DirEntry.of dir c.name).path then
            score weights outcome enter (leafGroups (DirEntry.of dir c.name).path c)
              * (weightOf weights (DirEntry.of dir c.name).path : Rat) / 100 else 0).sum := by
  induction children with
  | nil => rfl
  | cons c rest ih =>
    cases c with
    | file name => exact ih
    | other name => exact ih
    | dir name children =>
      rw [leafGroupsBelow, score_append, score_cons, ih,
        List.filter_cons_of_pos (show Node.isSubgroup (.dir name children) = true from rfl),
        List.map_cons, List.sum_cons]
      rfl

/-- The percentage of a leaf group. -/
theorem percentage_bounds (outcome : Path → Bool) (leaf : LeafGroup) :
    0 ≤ leaf.percentage outcome ∧ leaf.percentage outcome ≤ 100 := by
  have hle : (leaf.tests.countP outcome : Rat) ≤ (leaf.tests.length : Rat) := by
    exact_mod_cast List.countP_le_length
  unfold LeafGroup.percentage
  refine ⟨by positivity, ?_⟩
  refine div_le_of_le_mul₀ (by positivity) (by norm_num) ?_
  linarith

/-- The subgroups of a directory have at most `100` together. -/
theorem sum_entries_le (hsum : ∀ d ∈ weights.keys,
      ((weights.keys.filter fun d' => parentKey d' = parentKey d).map (weightOf weights)).sum = 100)
    (hnonneg : ∀ d, 0 ≤ weightOf weights d) {dir : Path} {children : List Node}
    (hchildren : (children.map Node.name).Nodup ∧ ∀ c ∈ children, IsEntryName c.name) :
    ((children.filter Node.isSubgroup).map fun c =>
      (weightOf weights (DirEntry.of dir c.name).path : Rat)).sum ≤ 100 := by
  -- Different names make different paths, all of them with the directory as their parent.
  have hnodup : ((children.filter Node.isSubgroup).map fun c =>
      (DirEntry.of dir c.name).path).Nodup := by
    rw [show (fun c : Node => (DirEntry.of dir c.name).path)
      = (fun name => (DirEntry.of dir name).path) ∘ Node.name from rfl, ← List.map_map]
    refine List.Nodup.map ?_ ((List.filter_sublist.map Node.name).nodup hchildren.1)
    intro a b hab
    simpa [DirEntry.of] using hab
  have hparent : ∀ d ∈ (children.filter Node.isSubgroup).map fun c =>
      (DirEntry.of dir c.name).path, parentKey d = dir := by
    intro d hd
    obtain ⟨c, hc, rfl⟩ := List.mem_map.mp hd
    exact parentKey_entry dir (hchildren.2 c (List.mem_of_mem_filter hc)).2.2
  have hpaths := sum_weights_le hsum hnonneg hnodup hparent
  rw [List.map_map] at hpaths
  -- The table holds integers, the score is rational.
  have hcast : (((children.filter Node.isSubgroup).map fun c =>
      (weightOf weights (DirEntry.of dir c.name).path : Rat)).sum)
      = (((children.filter Node.isSubgroup).map
        (weightOf weights ∘ fun c => (DirEntry.of dir c.name).path)).sum : Int) := by
    refine Eq.trans ?_ (map_list_sum (Int.castAddHom Rat) _).symm
    rw [List.map_map]
    rfl
  rw [hcast]
  exact_mod_cast hpaths

/-- The score of a directory is a percentage. -/
theorem score_bounds (hsum : ∀ d ∈ weights.keys,
      ((weights.keys.filter fun d' => parentKey d' = parentKey d).map (weightOf weights)).sum = 100)
    (hnonneg : ∀ d, 0 ≤ weightOf weights d) (node : Node) : WellFormed node → ∀ dir,
    0 ≤ score weights outcome enter (leafGroups dir node) ∧
      score weights outcome enter (leafGroups dir node) ≤ 100 := by
  induction node using Node.ind with
  | file name => exact fun _ dir => ⟨le_rfl, by simp [leafGroups, score]⟩
  | other name => exact fun _ dir => ⟨le_rfl, by simp [leafGroups, score]⟩
  | dir name children ih =>
    rintro ⟨hnodup, hnames, hall⟩ dir
    rw [allWellFormed_iff] at hall
    have hbelow : 0 ≤ score weights outcome enter (leafGroupsBelow dir children) ∧
        score weights outcome enter (leafGroupsBelow dir children) ≤ 100 := by
      rw [score_leafGroupsBelow]
      -- A subdirectory contributes at most its weight, and the weights sum to at most `100`.
      have hterm : ∀ c ∈ children, 0 ≤ (if enter (DirEntry.of dir c.name).path then
            score weights outcome enter (leafGroups (DirEntry.of dir c.name).path c)
              * (weightOf weights (DirEntry.of dir c.name).path : Rat) / 100 else 0) ∧
          (if enter (DirEntry.of dir c.name).path then
            score weights outcome enter (leafGroups (DirEntry.of dir c.name).path c)
              * (weightOf weights (DirEntry.of dir c.name).path : Rat) / 100 else 0)
            ≤ (weightOf weights (DirEntry.of dir c.name).path : Rat) := by
        intro c hc
        obtain ⟨hlow, hhigh⟩ := ih c hc (hall c hc) (DirEntry.of dir c.name).path
        have hw : (0 : Rat) ≤ (weightOf weights (DirEntry.of dir c.name).path : Rat) := by
          exact_mod_cast hnonneg _
        split
        · refine ⟨by positivity, ?_⟩
          have := mul_le_mul_of_nonneg_right hhigh hw
          linarith
        · exact ⟨le_rfl, hw⟩
      constructor
      · refine List.sum_nonneg fun x hx => ?_
        obtain ⟨c, hc, rfl⟩ := List.mem_map.mp hx
        exact (hterm c (List.mem_of_mem_filter hc)).1
      · -- the weights of the subgroups bound the sum
        exact (List.sum_le_sum fun c hc => (hterm c (List.mem_of_mem_filter hc)).2).trans
          (sum_entries_le hsum hnonneg ⟨hnodup, hnames⟩)
    -- A directory's score is zero, that of its subgroups, or that of its tests.
    rw [score_leafGroups]
    split_ifs
    · norm_num
    · exact hbelow
    · exact percentage_bounds outcome _
    · norm_num

end

/-! ### The order of entries -/

/-- What a directory shows of an entry. -/
def Node.kind (c : Node) : List Char × Bool × Bool := (c.name, c.isSubgroup, c.isSubtest)

/-- An entry keeps its kind when what is below it is put in another order. -/
theorem kind_eq {node node' : Node} (h : Reordered node node') : node.kind = node'.kind := by
  cases h with
  | file name => rfl
  | other name => rfl
  | dir name h => rfl

/-- The kinds of the entries of a directory, in any order of them. -/
theorem kinds_perm {children children' : List Node} (h : ReorderedEntries children children') :
    (children.map Node.kind).Perm (children'.map Node.kind) := by
  match h with
  | .nil => exact .nil
  | .cons h hrest =>
    rw [List.map_cons, List.map_cons, kind_eq h]
    exact (kinds_perm hrest).cons _
  | .swap a b rest => exact .swap _ _ _
  | .trans h₁ h₂ => exact (kinds_perm h₁).trans (kinds_perm h₂)

section
variable {children children' : List Node} (h : ReorderedEntries children children')
include h

/-- Whether a directory has subgroups does not depend on their order. -/
theorem any_isSubgroup_eq : children.any Node.isSubgroup = children'.any Node.isSubgroup := by
  have hany : ∀ l : List Node, l.any Node.isSubgroup = (l.map Node.kind).any fun k => k.2.1 :=
    fun l => by rw [List.any_map]; rfl
  rw [hany, hany, (kinds_perm h).any_eq]

/-- Nor whether it has tests. -/
theorem any_isSubtest_eq : children.any Node.isSubtest = children'.any Node.isSubtest := by
  have hany : ∀ l : List Node, l.any Node.isSubtest = (l.map Node.kind).any fun k => k.2.2 :=
    fun l => by rw [List.any_map]; rfl
  rw [hany, hany, (kinds_perm h).any_eq]

/-- The tests of a reordered directory. -/
theorem subtestPaths_perm (dir : Path) :
    (subtestPaths dir children).Perm (subtestPaths dir children') := by
  have hpaths : ∀ l : List Node, subtestPaths dir l
      = ((l.map Node.kind).filter fun k => k.2.2).map fun k => (DirEntry.of dir k.1).path := by
    intro l
    rw [List.filter_map, List.map_map]
    rfl
  rw [hpaths, hpaths]
  exact ((kinds_perm h).filter _).map _

end

section
variable {weights : TestWeights} {outcome enter : Path → Bool}

/-- The score below a directory, entry by entry: a subgroup that is entered adds its own score,
scaled by its weight. -/
theorem scoreBelow_cons (dir : Path) (c : Node) (rest : List Node) :
    score weights outcome enter (leafGroupsBelow dir (c :: rest))
      = (if c.isSubgroup && enter (DirEntry.of dir c.name).path then
          score weights outcome enter (leafGroups (DirEntry.of dir c.name).path c)
            * (weightOf weights (DirEntry.of dir c.name).path : Rat) / 100 else 0)
        + score weights outcome enter (leafGroupsBelow dir rest) := by
  cases c with
  | file name => exact (zero_add _).symm
  | other name => exact (zero_add _).symm
  | dir name children =>
    rw [leafGroupsBelow, score_append, score_cons]
    rfl

mutual

/-- The order of entries does not change a score. -/
theorem score_reordered {node node' : Node} (h : Reordered node node') (dir : Path) :
    score weights outcome enter (leafGroups dir node)
      = score weights outcome enter (leafGroups dir node') := by
  match h with
  | .file name => rfl
  | .other name => rfl
  | .dir name h =>
    have hbelow := scoreBelow_reordered h dir
    have htests := subtestPaths_perm h dir
    rw [score_leafGroups, score_leafGroups, any_isSubgroup_eq h, any_isSubtest_eq h, hbelow]
    unfold LeafGroup.percentage
    rw [htests.countP_eq, htests.length_eq]

/-- The score below a directory is a sum over its entries, so their order does not matter. It is
the mutual part of `score_reordered`. -/
theorem scoreBelow_reordered {children children' : List Node}
    (h : ReorderedEntries children children') (dir : Path) :
    score weights outcome enter (leafGroupsBelow dir children)
      = score weights outcome enter (leafGroupsBelow dir children') := by
  match h with
  | .nil => rfl
  | @ReorderedEntries.cons c c' _ _ h hrest =>
    obtain ⟨hname, hgroup, -⟩ : c.name = c'.name ∧ c.isSubgroup = c'.isSubgroup ∧ _ := by
      simpa [Node.kind] using kind_eq h
    rw [scoreBelow_cons, scoreBelow_cons, hname, hgroup, score_reordered h,
      scoreBelow_reordered hrest]
  | .swap a b rest =>
    rw [score_leafGroupsBelow, score_leafGroupsBelow]
    exact (((List.Perm.swap a b rest).filter _).map _).sum_eq
  | .trans h₁ h₂ => exact (scoreBelow_reordered h₁ dir).trans (scoreBelow_reordered h₂ dir)

end

mutual

/-- A tree that is put in another order is recognised as before. -/
theorem recognised_reordered {node node' : Node} (h : Reordered node node') :
    Recognised node → Recognised node' := by
  match h with
  | .file name => exact id
  | .other name => exact id
  | .dir name h =>
    rintro ⟨hentries, hall⟩
    refine ⟨fun hne => ?_, allRecognised_reordered h hall⟩
    rw [← any_isSubgroup_eq h, ← any_isSubtest_eq h]
    refine hentries fun heq => hne ?_
    have hperm := kinds_perm h
    rw [heq, List.map_nil] at hperm
    exact List.map_eq_nil_iff.mp hperm.nil_eq.symm

/-- The same for the entries of a directory. -/
theorem allRecognised_reordered {children children' : List Node}
    (h : ReorderedEntries children children') :
    AllRecognised children → AllRecognised children' := by
  match h with
  | .nil => exact id
  | .cons h hrest =>
    exact fun hall => ⟨recognised_reordered h hall.1, allRecognised_reordered hrest hall.2⟩
  | .swap a b rest => exact fun hall => ⟨hall.2.1, hall.1, hall.2.2⟩
  | .trans h₁ h₂ => exact fun hall => allRecognised_reordered h₂ (allRecognised_reordered h₁ hall)

end

end

/-! ### Passing more tests -/

section
variable {weights : TestWeights} {outcome outcome' enter : Path → Bool}

/-- More tests that succeed do not lower the percentage of a group. -/
theorem percentage_mono (h : ∀ test, outcome test = true → outcome' test = true)
    (leaf : LeafGroup) : leaf.percentage outcome ≤ leaf.percentage outcome' := by
  have hcount : (leaf.tests.countP outcome : Rat) ≤ (leaf.tests.countP outcome' : Rat) := by
    exact_mod_cast List.countP_mono_left fun test _ => h test
  unfold LeafGroup.percentage
  gcongr

/-- The weight of a group is a product of weights, which are not negative here. -/
theorem weight_nonneg (hnonneg : ∀ d, 0 ≤ weightOf weights d) (leaf : LeafGroup) :
    0 ≤ leaf.weight weights := by
  unfold LeafGroup.weight
  refine List.prod_nonneg fun x hx => ?_
  obtain ⟨path, -, rfl⟩ := List.mem_map.mp hx
  have hw : (0 : Rat) ≤ (weightOf weights path : Rat) := by exact_mod_cast hnonneg path
  exact div_nonneg hw (by norm_num)

/-- Passing more tests does not lower a score. -/
theorem score_mono (hnonneg : ∀ d, 0 ≤ weightOf weights d)
    (h : ∀ test, outcome test = true → outcome' test = true) (leaves : List LeafGroup) :
    score weights outcome enter leaves ≤ score weights outcome' enter leaves := by
  unfold score
  refine List.sum_le_sum fun leaf _ => ?_
  exact mul_le_mul_of_nonneg_right (percentage_mono h leaf) (weight_nonneg hnonneg leaf)

end

/-! ### The score of a tree -/

/-- An evaluation returns the score of the leaf groups that it enters, and fails with an
unrecognised group only. -/
theorem TestTree.evaluateTestScore_run (tree : TestTree) (hroot : tree.root.isSubgroup = true)
    (outcome : Path → Bool) :
    (∃ result, tree.evaluateTestScore (strategyOf outcome) = .ok result ∧
      result.totalPoints = score tree.testWeights outcome
        (enters tree.testWeights tree.isSubgroupPathEnabled) (leafGroups tree.testDir tree.root) ∧
      result.testsRun = testsOf (enters tree.testWeights tree.isSubgroupPathEnabled)
        (leafGroups tree.testDir tree.root)) ∨
    (¬ Recognised tree.root ∧ ∃ error,
      tree.evaluateTestScore (strategyOf outcome) = .error error) := by
  unfold TestTree.evaluateTestScore
  cases traverseTests_run tree.testWeights outcome tree.isSubgroupPathEnabled tree.root hroot
    tree.testDir 0 ⟨[], []⟩ with
  | inl hok =>
    obtain ⟨covered, e', hrun, htests⟩ := hok
    rw [hrun]
    exact .inl ⟨_, rfl, rfl, htests⟩
  | inr hfail =>
    obtain ⟨hnot, error, hrun⟩ := hfail
    rw [hrun]
    exact .inr ⟨hnot, error, rfl⟩

/-- Without disabled subtrees an evaluation enters what has a weight. -/
theorem TestTree.evaluateTestScore_of_recognised (tree : TestTree)
    (hroot : tree.root.isSubgroup = true) (hrec : Recognised tree.root)
    (hdisabled : tree.disabledSubtrees = []) (outcome : Path → Bool) :
    ∃ result, tree.evaluateTestScore (strategyOf outcome) = .ok result ∧
      result.totalPoints = score tree.testWeights outcome (weighted tree.testWeights)
        (leafGroups tree.testDir tree.root) := by
  have henters :
    enters tree.testWeights tree.isSubgroupPathEnabled = weighted tree.testWeights := by
    funext path
    unfold enters TestTree.isSubgroupPathEnabled
    rw [hdisabled]
    rfl
  obtain ⟨result, hrun, hscore, -⟩ := (tree.evaluateTestScore_run hroot outcome).resolve_right
    fun h => h.1 hrec
  rw [henters] at hscore
  exact ⟨result, hrun, hscore⟩

/-- **The score is the weighted fraction of the passed tests.** It is a percentage, it does not
depend on the order in which directories list their entries, and it does not fall when more tests
pass. -/
theorem TestTree.evaluateTestScore_spec (tree : TestTree) {testwFile : List Char}
    (hweights : readTestWeights testwFile = some tree.testWeights)
    (hnonneg : ∀ path weight, tree.testWeights.lookup path = some weight → 0 ≤ weight)
    (hroot : tree.root.isSubgroup = true) (hwell : WellFormed tree.root)
    (hrec : Recognised tree.root) (hdisabled : tree.disabledSubtrees = []) (outcome : Path → Bool) :
    ∃ result, tree.evaluateTestScore (strategyOf outcome) = .ok result ∧
      result.totalPoints = score tree.testWeights outcome (weighted tree.testWeights)
        (leafGroups tree.testDir tree.root) ∧
      0 ≤ result.totalPoints ∧ result.totalPoints ≤ 100 ∧
      (∀ root', Reordered tree.root root' →
        ∃ result', TestTree.evaluateTestScore { tree with root := root' } (strategyOf outcome)
          = .ok result' ∧ result'.totalPoints = result.totalPoints) ∧
      ∀ outcome' : Path → Bool, (∀ test, outcome test = true → outcome' test = true) →
        ∃ result', tree.evaluateTestScore (strategyOf outcome') = .ok result' ∧
          result.totalPoints ≤ result'.totalPoints := by
  -- The evaluation computes the score, so the bounds, the order and the monotonicity are those
  -- of `score`.
  obtain ⟨result, hrun, hscore⟩ := tree.evaluateTestScore_of_recognised hroot hrec hdisabled outcome
  have hpos : ∀ d, 0 ≤ weightOf tree.testWeights d := by
    intro d
    unfold weightOf
    cases h : tree.testWeights.lookup d with
    | none => exact le_rfl
    | some weight => exact hnonneg d weight h
  obtain ⟨hlow, hhigh⟩ := @score_bounds tree.testWeights outcome (weighted tree.testWeights)
    (fun d hd => sum_weights_of_readTestWeights hweights hd) hpos tree.root hwell tree.testDir
  refine ⟨result, hrun, hscore, hscore ▸ hlow, hscore ▸ hhigh, ?_, ?_⟩
  · intro root' hreorder
    have hroot' : root'.isSubgroup = true := by
      have hkind := kind_eq hreorder
      simp only [Node.kind, Prod.mk.injEq] at hkind
      exact hkind.2.1 ▸ hroot
    obtain ⟨result', hrun', hscore'⟩ := TestTree.evaluateTestScore_of_recognised
      { tree with root := root' }
      hroot' (recognised_reordered hreorder hrec) hdisabled outcome
    exact ⟨result', hrun', by rw [hscore', hscore, score_reordered hreorder]⟩
  · intro outcome' hmore
    obtain ⟨result', hrun', hscore'⟩ :=
      tree.evaluateTestScore_of_recognised hroot hrec hdisabled outcome'
    refine ⟨result', hrun', ?_⟩
    rw [hscore, hscore']
    exact score_mono hpos hmore _

/-- A group with one test next to an empty group. -/
theorem TestTree.evaluateTestScore_spec_twoGroups :
    ∃ weights result, readTestWeights "tests/a 40\ntests/b 60\n".toList = some weights ∧
      TestTree.evaluateTestScore ⟨"tests".toList, .dir "tests".toList
        [.dir "a".toList [.file "x.test".toList], .dir "b".toList []], [], weights⟩
        (strategyOf fun _ => true) = .ok result ∧ result.totalPoints ≤ 100 := by
  have hentries : (readTestWeights "tests/a 40\ntests/b 60\n".toList).map AList.entries
      = some [⟨"tests/b".toList, 60⟩, ⟨"tests/a".toList, 40⟩] := by decide +kernel
  obtain ⟨weights, hread, hentries⟩ := Option.map_eq_some_iff.mp hentries
  have hnonneg : ∀ path weight, weights.lookup path = some weight → 0 ≤ weight := by
    intro path weight h
    have hmem := AList.mem_lookup_iff.mp h
    rw [hentries] at hmem
    simp only [List.mem_cons, Sigma.mk.injEq, heq_eq_eq, List.not_mem_nil, or_false] at hmem
    omega
  obtain ⟨result, hrun, -, -, hhigh, -⟩ := TestTree.evaluateTestScore_spec
    ⟨"tests".toList, .dir "tests".toList [.dir "a".toList [.file "x.test".toList],
      .dir "b".toList []], [], weights⟩ hread hnonneg rfl
    (by simp [WellFormed, AllWellFormed, Node.name, IsEntryName])
    (by simp [Recognised, AllRecognised, Node.isSubgroup, Node.isSubtest]) rfl (fun _ => true)
  exact ⟨weights, result, hread, hrun, hhigh⟩

end VivadoTest.Host
