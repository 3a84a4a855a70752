import VivadoTest.Spec.Disabled
import VivadoTest.Proofs.Score

/-!
# `VivadoTest.Proofs.Disabled`: when disabled subtrees disable what they should

The traversal compares the texts of paths. What it skips is what it should skip exactly when no
disabled subtree stops inside a component of a subgroup's path, up to the spelling of the disabled
paths (`TestTree.disablesExactly_iff`).

## The condition

The source tests `path.startswith(disabled)`. It takes out a path whose text goes on behind the
disabled one in the middle of a name, and it misses a disabled path that is spelled in another way
than the traversal spells it, with a slash at its end for example. `Separated` excludes both, for
the subgroups that are met.

The traversal starts in the root and does not ask whether it is enabled. If the root holds tests
itself (`isLeafGroup`) they are run whatever is disabled, so no disabled subtree may contain the
root then.

* `Placed`: where the leaf groups and their tests lie.
* `counts_enters`: the groups that count, when the traversal skips what is disabled.
* `TestTree.not_disablesExactly_jumpTree`: `tests/j` takes `tests/jal` out.
-/

set_option autoImplicit false

namespace VivadoTest.Host

open VivadoTest.Lib VivadoTest.Spec

/-! ### The leaf groups of a tree -/

/-- A directory above a chain does not change which directory runs the tests: the last one of the
chain, or the one entered where the chain is empty. -/
theorem group_cons (dir path : Path) (leaf : LeafGroup) :
    LeafGroup.group dir { leaf with chain := path :: leaf.chain } = leaf.group path := by
  unfold LeafGroup.group
  rw [List.getLast?_cons, Option.getD_some]

/-- A leaf group of a directory comes from below it, and is then mixed if the directory has tests
too, or it is the directory itself with its tests. -/
theorem mem_leafGroups {dir : Path} {name : List Char} {children : List Node} {leaf : LeafGroup}
    (h : leaf ∈ leafGroups dir (.dir name children)) :
    (∃ leaf' ∈ leafGroupsBelow dir children,
      leaf = { leaf' with mixed := leaf'.mixed || children.any Node.isSubtest }) ∨
    (isLeafGroup (.dir name children) = true ∧ leaf = ⟨[], false, subtestPaths dir children⟩) := by
  unfold leafGroups at h
  cases hgroups : children.any Node.isSubgroup with
  | true =>
    rw [hgroups, if_pos rfl] at h
    obtain ⟨leaf', hleaf, rfl⟩ := List.mem_map.mp h
    exact .inl ⟨leaf', hleaf, rfl⟩
  | false =>
    rw [hgroups, if_neg Bool.false_ne_true] at h
    cases htests : children.any Node.isSubtest with
    | true =>
      rw [htests, if_pos rfl] at h
      exact .inr ⟨by simp only [isLeafGroup, hgroups, htests]; rfl, List.mem_singleton.mp h⟩
    | false =>
      rw [htests, if_neg Bool.false_ne_true] at h
      cases h

/-- A leaf group from below comes from one of the entries, with that entry put on its chain. -/
theorem mem_leafGroupsBelow {dir : Path} {children : List Node} {leaf : LeafGroup}
    (h : leaf ∈ leafGroupsBelow dir children) :
    ∃ name l, Node.dir name l ∈ children ∧
      ∃ leaf' ∈ leafGroups (DirEntry.of dir name).path (.dir name l),
        leaf = { leaf' with chain := (DirEntry.of dir name).path :: leaf'.chain } := by
  induction children with
  | nil => cases h
  | cons c rest ih =>
    have hrest (h : leaf ∈ leafGroupsBelow dir rest) : ∃ name l, Node.dir name l ∈ c :: rest ∧
        ∃ leaf' ∈ leafGroups (DirEntry.of dir name).path (.dir name l),
          leaf = { leaf' with chain := (DirEntry.of dir name).path :: leaf'.chain } := by
      obtain ⟨name, l, hmem, hleaf⟩ := ih h
      exact ⟨name, l, List.mem_cons_of_mem c hmem, hleaf⟩
    cases c with
    | file name => exact hrest h
    | other name => exact hrest h
    | dir name l =>
      unfold leafGroupsBelow at h
      cases List.mem_append.mp h with
      | inl h =>
        obtain ⟨leaf', hleaf, rfl⟩ := List.mem_map.mp h
        exact ⟨name, l, List.mem_cons_self, leaf', hleaf, rfl⟩
      | inr h => exact hrest h

/-- A subdirectory is met, and what is met in it when it is enabled. -/
theorem mem_subgroupsMetBelow {enabled : Path → Bool} {dir : Path} {children : List Node}
    {name : List Char} {l : List Node} (h : .dir name l ∈ children) :
    (DirEntry.of dir name).path ∈ subgroupsMetBelow enabled dir children ∧
      (enabled (DirEntry.of dir name).path = true →
        ∀ path ∈ subgroupsMet enabled (DirEntry.of dir name).path (.dir name l),
          path ∈ subgroupsMetBelow enabled dir children) := by
  induction children with
  | nil => cases h
  | cons c rest ih =>
    cases List.mem_cons.mp h with
    | inl heq =>
      subst heq
      unfold subgroupsMetBelow
      refine ⟨List.mem_cons_self, fun henabled path hpath => ?_⟩
      rw [henabled, if_pos rfl]
      exact List.mem_cons_of_mem _ (List.mem_append_left _ hpath)
    | inr hmem =>
      obtain ⟨hself, hbelow⟩ := ih hmem
      -- The entries in front of the subdirectory add paths and take none away.
      have hsub : ∀ path ∈ subgroupsMetBelow enabled dir rest,
          path ∈ subgroupsMetBelow enabled dir (c :: rest) := by
        intro path hpath
        cases c with
        | file name => exact hpath
        | other name => exact hpath
        | dir name l =>
          unfold subgroupsMetBelow
          exact List.mem_append_right _ hpath
      exact ⟨hsub _ hself, fun henabled path hpath => hsub _ (hbelow henabled path hpath)⟩

/-- Where a leaf group of `dir` is, and where its tests are. -/
structure Placed (dir : Path) (leaf : LeafGroup) : Prop where
  ne_nil : leaf.group dir ≠ []
  under : ∀ d, Under d dir → Under d (leaf.group dir)
  tests : ∀ test ∈ leaf.tests, ∃ name, IsEntryName name ∧ test = leaf.group dir ++ '/' :: name

/-- Every leaf group lies where the traversal finds it. By induction on the tree; the directory's
path is the place so far. -/
theorem placed_of_mem (node : Node) : WellFormed node → ∀ {dir : Path}, dir ≠ [] →
    ∀ leaf ∈ leafGroups dir node, Placed dir leaf := by
  induction node using Node.ind with
  | file name => exact fun _ _ _ leaf h => absurd h List.not_mem_nil
  | other name => exact fun _ _ _ leaf h => absurd h List.not_mem_nil
  | dir name children ih =>
    rintro ⟨-, hnames, hall⟩ dir hdir leaf hleaf
    rw [allWellFormed_iff] at hall
    cases mem_leafGroups hleaf with
    -- The directory itself: its tests are its entries.
    | inr h =>
      obtain ⟨-, rfl⟩ := h
      refine ⟨hdir, fun d h => h, fun test htest => ?_⟩
      obtain ⟨c, hc, rfl⟩ := List.mem_map.mp htest
      exact ⟨c.name, hnames c (List.mem_of_mem_filter hc), rfl⟩
    -- A group below it: the entry's directory is on the way to it.
    | inl h =>
      obtain ⟨leaf₁, hleaf₁, rfl⟩ := h
      obtain ⟨name, l, hmem, leaf', hleaf', rfl⟩ := mem_leafGroupsBelow hleaf₁
      have hpath : (DirEntry.of dir name).path ≠ [] := by simp [DirEntry.of]
      obtain ⟨hne, hunder, htests⟩ := ih _ hmem (hall _ hmem) hpath leaf' hleaf'
      have hgroup := group_cons dir (DirEntry.of dir name).path leaf'
      refine ⟨?_, ?_, ?_⟩
      · exact fun hnil => hne (hgroup.symm.trans hnil)
      · intro d hd
        refine (show _ = _ from hgroup) ▸ hunder d ?_
        exact under_entry hdir (hnames _ hmem) hd
      · intro test htest
        obtain ⟨name', hname', heq⟩ := htests test htest
        exact ⟨name', hname', heq.trans (congrArg (· ++ '/' :: name') hgroup.symm)⟩

/-- The tests of a leaf group are disabled with it. -/
theorem Placed.isDisabledTest_iff {tree : TestTree} {dir : Path} {leaf : LeafGroup}
    (h : Placed dir leaf) {test : Path} (htest : test ∈ leaf.tests) :
    IsDisabledTest tree test ↔ IsDisabled tree (leaf.group dir) := by
  obtain ⟨name, hname, rfl⟩ := h.tests test htest
  unfold IsDisabledTest IsDisabled
  simp only [below_entry_iff h.ne_nil hname]

/-! ### What an evaluation takes in -/

section
variable (tree : TestTree)

/-- The traversal skips what is disabled. -/
def SkipsDisabled (met : List Path) : Prop :=
  ∀ path ∈ met, tree.isSubgroupPathEnabled path = false ↔ IsDisabled tree path

/-- When the traversal skips what is disabled, the leaf groups that it enters are those with
weights that are not disabled. The root is not asked about. -/
theorem counts_enters (node : Node) : WellFormed node → ∀ {dir : Path}, dir ≠ [] →
    SkipsDisabled tree (subgroupsMet tree.isSubgroupPathEnabled dir node) →
    ∀ leaf ∈ leafGroups dir node,
      leaf.counts (enters tree.testWeights tree.isSubgroupPathEnabled)
        = (leaf.counts (weighted tree.testWeights) &&
          (leaf.chain.isEmpty || !decide (IsDisabled tree (leaf.group dir)))) := by
  induction node using Node.ind with
  | file name => exact fun _ _ _ _ leaf h => absurd h List.not_mem_nil
  | other name => exact fun _ _ _ _ leaf h => absurd h List.not_mem_nil
  | dir name children ih =>
    intro hwell dir hdir hmet leaf hleaf
    have hnames := hwell.2.1
    have hall := allWellFormed_iff.mp hwell.2.2
    cases mem_leafGroups hleaf with
    -- The directory's own tests: nothing has to be entered for them.
    | inr h =>
      obtain ⟨-, rfl⟩ := h
      rfl
    | inl h =>
      obtain ⟨leaf₁, hleaf₁, rfl⟩ := h
      obtain ⟨name, l, hmem, leaf', hleaf', rfl⟩ := mem_leafGroupsBelow hleaf₁
      cases htests : children.any Node.isSubtest with
      | true =>
        -- the directory is mixed
        unfold LeafGroup.counts
        simp only [Bool.or_true, Bool.not_true, Bool.false_and]
      | false =>
        have hpath : (DirEntry.of dir name).path ≠ [] := by simp [DirEntry.of]
        have hplaced := placed_of_mem _ (hall _ hmem) hpath leaf' hleaf'
        unfold SkipsDisabled subgroupsMet at hmet
        rw [htests, if_neg Bool.false_ne_true] at hmet
        obtain ⟨hself, hbelow⟩ := @mem_subgroupsMetBelow tree.isSubgroupPathEnabled _ _ _ _ hmem
        have hskip := hmet _ hself
        simp only [Bool.or_false]
        rw [counts_cons, counts_cons]
        show _ = (_ && (false || !decide (IsDisabled tree (LeafGroup.group dir
          { leaf' with chain := (DirEntry.of dir name).path :: leaf'.chain }))))
        rw [group_cons, Bool.false_or]
        -- A subgroup that is skipped is disabled, and so is everything below it.
        cases henabled : tree.isSubgroupPathEnabled (DirEntry.of dir name).path with
        | false =>
          obtain ⟨d, hd, hunder⟩ := hskip.mp henabled
          have hdisabled : IsDisabled tree (leaf'.group (DirEntry.of dir name).path) :=
            ⟨d, hd, hplaced.under d hunder⟩
          rw [decide_eq_true hdisabled, Bool.not_true, Bool.and_false]
          unfold enters
          rw [henabled, Bool.false_and, Bool.false_and]
        | true =>
          have hnot : ¬ IsDisabled tree (DirEntry.of dir name).path := fun h =>
            Bool.false_ne_true ((hskip.mpr h).symm.trans henabled)
          rw [ih _ hmem (hall _ hmem) hpath (fun path h => hmet _ (hbelow henabled path h)) leaf'
            hleaf']
          -- It is entered, so the group is not disabled where it is the subgroup itself.
          have hchain : (leaf'.chain.isEmpty ||
              !decide (IsDisabled tree (leaf'.group (DirEntry.of dir name).path)))
              = !decide (IsDisabled tree (leaf'.group (DirEntry.of dir name).path)) := by
            cases hempty : leaf'.chain with
            | nil =>
              have hgroup :
                leaf'.group (DirEntry.of dir name).path = (DirEntry.of dir name).path := by
                unfold LeafGroup.group
                rw [hempty]
                rfl
              rw [hgroup, decide_eq_false hnot]
              rfl
            | cons p ps => rfl
          rw [hchain]
          unfold enters
          rw [henabled, Bool.true_and, Bool.and_assoc]

/-- An evaluation that returns has computed the score of the leaf groups that it enters. -/
theorem evaluateTestScore_ok {tree : TestTree} {outcome : Path → Bool} {result : TestTree.TestScore}
    (h : tree.evaluateTestScore (strategyOf outcome) = .ok result) :
    result.totalPoints = score tree.testWeights outcome
        (enters tree.testWeights tree.isSubgroupPathEnabled) (leafGroups tree.testDir tree.root) ∧
      result.testsRun = testsOf (enters tree.testWeights tree.isSubgroupPathEnabled)
        (leafGroups tree.testDir tree.root) := by
  cases hroot : tree.root.isSubgroup with
  | true =>
    -- An evaluation returns the score, or it raises, which `h` excludes.
    cases tree.evaluateTestScore_run hroot outcome with
    | inl hok =>
      obtain ⟨result', hrun, hspec⟩ := hok
      obtain rfl := Except.ok.inj (hrun.symm.trans h)
      exact hspec
    | inr hfail =>
      obtain ⟨-, error, hrun⟩ := hfail
      cases hrun.symm.trans h
  | false =>
    -- what is no directory cannot be listed
    unfold TestTree.evaluateTestScore at h
    cases hnode : tree.root with
    | dir name children =>
      rw [hnode] at hroot
      cases hroot
    | file name =>
      rw [hnode] at h
      cases h
    | other name =>
      rw [hnode] at h
      cases h

/-- Filtering the elements of a list or their images. -/
theorem flatMap_filter_eq {α β : Type} {f : α → List β} {p : β → Bool} {q : α → Bool} {l : List α}
    (h : ∀ a ∈ l, ∀ b ∈ f a, p b = q a) : (l.filter q).flatMap f = (l.flatMap f).filter p := by
  rw [List.filter_flatMap]
  induction l with
  | nil => rfl
  | cons a l ih =>
    have hrest := ih fun a' ha' => h a' (List.mem_cons_of_mem a ha')
    have ha := h a List.mem_cons_self
    rw [List.flatMap_cons, ← hrest]
    cases hq : q a with
    | true =>
      have hkept : (f a).filter p = f a := List.filter_eq_self.mpr fun b hb => (ha b hb).trans hq
      rw [List.filter_cons_of_pos hq, List.flatMap_cons, hkept]
    | false =>
      have hnone : (f a).filter p = [] := by
        rw [List.filter_eq_nil_iff]
        intro b hb
        rw [ha b hb, hq]
        exact Bool.false_ne_true
      rw [List.filter_cons_of_neg (by simp [hq]), hnone, List.nil_append]

end

/-! ### A root with tests -/

/-- A directory of tests alone is one leaf group, with an empty chain. -/
theorem leafGroups_of_isLeafGroup (dir : Path) {node : Node} (h : isLeafGroup node = true) :
    ∃ tests, tests ≠ [] ∧ leafGroups dir node = [⟨[], false, tests⟩] := by
  cases node with
  | file name => exact absurd h Bool.false_ne_true
  | other name => exact absurd h Bool.false_ne_true
  | dir name children =>
    obtain ⟨hgroups, htests⟩ := Bool.and_eq_true_iff.mp h
    obtain ⟨c, rest, hfilter⟩ := exists_filter_of_any htests
    refine ⟨subtestPaths dir children, by simp [subtestPaths, hfilter], ?_⟩
    unfold leafGroups
    rw [if_neg (by simpa using hgroups), if_pos htests]

/-- A directory of tests alone is a recognised subgroup. -/
theorem recognised_of_isLeafGroup {node : Node} (h : isLeafGroup node = true) :
    node.isSubgroup = true ∧ Recognised node := by
  cases node with
  | file name => exact absurd h Bool.false_ne_true
  | other name => exact absurd h Bool.false_ne_true
  | dir name children =>
    obtain ⟨hgroups, htests⟩ := Bool.and_eq_true_iff.mp h
    refine ⟨rfl, fun _ => .inr htests, allRecognised_iff.mpr fun c hc => ?_⟩
    cases c with
    | file name => trivial
    | other name => trivial
    | dir name l =>
      have hany : children.any Node.isSubgroup = true := List.any_eq_true.mpr ⟨_, hc, rfl⟩
      rw [hany] at hgroups
      cases hgroups

/-- A leaf group with an empty chain is the directory itself. -/
theorem isLeafGroup_of_chain {dir : Path} {node : Node} {leaf : LeafGroup}
    (h : leaf ∈ leafGroups dir node) (hchain : leaf.chain = []) : isLeafGroup node = true := by
  cases node with
  | file name => cases h
  | other name => cases h
  | dir name children =>
    cases mem_leafGroups h with
    | inr h => exact h.1
    | inl h =>
      obtain ⟨leaf₁, hleaf₁, rfl⟩ := h
      obtain ⟨name, l, -, leaf', -, rfl⟩ := mem_leafGroupsBelow hleaf₁
      cases hchain

/-- No directory has to be entered on the way to such a group's tests. -/
theorem testsOf_singleton (enter : Path → Bool) (tests : List Path) :
    testsOf enter [⟨[], false, tests⟩] = tests := by
  simp [testsOf, LeafGroup.counts]

/-! ### The condition -/

/-- A subtree of the list takes a path out when the text of the path starts with it. -/
theorem isSubgroupPathEnabled_eq_false (tree : TestTree) (path : Path) :
    tree.isSubgroupPathEnabled path = false ↔ ∃ d ∈ tree.disabledSubtrees, d <+: path := by
  unfold TestTree.isSubgroupPathEnabled
  simp

/-- **When disabled subtrees disable exactly what they should.** It is so for the trees and lists
that are `Separated`. -/
theorem TestTree.disablesExactly_iff (tree : TestTree) (hdir : tree.testDir ≠ [])
    (hwell : WellFormed tree.root) : DisablesExactly tree ↔ Separated tree := by
  constructor
  · rintro ⟨hmet, heval⟩
    refine ⟨?_, ?_, ?_⟩
    · rintro path hpath ⟨d, hd, hcut⟩
      obtain ⟨c, rest, heq, -⟩ := hcut
      refine (hmet path hpath).mp ((isSubgroupPathEnabled_eq_false tree path).mpr ⟨d, hd, ?_⟩)
      exact heq ▸ List.prefix_append d _
    · rintro path hpath ⟨d, hd, hunder, -⟩
      exact (isSubgroupPathEnabled_eq_false tree path).mp ((hmet path hpath).mpr ⟨d, hd, hunder⟩)
    · intro hleaf hdisabled
      -- an evaluation runs the tests of the root
      obtain ⟨tests, htests, hleaves⟩ := leafGroups_of_isLeafGroup tree.testDir hleaf
      obtain ⟨hroot, hrec⟩ := recognised_of_isLeafGroup hleaf
      obtain ⟨result, hrun, -, hresult⟩ := (tree.evaluateTestScore_run hroot
        fun _ => true).resolve_right fun h => h.1 hrec
      have hkept := (heval _ result hrun).1
      have hplaced := placed_of_mem tree.root hwell hdir ⟨[], false, tests⟩
        (hleaves ▸ List.mem_singleton_self _)
      rw [hresult, hleaves, testsOf_singleton, testsOf_singleton] at hkept
      have hnone : tests.filter (fun test => !decide (IsDisabledTest tree test)) = [] := by
        rw [List.filter_eq_nil_iff]
        intro test htest
        have hbelow : IsDisabledTest tree test := (hplaced.isDisabledTest_iff htest).mpr hdisabled
        rw [decide_eq_true hbelow]
        exact Bool.false_ne_true
      exact htests (hkept.trans hnone)
  · intro hsep
    have hmet : SkipsDisabled tree
        (subgroupsMet tree.isSubgroupPathEnabled tree.testDir tree.root) := by
      intro path hpath
      rw [isSubgroupPathEnabled_eq_false]
      constructor
      · rintro ⟨d, hd, hprefix⟩
        by_cases hunder : Under d path
        · exact ⟨d, hd, hunder⟩
        · exact hsep.cut path hpath ⟨d, hd, (not_under_iff_cut hprefix).mp hunder⟩
      · rintro ⟨d, hd, hunder⟩
        by_cases hprefix : d <+: path
        · exact ⟨d, hd, hprefix⟩
        · exact hsep.spelled path hpath ⟨d, hd, hunder, hprefix⟩
    refine ⟨hmet, fun outcome result hrun => ?_⟩
    obtain ⟨hscore, htests⟩ := evaluateTestScore_ok hrun
    have hcounts : ∀ leaf ∈ leafGroups tree.testDir tree.root,
        leaf.counts (enters tree.testWeights tree.isSubgroupPathEnabled)
          = (leaf.counts (weighted tree.testWeights) &&
            !decide (IsDisabled tree (leaf.group tree.testDir))) := by
      intro leaf hleaf
      rw [counts_enters tree tree.root hwell hdir hmet leaf hleaf]
      cases hchain : leaf.chain with
      | cons p ps => rfl
      | nil =>
        -- the leaf group is the root
        have hgroup : leaf.group tree.testDir = tree.testDir := by
          unfold LeafGroup.group
          rw [hchain]
          rfl
        have hnot := hsep.root (isLeafGroup_of_chain hleaf hchain)
        rw [hgroup, decide_eq_false hnot]
        rfl
    constructor
    · rw [htests]
      unfold testsOf
      rw [← flatMap_filter_eq
          (q := fun leaf => !decide (IsDisabled tree (leaf.group tree.testDir))),
        List.filter_filter]
      · refine congrArg (List.flatMap LeafGroup.tests) (List.filter_congr fun leaf hleaf => ?_)
        rw [hcounts leaf hleaf, Bool.and_comm]
      · intro leaf hleaf test htest
        have hplaced := placed_of_mem tree.root hwell hdir leaf (List.mem_of_mem_filter hleaf)
        rw [decide_eq_decide.mpr (hplaced.isDisabledTest_iff htest)]
    · rw [hscore]
      unfold score
      rw [List.filter_filter, List.filter_congr hcounts]

/-- Two groups of jump instructions, one of which may be disabled. -/
def jumpTree (disabledSubtrees : List Path) : TestTree :=
  ⟨"tests".toList, .dir "tests".toList [.dir "j".toList [.file "j.test".toList],
    .dir "jal".toList [.file "jal.test".toList]], disabledSubtrees, ∅⟩

/-- `tests/jal` disables exactly itself where no other name starts with `jal`. -/
theorem TestTree.disablesExactly_jumpTree : DisablesExactly (jumpTree ["tests/jal".toList]) := by
  refine (TestTree.disablesExactly_iff _ (by decide) ?_).mpr ⟨?_, ?_, ?_⟩
  · simp [jumpTree, WellFormed, AllWellFormed, Node.name, IsEntryName]
  · intro path hpath hcut
    have hmet : path ∈ ["tests/j".toList, "tests/jal".toList] := hpath
    obtain ⟨d, hd, c, rest, heq, -⟩ := hcut
    have hprefix : d <+: path := heq ▸ List.prefix_append d _
    rw [List.mem_singleton.mp hd] at hprefix
    obtain rfl | rfl := List.mem_pair.mp hmet
    · exact absurd hprefix (by decide)
    · decide
  · intro path hpath hspelled
    have hmet : path ∈ ["tests/j".toList, "tests/jal".toList] := hpath
    obtain ⟨d, hd, hunder, hprefix⟩ := hspelled
    rw [List.mem_singleton.mp hd] at hunder hprefix
    obtain rfl | rfl := List.mem_pair.mp hmet
    · exact absurd hunder (by decide)
    · exact absurd (List.prefix_refl _) hprefix
  · exact fun h => absurd h (by decide)

/-- To disable `j` disables `jal` as well. -/
theorem TestTree.not_disablesExactly_jumpTree :
    ¬ DisablesExactly (jumpTree ["tests/j".toList]) := by
  intro h
  have hjal := h.1 "tests/jal".toList (by decide)
  exact absurd (hjal.mp (by decide)) (by decide)

end VivadoTest.Host
