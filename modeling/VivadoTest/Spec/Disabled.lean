import VivadoTest.Spec.Score

/-!
# `VivadoTest.Spec.Disabled`: what a disabled subtree disables

A disabled subtree is meant to take out itself and what lies below it. `DisablesExactly` says so
of the subgroups that a traversal meets, of the tests that an evaluation runs, and of the score.
`Separated` is a condition on the paths.

What is disabled is said with paths as the file system has them (`VivadoTest.Lib.PurePath`): a
component is the same or another one, and how a path is spelled does not matter. The program
compares texts.
-/

set_option autoImplicit false

namespace VivadoTest.Spec

open VivadoTest.Host VivadoTest.Lib

section
variable (enabled : Path → Bool)

mutual

/-- The subgroups that a traversal asks about, when its visitor enters all that are enabled. -/
def subgroupsMet (dir : Path) : Node → List Path
  | .dir _ children => if children.any Node.isSubtest then [] else subgroupsMetBelow dir children
  | .file _ => []
  | .other _ => []

/-- Those of the subdirectories among the entries of a directory. -/
def subgroupsMetBelow (dir : Path) : List Node → List Path
  | [] => []
  | .dir name children :: rest =>
    (DirEntry.of dir name).path ::
      (if enabled (DirEntry.of dir name).path then
        subgroupsMet (DirEntry.of dir name).path (.dir name children) else []) ++
      subgroupsMetBelow dir rest
  | .file _ :: rest => subgroupsMetBelow dir rest
  | .other _ :: rest => subgroupsMetBelow dir rest

end

end

/-- The path of a leaf group of the directory `root`. -/
def LeafGroup.group (root : Path) (leaf : LeafGroup) : Path := leaf.chain.getLast?.getD root

/-- The root holds tests and no subgroups. -/
def isLeafGroup : Node → Bool
  | .dir _ children => !children.any Node.isSubgroup && children.any Node.isSubtest
  | _ => false

/-- The path is one of the disabled subtrees, or under one. -/
def IsDisabled (tree : TestTree) (path : Path) : Prop := ∃ d ∈ tree.disabledSubtrees, Under d path

instance (tree : TestTree) (path : Path) : Decidable (IsDisabled tree path) :=
  inferInstanceAs (Decidable (∃ d ∈ tree.disabledSubtrees, Under d path))

/-- The test lies under a disabled subtree. -/
def IsDisabledTest (tree : TestTree) (test : Path) : Prop :=
  ∃ d ∈ tree.disabledSubtrees, Below d test

instance (tree : TestTree) (test : Path) : Decidable (IsDisabledTest tree test) :=
  inferInstanceAs (Decidable (∃ d ∈ tree.disabledSubtrees, Below d test))

/-- **A disabled subtree disables exactly itself and what lies below it.** The subgroups skipped
are those that are disabled subtrees or below one, and an evaluation that returns has run and
scored what is not under any. -/
def DisablesExactly (tree : TestTree) : Prop :=
  (∀ path ∈ subgroupsMet tree.isSubgroupPathEnabled tree.testDir tree.root,
    tree.isSubgroupPathEnabled path = false ↔ IsDisabled tree path) ∧
  ∀ (outcome : Path → Bool) (result : TestTree.TestScore),
    tree.evaluateTestScore (strategyOf outcome) = .ok result →
    result.testsRun = (testsOf (weighted tree.testWeights)
      (leafGroups tree.testDir tree.root)).filter (fun test => !decide (IsDisabledTest tree test)) ∧
    result.totalPoints = score tree.testWeights outcome (weighted tree.testWeights)
      ((leafGroups tree.testDir tree.root).filter fun leaf =>
        !decide (IsDisabled tree (leaf.group tree.testDir)))

/-- No subgroup that is met continues a disabled subtree inside a component without being disabled,
none is disabled in another spelling only, and the tests of the root are not disabled. -/
structure Separated (tree : TestTree) : Prop where
  cut : ∀ path ∈ subgroupsMet tree.isSubgroupPathEnabled tree.testDir tree.root,
    (∃ d ∈ tree.disabledSubtrees, Cut d path) → IsDisabled tree path
  spelled : ∀ path ∈ subgroupsMet tree.isSubgroupPathEnabled tree.testDir tree.root,
    (∃ d ∈ tree.disabledSubtrees, Under d path ∧ ¬ d <+: path) →
      ∃ d ∈ tree.disabledSubtrees, d <+: path
  root : isLeafGroup tree.root = true → ¬ IsDisabled tree tree.testDir

end VivadoTest.Spec
