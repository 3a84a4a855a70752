import VivadoTest.Host.TestTree
import VivadoTest.Lib.PurePath
import Mathlib.Algebra.BigOperators.Group.List.Basic
import Mathlib.Algebra.Order.Field.Rat

/-!
# `VivadoTest.Spec.Score`: the score of a tree of tests

What the score is for: the weighted fraction of the tests that pass, taken over the leaf groups
of the tree. `leafGroups` lists them with the directories on their way from the root; `score` is
the sum over those that count.

A directory is well formed when its entries have different names. `Reordered` trees list the
same entries in another order.

The traversal multiplies a percentage by a weight on its way up from each subgroup. The formula
multiplies the weights on the way down to a leaf group (`LeafGroup.weight`). A directory with both
subgroups and tests is mixed: nothing below it counts, and no test in it is run
(`LeafGroup.counts`).
-/

set_option autoImplicit false

namespace VivadoTest.Spec

open VivadoTest.Host VivadoTest.Lib

/-! ### Leaf groups -/

/-- A group with tests and without subgroups. -/
structure LeafGroup where
  /-- The group and its ancestors below the root, the outermost first. -/
  chain : List Path
  /-- Some ancestor has both subgroups and tests. -/
  mixed : Bool
  tests : List Path

/-- The paths of the tests among the entries of a directory. -/
def subtestPaths (dir : Path) (children : List Node) : List Path :=
  (children.filter Node.isSubtest).map fun test => (DirEntry.of dir test.name).path

mutual

/-- The leaf groups of a directory. -/
def leafGroups (dir : Path) : Node → List LeafGroup
  | .dir _ children =>
    if children.any Node.isSubgroup then
      (leafGroupsBelow dir children).map fun leaf =>
        { leaf with mixed := leaf.mixed || children.any Node.isSubtest }
    else if children.any Node.isSubtest then [⟨[], false, subtestPaths dir children⟩]
    else []
  | .file _ => []
  | .other _ => []

/-- Those of the subdirectories among its entries. -/
def leafGroupsBelow (dir : Path) : List Node → List LeafGroup
  | [] => []
  | .dir name children :: rest =>
    ((leafGroups (DirEntry.of dir name).path (.dir name children)).map fun leaf =>
      { leaf with chain := (DirEntry.of dir name).path :: leaf.chain }) ++ leafGroupsBelow dir rest
  | .file _ :: rest => leafGroupsBelow dir rest
  | .other _ :: rest => leafGroupsBelow dir rest

end

namespace LeafGroup

/-- No ancestor is mixed, and the traversal enters the group and all its ancestors. -/
def counts (enter : Path → Bool) (leaf : LeafGroup) : Bool := !leaf.mixed && leaf.chain.all enter

/-- The product of the weights on the way from the root. -/
def weight (weights : TestWeights) (leaf : LeafGroup) : Rat :=
  (leaf.chain.map fun path => (((weights.lookup path).getD 0 : Int) : Rat) / 100).prod

/-- The percentage of the tests that pass. -/
def percentage (outcome : Path → Bool) (leaf : LeafGroup) : Rat :=
  100 * (leaf.tests.countP outcome : Rat) / (leaf.tests.length : Rat)

end LeafGroup

/-- The weighted percentage of the tests that pass, over the leaf groups that count. -/
def score (weights : TestWeights) (outcome : Path → Bool) (enter : Path → Bool)
    (leaves : List LeafGroup) : Rat :=
  ((leaves.filter (LeafGroup.counts enter)).map fun leaf =>
    leaf.percentage outcome * leaf.weight weights).sum

/-- The tests of the leaf groups that count. -/
def testsOf (enter : Path → Bool) (leaves : List LeafGroup) : List Path :=
  (leaves.filter (LeafGroup.counts enter)).flatMap LeafGroup.tests

/-- The groups that have an entry in the table. -/
def weighted (weights : TestWeights) (path : Path) : Bool := (weights.lookup path).isSome

/-- The outcomes as a test strategy. -/
def strategyOf (outcome : Path → Bool) (path : Path) (_ : Nat) : Nat := (outcome path).toNat

/-- The subgroups that an evaluation enters. -/
def enters (weights : TestWeights) (enabled : Path → Bool) (path : Path) : Bool :=
  enabled path && weighted weights path

/-! ### Trees -/

mutual

/-- The entries of every directory have different names, all of them names of entries. -/
def WellFormed : Node → Prop
  | .dir _ children =>
    (children.map Node.name).Nodup ∧ (∀ c ∈ children, IsEntryName c.name) ∧
      AllWellFormed children
  | .file _ => True
  | .other _ => True

/-- Every tree of a list is well formed. -/
def AllWellFormed : List Node → Prop
  | [] => True
  | c :: rest => WellFormed c ∧ AllWellFormed rest

end

mutual

/-- No group consists of unrecognised entries only. -/
def Recognised : Node → Prop
  | .dir _ children =>
    (children ≠ [] → children.any Node.isSubgroup = true ∨ children.any Node.isSubtest = true) ∧
      AllRecognised children
  | .file _ => True
  | .other _ => True

/-- Every tree of a list is recognised. -/
def AllRecognised : List Node → Prop
  | [] => True
  | c :: rest => Recognised c ∧ AllRecognised rest

end

mutual

/-- The same tree, with the entries of its directories in another order. -/
inductive Reordered : Node → Node → Prop
  | file (name : List Char) : Reordered (.file name) (.file name)
  | other (name : List Char) : Reordered (.other name) (.other name)
  | dir (name : List Char) {children children' : List Node}
      (h : ReorderedEntries children children') :
      Reordered (.dir name children) (.dir name children')

/-- Two lists of entries that differ in their order, at any depth. -/
inductive ReorderedEntries : List Node → List Node → Prop
  | nil : ReorderedEntries [] []
  | cons {c c' : Node} {rest rest' : List Node} (h : Reordered c c')
      (hrest : ReorderedEntries rest rest') : ReorderedEntries (c :: rest) (c' :: rest')
  | swap (a b : Node) (rest : List Node) : ReorderedEntries (b :: a :: rest) (a :: b :: rest)
  | trans {l₁ l₂ l₃ : List Node} (h₁ : ReorderedEntries l₁ l₂) (h₂ : ReorderedEntries l₂ l₃) :
      ReorderedEntries l₁ l₃

end

end VivadoTest.Spec
