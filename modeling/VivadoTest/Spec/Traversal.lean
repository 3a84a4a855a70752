import VivadoTest.Host.TestTree

/-!
# `VivadoTest.Spec.Traversal`: a traversal that no group stops

What the traversal of a tree of tests is meant to be: a group of subgroups is visited subgroup
by subgroup, a group of tests test by test, and every other group contributes the default
result of the visitor (`traverseGroup`).

`TraversesTotally` compares the traversal of the source with this one, on every state of the
visitor. `VisitsRecognised` is the condition under which they agree: of the groups that are visited
none consists of entries that are neither subgroups nor tests.
-/

set_option autoImplicit false

namespace VivadoTest.Spec

open VivadoTest.Host

section
variable {σ ρ ς τ : Type} (visitor : Visitor σ ρ ς τ) (isSubgroupPathEnabled : Path → Bool)

/-- The subgroup that the last turn of a loop over the subgroups has visited. -/
def lastSubgroup (dir : Path) (children : List Node) : DirEntry :=
  .of dir (((children.filter Node.isSubgroup).getLast?.map Node.name).getD [])

mutual

/-- The traversal of a directory. -/
def traverseGroup (dir : Path) (depth : Nat) : Node → StateT σ (Except PyError) ρ
  | .dir _ children =>
    if children.any Node.isSubgroup && !children.any Node.isSubtest then do
      let subgroupResults ← traverseEntries dir depth children
      visitor.combineSubgroupResults (lastSubgroup dir children) depth subgroupResults
    else if !children.any Node.isSubgroup && children.any Node.isSubtest then do
      let testResults ← (children.filter Node.isSubtest).mapM fun test =>
        visitor.visitTest (.of dir test.name) (depth + 1)
      visitor.combineTestResults testResults depth
    else visitor.getDefaultRetValue
  | .file _ => visitor.getDefaultRetValue
  | .other _ => visitor.getDefaultRetValue

/-- The subgroups among its entries, those that are disabled or that the visitor declines
apart. -/
def traverseEntries (dir : Path) (depth : Nat) : List Node → StateT σ (Except PyError) (List ς)
  | [] => return []
  | .dir name children :: rest => do
    let sg := DirEntry.of dir name
    if isSubgroupPathEnabled sg.path then
      if ← visitor.visitSubgroupPreorder sg depth then
        let result ← traverseGroup sg.path (depth + 1) (.dir name children)
        let subgroupResult ← visitor.visitSubgroupPostorder sg depth result
        return subgroupResult :: (← traverseEntries dir depth rest)
      else traverseEntries dir depth rest
    else traverseEntries dir depth rest
  | .file _ :: rest => traverseEntries dir depth rest
  | .other _ :: rest => traverseEntries dir depth rest

end

end

/-- The computation returns, whatever the state. -/
def Total {σ α : Type} (x : StateT σ (Except PyError) α) : Prop :=
  ∀ s, ∃ r s', x.run s = .ok (r, s')

/-- The traversal of a directory returns, and it is the intended one. -/
structure TraversesTotally {σ ρ ς τ : Type} (visitor : Visitor σ ρ ς τ) (enabled : Path → Bool)
    (dir : Path) (depth : Nat) (node : Node) : Prop where
  returns : Total (traverseTests visitor enabled dir depth node)
  intended :
    traverseTests visitor enabled dir depth node = traverseGroup visitor enabled dir depth node

mutual

/-- Among the groups that are visited, `enter` saying which subgroups are, none consists of
unrecognised entries only. -/
def VisitsRecognised (enter : Path → Bool) (dir : Path) : Node → Prop
  | .dir _ children =>
    (children ≠ [] → children.any Node.isSubgroup = true ∨ children.any Node.isSubtest = true) ∧
      (children.any Node.isSubtest = false → EntriesVisitRecognised enter dir children)
  | .file _ => True
  | .other _ => True

/-- The same of every entry of a directory that is entered. -/
def EntriesVisitRecognised (enter : Path → Bool) (dir : Path) : List Node → Prop
  | [] => True
  | .dir name children :: rest =>
    (enter (DirEntry.of dir name).path = true →
      VisitsRecognised enter (DirEntry.of dir name).path (.dir name children)) ∧
      EntriesVisitRecognised enter dir rest
  | .file _ :: rest => EntriesVisitRecognised enter dir rest
  | .other _ :: rest => EntriesVisitRecognised enter dir rest

end

end VivadoTest.Spec
