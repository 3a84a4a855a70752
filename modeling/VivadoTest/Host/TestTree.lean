import VivadoTest.Lib.GroupBy
import VivadoTest.Lib.PyText
import Mathlib.Data.List.AList
import Mathlib.Data.Char
import Mathlib.Data.List.Lex
import Mathlib.Data.List.Sort
import Mathlib.Data.Rat.Defs

/-!
# `VivadoTest.Host.TestTree`: the tree of tests and its score

The class `TestTree` of `process_tests.py` and its three visitors. A directory is a `Node`
whose children stand in the order in which `os.scandir` lists them. The traversal is generic in
its visitor, which may keep a state and raise. Of what the program prints, only the tree of a
`PrettyPrintVisitor` is kept, and the groups that a warning lists. Division is exact.

The traversal is the source's, with its returns in the middle: an empty directory, one with
subgroups and tests, and the two loops. `combine_subgroup_results` is called with the subgroup of
the last turn of the loop, and a group whose entries are all of other kinds reaches a `return` of a
variable that the function does not have.

The weights are integers. Their table is read from text, and is rejected when the members of a
group do not have 100 together. Percentages are rational numbers.
-/

set_option autoImplicit false

namespace VivadoTest.Host

open VivadoTest.Lib

/-- A path as the Python programs have it: its text. -/
abbrev Path := List Char

/-- An entry of a directory: a directory, a file, or something that is neither. -/
inductive Node
  | dir (name : List Char) (children : List Node)
  | file (name : List Char)
  | other (name : List Char)

namespace Node

/-- The name of a directory entry. -/
def name : Node → List Char
  | dir name _ => name
  | file name => name
  | other name => name

/-- `c.is_dir()`. -/
def isSubgroup : Node → Bool
  | dir _ _ => true
  | _ => false

/-- `c.is_file() and c.name.endswith(".test")`. -/
def isSubtest : Node → Bool
  | file name => ".test".toList.isSuffixOf name
  | _ => false

end Node

/-- `os.DirEntry`. -/
structure DirEntry where
  name : List Char
  path : Path

/-- An entry of the directory at `dir`, a path that does not end in a slash. -/
def DirEntry.of (dir : Path) (name : List Char) : DirEntry := ⟨name, dir ++ '/' :: name⟩

/-- The exceptions that a traversal raises. -/
inductive PyError
  | nameError (name : String)
  | keyError (key : Path)
  | notADirectory
  deriving DecidableEq, Repr

/-- A visitor over a state `σ`: `ρ` is the result of a group, `ς` that of a subgroup in its
parent, `τ` that of a test. -/
structure Visitor (σ ρ ς τ : Type) where
  getDefaultRetValue : StateT σ (Except PyError) ρ
  visitSubgroupPreorder : DirEntry → Nat → StateT σ (Except PyError) Bool
  visitSubgroupPostorder : DirEntry → Nat → ρ → StateT σ (Except PyError) ς
  visitTest : DirEntry → Nat → StateT σ (Except PyError) τ
  combineTestResults : List τ → Nat → StateT σ (Except PyError) ρ
  combineSubgroupResults : DirEntry → Nat → List ς → StateT σ (Except PyError) ρ

section
variable {σ ρ ς τ : Type} (visitor : Visitor σ ρ ς τ) (isSubgroupPathEnabled : Path → Bool)

mutual

/-- `_traverse_tests`. A group without a recognised entry reaches a `return` of a variable that
the function does not have. -/
def traverseTests (curDir : Path) (depth : Nat) : Node → StateT σ (Except PyError) ρ
  | .dir _ children =>
    if children.isEmpty then visitor.getDefaultRetValue
    else
      match (children.filter Node.isSubgroup).getLast?, children.filter Node.isSubtest with
      -- Groups with both subgroups and tests are not visited, after a warning.
      | some _, _ :: _ => visitor.getDefaultRetValue
      -- `sg` is the variable of the loop over the subgroups, after its last round.
      | some sg, [] => do
        let subgroupResults ← traverseSubgroups curDir depth children
        visitor.combineSubgroupResults (.of curDir sg.name) depth subgroupResults
      | none, test :: tests => do
        let testResults ← (test :: tests).mapM fun test =>
          visitor.visitTest (.of curDir test.name) (depth + 1)
        visitor.combineTestResults testResults depth
      | none, [] => throw (.nameError "tests_covered")
  | .file _ => throw .notADirectory
  | .other _ => throw .notADirectory

/-- The loop over the subgroups among the entries of a directory. -/
def traverseSubgroups (curDir : Path) (depth : Nat) : List Node → StateT σ (Except PyError) (List ς)
  | [] => return []
  | .dir name children :: rest => do
    let sg := DirEntry.of curDir name
    if isSubgroupPathEnabled sg.path then
      if ← visitor.visitSubgroupPreorder sg depth then
        let result ← traverseTests sg.path (depth + 1) (.dir name children)
        let subgroupResult ← visitor.visitSubgroupPostorder sg depth result
        return subgroupResult :: (← traverseSubgroups curDir depth rest)
      else traverseSubgroups curDir depth rest
    else traverseSubgroups curDir depth rest
  | .file _ :: rest => traverseSubgroups curDir depth rest
  | .other _ :: rest => traverseSubgroups curDir depth rest

end

end

/-! ### Weights -/

/-- The dictionary of weights. -/
abbrev TestWeights := AList fun _ : Path => Int

/-- `parent_keyf`. -/
def parentKey (d : Path) : Path := ['/'].intercalate (d.splitOn '/').dropLast

/-- A line of the weight file. -/
def readTestWeight (line : List Char) : Option (Path × Int) :=
  match words line with
  | [d, w] => do return (d, ← pyInt 10 w)
  | _ => none

/-- The weights of the members of a group add up to `100`. -/
def checkGroup (weights : TestWeights) (group : Path × List Path) : Bool :=
  (group.2.map fun d => (weights.lookup d).getD 0).sum = 100

/-- `_read_test_weights`; `none` where it raises or exits. -/
def readTestWeights (testWeightFile : List Char) : Option TestWeights := do
  let lines := (textLines testWeightFile).filter fun line => !(strip line).isEmpty
  let pairs ← lines.mapM readTestWeight
  let weights := pairs.foldl (fun weights pair => weights.insert pair.1 pair.2) ∅
  let sorted := weights.keys.insertionSort fun a b => parentKey a ≤ parentKey b
  guard ((groupBy parentKey sorted).all (checkGroup weights))
  return weights

/-! ### Evaluation -/

/-- What an `EvaluationVisitor` keeps, and the calls of the test strategy. -/
structure Evaluation where
  testsCovered : List Path
  testsRun : List Path

/-- `EvaluationVisitor`. -/
def evaluationVisitor (weights : TestWeights) (testStrategy : Path → Nat → Nat) :
    Visitor Evaluation (Rat × List Path) Rat Nat where
  getDefaultRetValue := do return (0, (← get).testsCovered)
  visitSubgroupPreorder sg _ := return (weights.lookup sg.path).isSome
  visitSubgroupPostorder sg _ result := do
    match weights.lookup sg.path with
    | some weight =>
      modify fun s => { s with testsCovered := s.testsCovered.insert sg.path }
      return result.1 * weight / 100
    | none => throw (.keyError sg.path)
  visitTest test depth := do
    modify fun s => { s with testsRun := s.testsRun ++ [test.path] }
    return testStrategy test.path depth
  combineTestResults results _ := do
    return ((results.sum : Rat) * 100 / (results.length : Rat), (← get).testsCovered)
  combineSubgroupResults _ _ results := do return (results.sum, (← get).testsCovered)

/-! ### Printing and generating -/

/-- `PrettyPrintVisitor`. Its state is what it has printed. -/
def prettyPrintVisitor : Visitor (List (List Char)) Unit Unit Unit where
  getDefaultRetValue := return ()
  visitSubgroupPreorder sg depth := do
    modify (· ++ [List.replicate depth ' ' ++ ['-'] ++ sg.name])
    return true
  visitSubgroupPostorder _ _ _ := return ()
  visitTest test depth := modify (· ++ [List.replicate depth ' ' ++ [' ', '*', ' '] ++ test.name])
  combineTestResults _ _ := return ()
  combineSubgroupResults _ _ _ := return ()

/-- `TestGeneratingVisitor`. Its state are the arguments of the calls of `run_test_gen_script`,
which return. -/
def testGeneratingVisitor (archName : List Char) :
    Visitor (List (Path × List Char)) Unit Unit Unit where
  getDefaultRetValue := return ()
  visitSubgroupPreorder _ _ := return true
  visitSubgroupPostorder _ _ _ := return ()
  visitTest test _ := modify (· ++ [(test.path, archName)])
  combineTestResults _ _ := return ()
  combineSubgroupResults _ _ _ := return ()

/-- A `TestTree`: its directory, what is in it, the disabled subtrees that exist, and the
weights. -/
structure TestTree where
  testDir : Path
  root : Node
  disabledSubtrees : List Path
  testWeights : TestWeights

/-- `TestTree.__init__`, for a directory and a weight file that exist. -/
def TestTree.init (pathExists : Path → Bool) (testDir : Path) (root : Node) (testwFile : List Char)
    (disabledSubtrees : List Path) : Option TestTree := do
  let testWeights ← readTestWeights testwFile
  return ⟨testDir, root, disabledSubtrees.filter pathExists, testWeights⟩

namespace TestTree

variable (tree : TestTree)

/-- `_is_subgroup_path_enabled`. -/
def isSubgroupPathEnabled (sgPath : Path) : Bool :=
  !tree.disabledSubtrees.any fun subtree => subtree.isPrefixOf sgPath

/-- The score, the groups of the warning about groups without tests, and the tests run. -/
structure TestScore where
  totalPoints : Rat
  uncoveredTests : List Path
  testsRun : List Path

/-- `evaluate_test_score`. -/
def evaluateTestScore (testStrategy : Path → Nat → Nat) : Except PyError TestScore := do
  let ((totalPoints, testsCovered), evaluation) ←
    (traverseTests (evaluationVisitor tree.testWeights testStrategy) tree.isSubgroupPathEnabled
      tree.testDir 0 tree.root).run ⟨[], []⟩
  let uncoveredTests := tree.testWeights.keys.filter fun test =>
    !testsCovered.contains test && tree.isSubgroupPathEnabled test
  return ⟨totalPoints, uncoveredTests, evaluation.testsRun⟩

end TestTree

end VivadoTest.Host
