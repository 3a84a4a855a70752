import VivadoTest.Framework.Util
import VivadoTest.Lib.Loops

/-!
# `VivadoTest.Framework.TestChecks`: the combinational update checks

`ExpectedUpdateCheck.vhd` compares one expected update with the actual updates of a cycle
that no earlier check has used. `TestChecks.vhd` chains `RF_NUM_WRITE_PORTS + 1` of them
and reports the first that fails. Every signal of the two entities is a definition here;
the vectors that a `generate` loop builds from index `i` to `i + 1` are `Fin.induction`.

Some of the reductions of the source count port 0 twice, once in the first element and once in the
loop. That makes no difference to a disjunction, but the definitions have it as the source does.
What is reported when nothing fails is the pair of the last check.
-/

set_option autoImplicit false

namespace VivadoTest.Framework

variable {N : Nat}

/-- `expected_update_check_in_t`. -/
structure ExpectedUpdateCheckIn (N : Nat) where
  actual : UpdateArray N
  updateWes : PortMask N
  expected : ExpectedStateUpdate
  disabledActuals : PortMask N

/-- `expected_update_check_out_t`. -/
structure ExpectedUpdateCheckOut (N : Nat) where
  isCheckActive : Bool
  isExpectedUnmatched : Bool
  badActual : ExpectedStateUpdate
  disabledActuals : PortMask N

namespace ExpectedUpdateCheckIn

variable (input : ExpectedUpdateCheckIn N)

/-- `is_active_actual`: the write is enabled and no earlier check has used it. -/
def isActiveActual : PortMask N := fun i =>
  input.updateWes i && !input.disabledActuals i

/-- `is_matching_actual`. -/
def isMatchingActual : PortMask N := fun i =>
  if input.actual i = input.expected then input.isActiveActual i else false

/-- `is_already_matched`: some port below `i` matches. -/
def isAlreadyMatched : Fin (N + 2) → Bool :=
  Fin.induction false fun i already => (input.isMatchingActual i && !already) || already

/-- `is_first_matching_actual`. -/
def isFirstMatchingActual : PortMask N := fun i =>
  input.isMatchingActual i && !input.isAlreadyMatched i.castSucc

/-- `is_active_actual_fold`. Element `0` already holds port `0`, which the first step of
the chain adds again. -/
def isActiveActualFold : Fin (N + 2) → Bool :=
  Fin.induction (input.isActiveActual 0) fun i acc => acc || input.isActiveActual i

/-- `is_matching_actual_fold`. -/
def isMatchingActualFold : Fin (N + 2) → Bool :=
  Fin.induction (input.isMatchingActual 0) fun i acc => acc || input.isMatchingActual i

/-- `any_active_actual`. -/
def anyActiveActual : Bool := input.isActiveActualFold (Fin.last (N + 1))

/-- `no_matching_actual`. -/
def noMatchingActual : Bool := !input.isMatchingActualFold (Fin.last (N + 1))

/-- `output.bad_actual`: the default is the last port; the loop counts down, so the lowest
active port is assigned last. -/
def badActual : ExpectedStateUpdate :=
  (List.finRange N).reverse.foldl
    (fun acc i => if input.isActiveActual i.castSucc then input.actual i.castSucc else acc)
    (input.actual (Fin.last N))

end ExpectedUpdateCheckIn

/-- The entity `ExpectedUpdateCheck`. -/
def expectedUpdateCheck (input : ExpectedUpdateCheckIn N) : ExpectedUpdateCheckOut N where
  isCheckActive := input.anyActiveActual
  isExpectedUnmatched := input.anyActiveActual && input.noMatchingActual
  badActual := input.badActual
  disabledActuals := fun i => input.disabledActuals i || input.isFirstMatchingActual i

/-- `test_checks_in_t`. -/
structure TestChecksIn (N : Nat) where
  actual : UpdateArray N
  updateWes : PortMask N
  procEn : Bool
  expected : UpdateArray N
  shouldBeDone : Bool

/-- `test_checks_out_t`. -/
structure TestChecksOut (N : Nat) where
  isCheckActive : PortMask N
  status : TestStatus
  foundError : Bool
  unmatchedExpected : ExpectedStateUpdate
  badActual : ExpectedStateUpdate

namespace TestChecksIn

variable (input : TestChecksIn N)

/-- The port map of check `i`, given the output of the stage before it. -/
def checkIn (i : Fin (N + 1)) (prev : ExpectedUpdateCheckOut N) : ExpectedUpdateCheckIn N where
  actual := input.actual
  updateWes := input.updateWes
  expected := input.expected i
  disabledActuals := prev.disabledActuals

/-- `expected_update_checks_out`. Element `0` bootstraps the chain, element `i + 1` is the
output of check `i`. -/
def expectedUpdateChecksOut : Fin (N + 2) → ExpectedUpdateCheckOut N :=
  Fin.induction ⟨false, false, .zero, fun _ => false⟩
    fun i prev => expectedUpdateCheck (input.checkIn i prev)

/-- `unmatched_expected`. -/
def unmatchedExpected : PortMask N := fun i =>
  (input.expectedUpdateChecksOut i.succ).isExpectedUnmatched

/-- `unmatched_expected_fold`. -/
def unmatchedExpectedFold : PortMask N :=
  Fin.induction (input.unmatchedExpected 0) fun i acc => acc || input.unmatchedExpected i.succ

/-- `update_wes_fold`. -/
def updateWesFold : PortMask N :=
  Fin.induction (input.updateWes 0) fun i acc => acc || input.updateWes i.succ

/-- `any_update`. -/
def anyUpdate : Bool := input.updateWesFold (Fin.last N)

/-- `any_unexpected_update`. -/
def anyUnexpectedUpdate : Bool := input.unmatchedExpectedFold (Fin.last N)

/-- `output.status`. -/
def status : TestStatus :=
  if input.anyUpdate && !input.procEn then .updateWhileDisabled
  else if input.anyUpdate && input.shouldBeDone then .extraUpdate
  else .incorrectUpdate

/-- `output.found_error`. -/
def foundError : Bool :=
  (input.anyUpdate && (!input.procEn || input.shouldBeDone)) || input.anyUnexpectedUpdate

/-- The last process of the entity: the pair of the last check by default, overwritten
from the top down, so the first unmatched check is assigned last. -/
def firstUnmatched : ExpectedStateUpdate × ExpectedStateUpdate :=
  (List.finRange N).reverse.foldl
    (fun acc i =>
      if (input.expectedUpdateChecksOut i.castSucc.succ).isExpectedUnmatched then
        (input.expected i.castSucc, (input.expectedUpdateChecksOut i.castSucc.succ).badActual)
      else acc)
    (input.expected (Fin.last N), (input.expectedUpdateChecksOut (Fin.last (N + 1))).badActual)

end TestChecksIn

/-- The entity `TestChecks`. -/
def testChecks (input : TestChecksIn N) : TestChecksOut N where
  isCheckActive := fun i => (input.expectedUpdateChecksOut i.succ).isCheckActive
  status := input.status
  foundError := input.foundError
  unmatchedExpected := input.firstUnmatched.1
  badActual := input.firstUnmatched.2

end VivadoTest.Framework
