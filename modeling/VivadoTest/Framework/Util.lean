import Mathlib.Data.Fin.Basic
import Mathlib.Data.Fintype.Pi

/-!
# `VivadoTest.Framework.Util`: the shared records of the test framework

The types of `framework/defs.vhd` and `framework/framework_util.vhd` that the test monitor
and the testbench share. `std_logic` is `Bool`, a `std_logic_vector` a `BitVec`; the
metavalues (`'U'`, `'X'`, `'Z'`, …) of simulation are left out. The code is written over
the constant `RF_NUM_WRITE_PORTS`, so the types are too: `N` stands for it throughout, and
an array `0 to RF_NUM_WRITE_PORTS` is a function on `Fin (N + 1)`.

The processor's outputs in a cycle are `ProcOut`: the port of the data memory, and one write port
of the register file for each index. `test_monitor_in.updates` puts the data memory's update in
front, at index 0, and that of the register port `i` at index `i + 1`.
-/

set_option autoImplicit false

namespace VivadoTest.Framework

/-- `RF_NUM_WRITE_PORTS` as `defs.vhd` sets it. -/
abbrev RF_NUM_WRITE_PORTS : Nat := 1

/-- An array `0 to RF_NUM_WRITE_PORTS` has a first element. -/
instance (priority := high) neZero_ports (N : Nat) : @NeZero Nat Zero.ofOfNat0 (N + 1) :=
    ⟨Nat.succ_ne_zero N⟩

/-- `byte_t`. -/
abbrev Byte := BitVec 8

/-- `datapath_t`. -/
abbrev Datapath := BitVec 32

/-- `reg_addr_t`. -/
abbrev RegAddr := BitVec 5

/-- `dmem_addr_t`. -/
abbrev DmemAddr := BitVec 10

/-- `imem_addr_t`. -/
abbrev ImemAddr := BitVec 10

/-- `state_update_dest_t`. -/
inductive StateUpdateDest
  | regfileUpdate
  | dmemUpdate
  deriving DecidableEq, Repr

/-- `expected_state_update_t`: the kind of state written, its address and the value. -/
structure ExpectedStateUpdate where
  dest : StateUpdateDest
  addr : DmemAddr
  value : Datapath
  deriving DecidableEq, Repr

/-- The all-zero update that resets and tied-off fields hold. -/
def ExpectedStateUpdate.zero : ExpectedStateUpdate := ⟨.regfileUpdate, 0, 0⟩

/-- `update_array_t`: one data memory update and one update for each register write
port. -/
abbrev UpdateArray (N : Nat) := Fin (N + 1) → ExpectedStateUpdate

/-- `std_logic_vector(0 to RF_NUM_WRITE_PORTS)`. -/
abbrev PortMask (N : Nat) := Fin (N + 1) → Bool

/-- `test_status_t`. -/
inductive TestStatus
  | notDone
  | success
  | timeout
  | updateWhileDisabled
  | extraUpdate
  | incorrectUpdate
  deriving DecidableEq, Repr

/-- The code that `TestMonitor` writes to `output.test_status` for each status. -/
def TestStatus.code : TestStatus → Byte
  | .notDone => 0x00
  | .success => 0x01
  | .timeout => 0x02
  | .updateWhileDisabled => 0x03
  | .extraUpdate => 0x04
  | .incorrectUpdate => 0x05

/-- The codes tell the states of a test apart. -/
theorem TestStatus.code_injective : Function.Injective TestStatus.code := by
  intro a b
  cases a <;> cases b <;> decide

/-- `regfile_write_port_in_t`. -/
structure RegfileWritePortIn where
  dst : RegAddr
  we : Bool
  value : Datapath
  deriving DecidableEq, Repr

/-- The outputs of the processor that the framework observes in one cycle: the data memory
port of `mips_processor_out_t` and the write ports peeked from the register file. -/
structure ProcOut (N : Nat) where
  imemAddress : ImemAddr
  dmemAddress : DmemAddr
  dmemData : Datapath
  dmemWriteEnable : Bool
  writePorts : Fin N → RegfileWritePortIn

/-- A register address in the low bits of an update address, the other bits zero. -/
def regUpdateAddr (dst : RegAddr) : DmemAddr := dst.setWidth 10

/-- `test_monitor_in.updates` as `MIPSSystem` wires it: the data memory write first, then
one update for each register write port. -/
def ProcOut.updates {N : Nat} (p : ProcOut N) : UpdateArray N :=
  Fin.cons ⟨.dmemUpdate, p.dmemAddress, p.dmemData⟩
    fun i => ⟨.regfileUpdate, regUpdateAddr (p.writePorts i).dst, (p.writePorts i).value⟩

/-- `test_monitor_in.update_wes` as `MIPSSystem` wires it. -/
def ProcOut.updateWes {N : Nat} (p : ProcOut N) : PortMask N :=
  Fin.cons p.dmemWriteEnable fun i => (p.writePorts i).we

end VivadoTest.Framework
