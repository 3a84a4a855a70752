import VivadoTest.Lib.Clocked
import VivadoTest.Host.Transfer
import VivadoTest.Proofs.MemoryMap
import VivadoTest.Proofs.UartParser

/-!
# `VivadoTest.Proofs.Transfer`: what a transferred text leaves on the board

A text of write commands becomes the writes it spells (`Transfers.op_commands`). While the
processor is disabled, the board simulates a store behind a reset flag, access by access
(`Target.simulation`); the configuration and the expected updates do not even depend on the
processor (`configurationSimulation`).

* `Board.content_of_resetProcessor`: the cells after a reset pulse and some writes.
* `Board.content_of_configuration`: the cells of the test monitor after some writes.
* `Board.processorEnable_of_stopProcessor`: what `stop_processor` leaves.

## Accesses in place of cycles

A run of the board contains any number of idle cycles between two accesses. `Transfers` relates the
text, the accesses of the run and the parser's state at the end. Everything about the board is then
said of the list of accesses: `Target` is a store, and whether the processor is held in reset.
While it is, the registers read as zero whatever is written to them, so a write to a register
counts only when the pulse is over (`Target.foldl_resetProcessor`).

Between `start_processor` of one test and `stop_processor` of the next the processor runs, and the
board is not a store then. What has to be known of that time is little: the access that disables it
takes effect (`processorEnable_of_stopProcessor`), and the cells of the test monitor are the host's
alone (`content_of_configuration`).
-/

set_option autoImplicit false

namespace VivadoTest.Framework

open VivadoTest.Lib VivadoTest.Host

variable {N : Nat}

/-! ### Write commands -/

/-- The commands that write some bytes, each given by its address and its value. -/
def commands (ws : List (Nat × Nat)) : List Char :=
  ws.flatMap fun w => HostcommProxy.writeByte w.1 w.2

/-- The accesses that they become. -/
def writeOps (ws : List (Nat × Nat)) : List BusOp :=
  ws.map fun w => .write (BitVec.ofNat 16 w.1) (BitVec.ofNat 8 w.2)

/-- Two lists of writes one after the other. -/
theorem commands_append (ws ws' : List (Nat × Nat)) :
    commands (ws ++ ws') = commands ws ++ commands ws' := List.flatMap_append

/-- The parser makes of the commands the writes that they are, and is idle behind them, so that
the next command can follow. -/
theorem UartParser.feed_commands {p : UartParser} (hp : p.mainSm = .mainIdle)
    (ws : List (Nat × Nat)) :
    (p.feed (encode (commands ws))).1.mainSm = .mainIdle ∧
      (p.feed (encode (commands ws))).2 = writeOps ws := by
  induction ws generalizing p with
  | nil => exact ⟨hp, rfl⟩
  | cons w ws ih =>
    obtain ⟨hidle, hop⟩ := feed_writeByte hp w.1 w.2
    obtain ⟨hidle', hops⟩ := ih hidle
    have hcons : commands (w :: ws) = HostcommProxy.writeByte w.1 w.2 ++ commands ws := rfl
    rw [hcons, encode_append, feed_append, hop, hops]
    exact ⟨hidle', rfl⟩

/-- `stop_processor` is one write. -/
theorem stopProcessor_eq : HostcommProxy.stopProcessor = commands [(0, 0)] := rfl

/-- `reset_processor` is a pulse of two writes. -/
theorem resetProcessor_eq : HostcommProxy.resetProcessor = commands [(1, 1), (1, 0)] := rfl

end VivadoTest.Framework

namespace VivadoTest.Host.Transfers

open VivadoTest.Framework

variable {N : Nat} {p : UartParser} {ins : List (BoardIn N)}

/-- A text that is sent in two parts. -/
theorem append {s t : List Char} (h : Transfers p (s ++ t) ins) :
    ∃ ins₁ ins₂, ins = ins₁ ++ ins₂ ∧ Transfers p s ins₁ ∧
      Transfers (p.feed (encode s)).1 t ins₂ := by
  have hacc := h.accesses
  rw [UartParser.encode_append, UartParser.feed_append, List.filterMap_eq_append_iff] at hacc
  obtain ⟨ins₁, ins₂, rfl, h₁, h₂⟩ := hacc
  exact ⟨ins₁, ins₂, rfl, ⟨fun i hi => h.reset i (List.mem_append_left _ hi), h₁⟩,
    ⟨fun i hi => h.reset i (List.mem_append_right _ hi), h₂⟩⟩

/-- The accesses of a run that transfers commands. -/
theorem op_commands (hp : p.mainSm = .mainIdle) {ws : List (Nat × Nat)}
    (h : Transfers p (commands ws) ins) : (ins.filterMap fun i => i.bus.op) = writeOps ws :=
  h.accesses.trans (UartParser.feed_commands hp ws).2

/-- An access in a transfer of write commands is one of the writes. -/
theorem mem_of_op (hp : p.mainSm = .mainIdle) {ws : List (Nat × Nat)}
    (h : Transfers p (commands ws) ins) {i : BoardIn N} (hi : i ∈ ins) {op : BusOp}
    (hop : i.bus.op = some op) :
    ∃ w ∈ ws, op = .write (BitVec.ofNat 16 w.1) (BitVec.ofNat 8 w.2) := by
  have hmem : op ∈ ins.filterMap fun i => i.bus.op := List.mem_filterMap.mpr ⟨i, hi, hop⟩
  rw [h.op_commands hp] at hmem
  obtain ⟨w, hw, rfl⟩ := List.mem_map.mp hmem
  exact ⟨w, hw, rfl⟩

end VivadoTest.Host.Transfers

namespace VivadoTest.Host

open VivadoTest.Framework

variable {N : Nat}

/-- The bus cycle of an access. -/
def busOf : BusOp → HostBus
  | .write address v => .write address v
  | .read address => .read address

/-- The bus of an access carries that access. -/
theorem op_busOf (op : BusOp) : (busOf op).op = some op := by cases op <;> rfl

/-- A run in which a text is sent, one access after the other, to a board whose processor does
nothing. -/
def sending (p : UartParser) (text : List Char) : List (BoardIn N) :=
  (p.feed (encode text)).2.map fun op => .ofBus (busOf op)

/-- The run in which the host sends a text and nothing else happens transfers it. -/
theorem transfers_sending (p : UartParser) (text : List Char) :
    Transfers (N := N) p text (sending p text) where
  reset := by
    intro i hi
    obtain ⟨op, -, rfl⟩ := List.mem_map.mp hi
    rfl
  accesses := by
    unfold sending
    rw [List.filterMap_map]
    exact (List.filterMap_congr fun op _ => op_busOf op).trans List.filterMap_some

end VivadoTest.Host

namespace VivadoTest.Framework

open VivadoTest.Lib VivadoTest.Host

variable {N : Nat}

/-! ### Accesses -/

/-- No access, no write enable. -/
theorem HostBus.op_eq_none {bus : HostBus} (h : bus.op = none) : bus.regWriteEnable = false := by
  unfold op at h
  split at h
  · exact absurd h (by simp)
  · next hw => exact Bool.not_eq_true _ ▸ hw

/-- The signals of a write. -/
theorem HostBus.op_eq_write {bus : HostBus} {address : BitVec 16} {v : Byte}
    (h : bus.op = some (.write address v)) :
    bus.regWriteEnable = true ∧ bus.regAddress = address ∧ bus.regWriteData = v := by
  unfold op at h
  split at h
  · next hw =>
    obtain ⟨rfl, rfl⟩ := BusOp.write.inj (Option.some.inj h)
    exact ⟨hw, rfl, rfl⟩
  · split at h
    · exact absurd (Option.some.inj h) (by simp)
    · exact absurd h (by simp)

/-- A read does not enable a write. -/
theorem HostBus.op_eq_read {bus : HostBus} {address : BitVec 16}
    (h : bus.op = some (.read address)) : bus.regWriteEnable = false := by
  unfold op at h
  split at h
  · exact absurd (Option.some.inj h) (by simp)
  · next hw => exact Bool.not_eq_true _ ▸ hw

/-- A bus cycle is the access made in it. -/
theorem Store.step_eq_access (st : Store) {bus : HostBus} {op : BusOp} (h : bus.op = some op) :
    Store.step st bus = st.access op := by
  cases op with
  | write address v =>
    obtain ⟨hw, rfl, rfl⟩ := HostBus.op_eq_write h
    funext c
    unfold Store.step Store.access Store.write HostBus.WritesTo
    simp [hw]
  | read address =>
    funext c
    unfold Store.step Store.access HostBus.WritesTo
    simp [HostBus.op_eq_read h]

/-- A cycle without an access leaves the store alone. -/
theorem Store.step_eq_self (st : Store) {bus : HostBus} (h : bus.op = none) :
    Store.step st bus = st := by
  funext c
  unfold Store.step HostBus.WritesTo
  simp [HostBus.op_eq_none h]

/-- The accesses of a list of writes leave the store that the writes leave. -/
theorem Store.foldl_access_writeOps (st : Store) (ws : List (Nat × Nat)) :
    (writeOps ws).foldl Store.access st = Store.writes st ws := by
  unfold writeOps Store.writes
  rw [List.foldl_map]
  rfl

/-! ### The control registers -/

/-- A control bit after an access. -/
def controlAfter (address : BitVec 16) (bit : Bool) : BusOp → Bool
  | .write a v => if a = address then v.getLsbD 0 else bit
  | .read _ => bit

/-- A control bit in terms of the access of the cycle, in place of the signals on the bus. -/
theorem controlAfter_of_op (address : BitVec 16) (bit : Bool) {bus : HostBus} :
    (if bus.regWriteEnable = true ∧ bus.regAddress = address then bus.regWriteData.getLsbD 0
      else bit) = bus.op.elim bit (controlAfter address bit) := by
  cases hop : bus.op with
  | none => simp [HostBus.op_eq_none hop]
  | some op =>
    cases op with
    | write a v =>
      obtain ⟨hw, rfl, rfl⟩ := HostBus.op_eq_write hop
      simp [hw, controlAfter]
    | read a => simp [HostBus.op_eq_read hop, controlAfter]

namespace Board

variable {b : Board N} {input : BoardIn N}

/-- One rising edge, seen at the bit that enables the processor. -/
theorem processorEnable_step (hreset : input.reset = false) : (b.step input).processorEnable
    = input.bus.op.elim b.processorEnable (controlAfter REG_ADDR_PROC_EN b.processorEnable) := by
  show (b.hostComm.step input.reset input.bus).procEnableSignal = _
  unfold HostComm.step
  simp only [hreset, Bool.false_eq_true, if_false]
  exact controlAfter_of_op _ _

/-- The same at the bit that holds it in reset. -/
theorem processorReset_step (hreset : input.reset = false) : (b.step input).processorReset
    = input.bus.op.elim b.processorReset (controlAfter REG_ADDR_PROC_RESET b.processorReset) := by
  show (b.hostComm.step input.reset input.bus).procResetSignal = _
  unfold HostComm.step
  simp only [hreset, Bool.false_eq_true, if_false]
  exact controlAfter_of_op _ _

/-- The enable bit follows the accesses. -/
def enableSimulation : WeakSimulation (Board.step (N := N)) (controlAfter REG_ADDR_PROC_EN)
    (fun i => i.bus.op) (fun i => i.reset = false) where
  Rel b bit := b.processorEnable = bit
  visible := by
    rintro b _ i op hi hop rfl
    rw [processorEnable_step hi, hop]
    rfl
  silent := by
    rintro b _ i hi hop rfl
    rw [processorEnable_step hi, hop]
    rfl

/-- Behind `stop_processor` the processor is disabled, whatever it has done before. -/
theorem processorEnable_of_stopProcessor {p : UartParser} (hp : p.mainSm = .mainIdle)
    {ins : List (BoardIn N)} (h : Transfers p HostcommProxy.stopProcessor ins) :
    (ins.foldl Board.step b).processorEnable = false := by
  have hsim := enableSimulation.foldl h.reset (s := b) (a := b.processorEnable) rfl
  rw [stopProcessor_eq] at h
  rw [h.op_commands hp] at hsim
  exact hsim

end Board

/-! ### The store behind the reset -/

/-- The store, and whether the processor is held in reset. -/
structure Target where
  held : Bool
  store : Store

/-- An access. While the reset is on, the registers are zero. -/
def Target.step (t : Target) (op : BusOp) : Target where
  held := controlAfter REG_ADDR_PROC_RESET t.held op
  store := fun c => if t.held = true ∧ c.isRegfile = true then 0 else t.store.access op c

/-- A cycle in which the host keeps the processor disabled. -/
structure BoardIn.KeepsDisabled (input : BoardIn N) : Prop extends input.HostCycle where
  notEnabled : ∀ op, input.bus.op = some op → controlAfter REG_ADDR_PROC_EN false op = false

namespace Target

/-- The board agrees with the target; the registers count once the reset is off. -/
structure Agrees (b : Board N) (t : Target) : Prop where
  processorEnable : b.processorEnable = false
  processorReset : b.processorReset = t.held
  content : ∀ c, (t.held = true → c.isRegfile = false) → b.content c = t.store c

/-- One rising edge under the processor's reset: the registers are cleared, everything else
follows the bus. -/
theorem Agrees.content_step {b : Board N} {t : Target} (h : Agrees b t) {input : BoardIn N}
    (hin : input.HostCycle) (c : Cell) :
    (b.step input).content c
      = if t.held = true ∧ c.isRegfile = true then 0 else Store.step t.store input.bus c := by
  -- While the reset is on, the board agrees with the store everywhere but in the registers.
  rw [Board.content_step h.processorEnable hin, h.processorReset]
  by_cases hc : t.held = true ∧ c.isRegfile = true
  · rw [if_pos hc, if_pos hc]
  · rw [if_neg hc, if_neg hc]
    have hcell : b.content c = t.store c := by
      refine h.content c fun hheld => ?_
      rw [← Bool.not_eq_true]
      exact fun hreg => hc ⟨hheld, hreg⟩
    unfold Store.step
    rw [hcell]

/-- The board and the abstract target: a bus access of the board is an operation of the target,
any other cycle is none. -/
def simulation : WeakSimulation (Board.step (N := N)) Target.step (fun i => i.bus.op)
    BoardIn.KeepsDisabled where
  Rel := Agrees
  visible := by
    intro b t i op hi hop h
    refine ⟨?_, ?_, fun c _ => ?_⟩
    · rw [Board.processorEnable_step hi.reset, hop, h.processorEnable]
      exact hi.notEnabled op hop
    · rw [Board.processorReset_step hi.reset, hop, h.processorReset]
      rfl
    · rw [h.content_step hi.toHostCycle, Store.step_eq_access _ hop]
      rfl
  silent := by
    intro b t i hi hop h
    refine ⟨?_, ?_, fun c hc => ?_⟩
    · rw [Board.processorEnable_step hi.reset, hop]
      exact h.processorEnable
    · rw [Board.processorReset_step hi.reset, hop]
      exact h.processorReset
    · rw [h.content_step hi.toHostCycle, Store.step_eq_self _ hop, if_neg]
      rintro ⟨hheld, hreg⟩
      rw [hc hheld] at hreg
      exact absurd hreg Bool.false_ne_true

/-- Writes once the reset is off. -/
theorem foldl_writeOps (st : Store) {ws : List (Nat × Nat)}
    (hws : ∀ op ∈ writeOps ws, op.Harmless) :
    (writeOps ws).foldl Target.step ⟨false, st⟩ = ⟨false, Store.writes st ws⟩ := by
  induction ws generalizing st with
  | nil => rfl
  | cons w ws ih =>
    have hw : (BusOp.write (BitVec.ofNat 16 w.1) (BitVec.ofNat 8 w.2)).Harmless :=
      hws _ List.mem_cons_self
    have hstep : Target.step ⟨false, st⟩ (.write (BitVec.ofNat 16 w.1) (BitVec.ofNat 8 w.2))
        = ⟨false, st.write (BitVec.ofNat 16 w.1) (BitVec.ofNat 8 w.2)⟩ := by
      have hheld : controlAfter REG_ADDR_PROC_RESET false
          (.write (BitVec.ofNat 16 w.1) (BitVec.ofNat 8 w.2)) = false := by
        show (if BitVec.ofNat 16 w.1 = REG_ADDR_PROC_RESET then _ else false) = false
        split
        · next ha => exact hw (Or.inr ha)
        · rfl
      unfold Target.step
      rw [hheld]
      simp [Store.access]
    show (writeOps ws).foldl Target.step (Target.step ⟨false, st⟩ _) = _
    rw [hstep, ih _ fun op hop => hws op (List.mem_cons_of_mem _ hop)]
    rfl

/-- A reset pulse. -/
theorem foldl_resetProcessor (t : Target) :
    (writeOps [(1, 1), (1, 0)]).foldl Target.step t
      = ⟨false, fun c => if c.isRegfile = true then 0 else t.store c⟩ := by
  have hcell : cellOf (BitVec.ofNat 16 1) = none := by decide
  unfold writeOps
  simp only [List.map_cons, List.map_nil, List.foldl_cons, List.foldl_nil]
  unfold Target.step controlAfter Store.access Store.write
  simp only [hcell, REG_ADDR_PROC_RESET]
  congr 1
  funext c
  cases c.isRegfile <;> simp

end Target

namespace Board

variable {b : Board N}

/-- A reset pulse and some harmless writes do not enable the processor. -/
theorem notEnabled_of_resetProcessor {p : UartParser} (hp : p.mainSm = .mainIdle)
    {ws : List (Nat × Nat)} (hws : ∀ op ∈ writeOps ws, op.Harmless) {ins : List (BoardIn N)}
    (h : Transfers p (HostcommProxy.resetProcessor ++ commands ws) ins) :
    ∀ i ∈ ins, ∀ op, i.bus.op = some op → controlAfter REG_ADDR_PROC_EN false op = false := by
  rw [resetProcessor_eq, ← commands_append] at h
  intro i hi op hop
  obtain ⟨w, hw, rfl⟩ := h.mem_of_op hp hi hop
  show (if BitVec.ofNat 16 w.1 = REG_ADDR_PROC_EN then _ else false) = false
  split
  · next ha =>
    rcases List.mem_append.mp hw with hw | hw
    · rcases List.mem_cons.mp hw with rfl | hw
      · exact absurd ha (by decide)
      · rw [List.mem_singleton.mp hw] at ha
        exact absurd ha (by decide)
    · exact hws _ (List.mem_map_of_mem hw) (Or.inl ha)
  · rfl

/-- The board after a reset pulse and some writes, the processor being disabled. -/
theorem content_of_resetProcessor (hb : b.processorEnable = false) {p : UartParser}
    (hp : p.mainSm = .mainIdle) {ws : List (Nat × Nat)} (hws : ∀ op ∈ writeOps ws, op.Harmless)
    {ins : List (BoardIn N)} (h : Transfers p (HostcommProxy.resetProcessor ++ commands ws) ins)
    (hquiet : Quiet ins) (c : Cell) :
    (ins.foldl Board.step b).content c
      = Store.writes (fun c => if c.isRegfile = true then 0 else b.content c) ws c := by
  have hkeeps : ∀ i ∈ ins, i.KeepsDisabled := fun i hi =>
    ⟨⟨h.reset i hi, hquiet i hi⟩, notEnabled_of_resetProcessor hp hws h i hi⟩
  rw [resetProcessor_eq, ← commands_append] at h
  have hsim := Target.simulation.foldl hkeeps (s := b) (a := ⟨b.processorReset, b.content⟩)
    ⟨hb, rfl, fun _ _ => rfl⟩
  have hops : (ins.filterMap fun i => i.bus.op) = writeOps [(1, 1), (1, 0)] ++ writeOps ws := by
    rw [h.op_commands hp]
    exact List.map_append
  rw [hops, List.foldl_append, Target.foldl_resetProcessor, Target.foldl_writeOps _ hws] at hsim
  exact hsim.content c fun hheld => absurd hheld Bool.false_ne_true

/-- The cells of the test monitor follow the accesses whatever the processor does. -/
def configurationSimulation : WeakSimulation (Board.step (N := N)) Store.access
    (fun i => i.bus.op) (fun i => i.reset = false) where
  Rel b st := ∀ c, c.isConfiguration = true → b.content c = st c
  visible := by
    intro b st i op hi hop h c hc
    rw [content_step_configuration hi hc, ← Store.step_eq_access _ hop]
    unfold Store.step
    rw [h c hc]
  silent := by
    intro b st i hi hop h c hc
    rw [content_step_configuration hi hc, Store.step_eq_self _ hop]
    exact h c hc

/-- A run that transfers writes leaves in the cells of the test monitor what the writes leave
there. The processor may do what it likes meanwhile. -/
theorem content_of_configuration {p : UartParser} (hp : p.mainSm = .mainIdle)
    {ws : List (Nat × Nat)} {ins : List (BoardIn N)} (h : Transfers p (commands ws) ins) {c : Cell}
    (hc : c.isConfiguration = true) :
    (ins.foldl Board.step b).content c = Store.writes b.content ws c := by
  have hsim := configurationSimulation.foldl h.reset (s := b) (a := b.content) fun _ _ => rfl
  rw [h.op_commands hp, Store.foldl_access_writeOps] at hsim
  exact hsim c hc

end Board

end VivadoTest.Framework
