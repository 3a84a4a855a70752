import VivadoTest.Lib.Returns
import VivadoTest.Host.SerialLine
import VivadoTest.Proofs.MemoryMap
import VivadoTest.Proofs.UartParser

/-!
# `VivadoTest.Proofs.Report`: the failure report that the host reads

The monitor writes its outputs in the cycle of the first verdict and keeps them until it is
configured again (`Latched`). A run that ends with an incorrect update has a cycle of that
verdict (`exists_verdict`), whose greedy matching fails at a first entry
(`exists_firstFailure`), and the fourteen reads of `read_update_pair` find the two latched
updates whole (`readUpdatePair_returns`).

* `Board.readUpdatePair_firstFailure`: the report is the first failure.

## The reads

The host reads two updates of seven bytes each, in fourteen commands, while the board goes on. Each
read is a session with the line (`SerialLine.readByte_run`), and in each of them the mux shows a
byte of the latched report. The bytes are put together by the host in the order in which the
registers are numbered, the most significant first (`addrBytes`, `valueBytes`).

`Board.exists_verdict` looks back from the status to the cycle in which it was decided: an
incorrect update is shown only behind such a cycle, with no restart in between.
-/

set_option autoImplicit false

namespace VivadoTest.Framework

open VivadoTest.Lib VivadoTest.Lib.GreedyMatch VivadoTest.Host VivadoTest.Spec

variable {N : Nat}

/-! ### The latch -/

/-- The monitor has had its verdict and holds `o`. -/
structure TestMonitorState.Latched (o : TestMonitorOut) (s : TestMonitorState N) : Prop where
  testWasDone : s.testWasDone = true
  output : s.output = o

/-- A latched report stays as it is without a restart. -/
theorem TestMonitorState.Latched.step {o : TestMonitorOut} {s : TestMonitorState N}
    (h : s.Latched o) {input : TestMonitorIn N} (hreset : input.reset = false)
    (htest : input.testReset = false) : (s.step input).Latched o := by
  rw [s.step_of_not_testReset hreset htest]
  constructor
  · show (s.testWasDone || s.testDone) = true
    rw [h.testWasDone, Bool.true_or]
  · show s.outputStep = o
    unfold outputStep
    rw [if_pos h.testWasDone, h.output]

/-- A cycle without a reset in which the host writes to no configuration register and to no
expected update. -/
structure BoardIn.KeepsVerdict (input : BoardIn N) : Prop where
  reset : input.reset = false
  writes : ∀ c, input.bus.WritesTo c → c.isConfiguration = false

/-- Any write that restarts the monitor is a write to one of its cells. -/
theorem BoardIn.KeepsVerdict.testReset {input : BoardIn N} (h : input.KeepsVerdict) (b : Board N) :
    (b.testMonitorIn input).testReset = false := by
  have hcell : ∀ c, c.isConfiguration = true → ¬ input.bus.WritesTo c := by
    intro c hc hw
    rw [h.writes c hw] at hc
    exact absurd hc Bool.false_ne_true
  -- No write to a cell of the test monitor, so no enable of its registers.
  have hconfig : ∀ (c : Cell) (address : BitVec 16), c.isConfiguration = true →
      cellOf address = some c → input.bus.configWe address = false := by
    intro c address hc ha
    rw [← Bool.not_eq_true, Board.configWe_eq_true_iff]
    rintro ⟨hwe, rfl⟩
    exact hcell c hc ⟨hwe, ha⟩
  rw [TestMonitorIn.testReset_eq_false_iff]
  refine ⟨?_, ?_, ?_, ?_, ?_⟩
  · show (BitVec.ofBool _ ++ BitVec.ofBool _).getLsbD 0 = false
    rw [(Board.getLsbD_weMask _ _).2]
    exact hconfig .numExpUpdatesLo _ rfl (by decide)
  · show (BitVec.ofBool _ ++ BitVec.ofBool _).getLsbD 1 = false
    rw [(Board.getLsbD_weMask _ _).1]
    exact hconfig .numExpUpdatesHi _ rfl (by decide)
  · show input.bus.tmExpupdWe = false
    rw [← Bool.not_eq_true, Board.tmExpupdWe_eq_true_iff]
    rintro ⟨hwe, hnibble⟩
    exact hcell (.expupd _) rfl ⟨hwe, (cellOf_eq_some_iff _ (.expupd _)).mpr ⟨hnibble, rfl⟩⟩
  · show (BitVec.ofBool _ ++ BitVec.ofBool _).getLsbD 0 = false
    rw [(Board.getLsbD_weMask _ _).2]
    exact hconfig .maxWaitTimeLo _ rfl (by decide)
  · show (BitVec.ofBool _ ++ BitVec.ofBool _).getLsbD 1 = false
    rw [(Board.getLsbD_weMask _ _).1]
    exact hconfig .maxWaitTimeHi _ rfl (by decide)

/-- And so over every run of the board that keeps the verdict. -/
theorem Board.latched_foldl {o : TestMonitorOut} {b : Board N} (h : b.testMonitor.Latched o)
    {ins : List (BoardIn N)} (hins : ∀ i ∈ ins, i.KeepsVerdict) :
    (ins.foldl Board.step b).testMonitor.Latched o :=
  foldl_invariant (P := fun b : Board N => b.testMonitor.Latched o)
    (fun b _ hi hb => hb.step hi.reset (hi.testReset b)) hins h

/-! ### The verdict cycle -/

namespace TestMonitorState

/-- The monitor gives its first verdict, an incorrect update, in the cycle `input`. -/
structure FailsIn (s : TestMonitorState N) (input : TestMonitorIn N) : Prop where
  testWasDone : s.testWasDone = false
  testStatus : s.testStatus = .incorrectUpdate
  reset : input.reset = false
  testReset : input.testReset = false

/-- A restart clears the status. -/
theorem testStatus_step_of_restart (s : TestMonitorState N) {input : TestMonitorIn N}
    (h : input.reset = true ∨ input.testReset = true) :
    (s.step input).output.testStatus = 0 := by
  unfold step
  by_cases hreset : input.reset = true
  · rw [if_pos hreset]
  · rw [if_neg hreset]
    simp only [h.resolve_left hreset, if_true]

/-- A monitor that shows an incorrect update after a cycle showed it before or gives that
verdict in the cycle. -/
theorem output_step_of_incorrectUpdate (s : TestMonitorState N) {input : TestMonitorIn N}
    (h : (s.step input).output.testStatus = TestStatus.incorrectUpdate.code) :
    input.reset = false ∧ input.testReset = false ∧
      ((s.step input).output = s.output ∨ s.FailsIn input) := by
  have hrun : ¬ (input.reset = true ∨ input.testReset = true) := by
    intro hr
    rw [s.testStatus_step_of_restart hr] at h
    exact absurd h (by decide)
  rw [not_or, Bool.not_eq_true, Bool.not_eq_true] at hrun
  obtain ⟨hreset, htest⟩ := hrun
  refine ⟨hreset, htest, ?_⟩
  rw [s.step_of_not_testReset hreset htest] at h ⊢
  show s.outputStep = s.output ∨ _
  have h' : s.outputStep.testStatus = TestStatus.incorrectUpdate.code := h
  unfold outputStep at h' ⊢
  by_cases hdone : s.testWasDone = true
  · exact Or.inl (if_pos hdone)
  · rw [if_neg hdone] at h'
    rw [Bool.not_eq_true] at hdone
    exact Or.inr ⟨hdone, TestStatus.code_injective h', hreset, htest⟩

/-- What the verdict cycle latches. -/
theorem FailsIn.latched {s : TestMonitorState N} {input : TestMonitorIn N} (h : s.FailsIn input) :
    (s.step input).Latched
      { testStatus := TestStatus.incorrectUpdate.code
        testCycleCount := BitVec.ofNat 16 s.testCycleCounter
        unmatchedExpected := s.checkIn.firstUnmatched.1
        badActual := s.checkIn.firstUnmatched.2 } := by
  rw [s.step_of_not_testReset h.reset h.testReset]
  constructor
  · show (s.testWasDone || s.testDone) = true
    simp [testDone, h.testStatus]
  · show s.outputStep = _
    unfold outputStep
    rw [if_neg (by rw [h.testWasDone]; exact Bool.false_ne_true), h.testStatus]
    rfl

end TestMonitorState

/-- A run of the board that ends with an incorrect update has a cycle of that verdict, and no
restart behind it. -/
theorem Board.exists_verdict {b : Board N} {ins : List (BoardIn N)}
    (h0 : b.testMonitor.output.testStatus ≠ TestStatus.incorrectUpdate.code)
    (h : (ins.foldl Board.step b).testMonitor.output.testStatus = TestStatus.incorrectUpdate.code) :
    ∃ pre verdict post, ins = pre ++ verdict :: post ∧
      (pre.foldl Board.step b).testMonitor.FailsIn
        ((pre.foldl Board.step b).testMonitorIn verdict) ∧
      ∀ i ∈ post, i.reset = false ∧ ∀ b' : Board N, (b'.testMonitorIn i).testReset = false := by
  induction ins using List.reverseRecOn with
  | nil => exact absurd h h0
  | append_singleton ins input ih =>
    rw [List.foldl_append] at h
    obtain ⟨hreset, htest, hkeep | hfail⟩ :=
      (ins.foldl Board.step b).testMonitor.output_step_of_incorrectUpdate h
    · have hprev : (ins.foldl Board.step b).testMonitor.output.testStatus
          = TestStatus.incorrectUpdate.code := by
        rw [← hkeep]
        exact h
      obtain ⟨pre, verdict, post, rfl, hv, hpost⟩ := ih hprev
      refine ⟨pre, verdict, post ++ [input], by simp, hv, ?_⟩
      intro i hi
      rcases List.mem_append.mp hi with hi | hi
      · exact hpost i hi
      · obtain rfl := List.mem_singleton.mp hi
        exact ⟨hreset, fun _ => htest⟩
    · exact ⟨ins, input, [], rfl, hfail, by simp⟩

/-! ### The first failure -/

/-- The entry `j` is the first at which the greedy matching of the checked cycle fails. -/
structure TestChecksIn.FirstFailure (input : TestChecksIn N) (j : Fin (N + 1)) : Prop where
  failsAt : FailsAt (ports input.updateWes) input.actual input.entry j.val
  first : ∀ i < j.val, ¬ FailsAt (ports input.updateWes) input.actual input.entry i

/-- The update on the lowest port that the entries below `j` have left. -/
def TestChecksIn.FirstFailure.lowestLeft {input : TestChecksIn N} {j : Fin (N + 1)}
    (h : input.FirstFailure j) : ExpectedStateUpdate :=
  input.actual ((remaining (ports input.updateWes) input.actual input.entry j.val).min' h.failsAt.1)

/-- The outputs that describe the first failure. -/
def TestMonitorState.failureReport (s : TestMonitorState N) {j : Fin (N + 1)}
    (h : s.checkIn.FirstFailure j) : TestMonitorOut where
  testStatus := TestStatus.incorrectUpdate.code
  testCycleCount := BitVec.ofNat 16 s.testCycleCounter
  unmatchedExpected := s.checkIn.expected j
  badActual := h.lowestLeft

/-- The cycle in which the test fails latches the pair of the first failing check. -/
theorem TestMonitorState.FailsIn.latched_failureReport {s : TestMonitorState N}
    {input : TestMonitorIn N} (h : s.FailsIn input) {j : Fin (N + 1)}
    (hj : s.checkIn.FirstFailure j) : (s.step input).Latched (s.failureReport hj) := by
  have hlatched := h.latched
  rw [s.checkIn.firstUnmatched_eq j hj.failsAt hj.first] at hlatched
  exact hlatched

/-- An incorrect update is a failure of the matching. -/
theorem TestMonitorState.exists_firstFailure {s : TestMonitorState N}
    (h : s.testStatus = .incorrectUpdate) : ∃ j, s.checkIn.FirstFailure j := by
  have hany : s.checkIn.anyUnexpectedUpdate = true := by
    unfold testStatus at h
    split_ifs at h with hidle htime hfound hnext
    -- the checks found an error, and it is neither a disabled processor nor a surplus update
    have hfound' : ((s.checkIn.anyUpdate && (!s.checkIn.procEn || s.checkIn.shouldBeDone))
      || s.checkIn.anyUnexpectedUpdate) = true := hfound
    have hstatus : s.checkIn.status = .incorrectUpdate := h
    unfold TestChecksIn.status at hstatus
    split_ifs at hstatus with hdisabled hsurplus
    revert hfound' hdisabled hsurplus
    cases s.checkIn.anyUpdate <;> cases s.checkIn.procEn <;> cases s.checkIn.shouldBeDone <;> simp
  obtain ⟨i, hi, hf⟩ := s.checkIn.anyUnexpectedUpdate_iff.mp hany
  classical
  have hex : ∃ i, FailsAt (ports s.checkIn.updateWes) s.checkIn.actual s.checkIn.entry i := ⟨i, hf⟩
  refine ⟨⟨Nat.find hex, (Nat.find_min' hex hf).trans_lt hi⟩, Nat.find_spec hex, ?_⟩
  exact fun k hk => Nat.find_min hex hk

/-! ### The host's reads -/

/-- An update as the host prints it. -/
def reported (u : ExpectedStateUpdate) : StateUpdate where
  isDmem := if u.dest = .dmemUpdate then 1 else 0
  addr := u.addr.toNat
  val := u.value.toNat

/-- The address, put together from its two bytes. -/
theorem addrBytes (u : ExpectedStateUpdate) :
    (addrHiByte u).toNat <<< 8 + (addrLoByte u).toNat = u.addr.toNat := by
  have hlt := u.addr.isLt
  unfold addrHiByte addrLoByte
  rw [BitVec.toNat_setWidth, BitVec.extractLsb'_toNat, BitVec.extractLsb'_toNat, Nat.shiftLeft_eq,
    Nat.shiftRight_eq_div_pow, Nat.shiftRight_eq_div_pow]
  omega

/-- The value, put together from its four bytes. -/
theorem valueBytes (v : Datapath) :
    (((bigEndianByte v 0).toNat <<< 8 + (bigEndianByte v 1).toNat) <<< 8
      + (bigEndianByte v 2).toNat) <<< 8 + (bigEndianByte v 3).toNat = v.toNat := by
  have hlt := v.isLt
  unfold bigEndianByte byteAt
  simp only [BitVec.extractLsb'_toNat, Nat.shiftLeft_eq, Nat.shiftRight_eq_div_pow]
  omega

/-- The byte of the destination tells data memory from the register file as the host reads it. -/
theorem destByte_toNat (u : ExpectedStateUpdate) :
    (destByte u).toNat = (reported u).isDmem := by
  unfold destByte reported
  cases h : u.dest <;> simp

/-- The registers `base` to `base + 6` show an update of the report. -/
structure Board.ShowsUpdate (b : Board N) (next : BoardIn N) (base : BitVec 16)
    (u : ExpectedStateUpdate) : Prop where
  isDmem : next.bus.regAddress = base → b.regReadData next = destByte u
  addrHi : next.bus.regAddress = base + 1 → b.regReadData next = addrHiByte u
  addrLo : next.bus.regAddress = base + 2 → b.regReadData next = addrLoByte u
  value0 : next.bus.regAddress = base + 3 → b.regReadData next = bigEndianByte u.value 0
  value1 : next.bus.regAddress = base + 4 → b.regReadData next = bigEndianByte u.value 1
  value2 : next.bus.regAddress = base + 5 → b.regReadData next = bigEndianByte u.value 2
  value3 : next.bus.regAddress = base + 6 → b.regReadData next = bigEndianByte u.value 3

/-- The registers of the report: the expected update, then the actual one. -/
theorem Board.showsUpdate_report (b : Board N) (next : BoardIn N) :
    b.ShowsUpdate next 0x09 b.testMonitor.output.unmatchedExpected ∧
      b.ShowsUpdate next 0x10 b.testMonitor.output.badActual := by
  have hmux : ∀ address : BitVec 16, next.bus.regAddress = address →
      b.regReadData next
        = b.hostComm.regReadData (b.hostCommIn next) { next.bus with regAddress := address } := by
    rintro _ rfl
    rfl
  refine ⟨⟨?_, ?_, ?_, ?_, ?_, ?_, ?_⟩, ?_, ?_, ?_, ?_, ?_, ?_, ?_⟩ <;>
  · intro h
    rw [hmux _ h]
    simp only [HostComm.regReadData, HostBus.isAccessToRf, HostBus.isAccessToExpupd,
      decide_eq_true_eq]
    -- none of the memories
    rw [if_neg (by decide), if_neg (by decide), if_neg (by decide), if_neg (by decide)]
    rfl

end VivadoTest.Framework

namespace VivadoTest.Host

open VivadoTest.Lib VivadoTest.Framework

variable {N : Nat}

/-- A line on which the host can read while the monitor holds `o`. -/
structure SerialLine.Ready (o : TestMonitorOut) (n : Nat) (line : SerialLine N) : Prop where
  latched : line.board.testMonitor.Latched o
  parser : line.parser.mainSm = .mainIdle
  waits : ∀ session ∈ line.sessions, ∀ i ∈ session.wait, i.KeepsVerdict
  sessions : n ≤ line.sessions.length

/-- A read by a host whose parser is idle: the byte that the mux shows in the cycle in which the
parser samples it. -/
theorem SerialLine.readByte_run (board : Board N) {parser : UartParser}
    (hparser : parser.mainSm = .mainIdle) (session : Session N) (sessions : List (Session N))
    (addr : Nat) :
    ∃ parser' : UartParser, parser'.mainSm = .mainIdle ∧
      (SerialLine.readByte addr).run ⟨board, parser, session :: sessions⟩
        = some (((requested board session (BitVec.ofNat 16 addr)).regReadData
            (sampling session (BitVec.ofNat 16 addr))).toNat,
          ⟨(requested board session (BitVec.ofNat 16 addr)).step
            (sampling session (BitVec.ofNat 16 addr)), parser', sessions⟩) := by
  obtain ⟨hidle, hops⟩ := UartParser.feed_readByteCommand hparser addr
  refine ⟨_, hidle, ?_⟩
  have hops' : (parser.feed (encode (HostcommProxy.readByteCommand addr))).2
    = [.read (BitVec.ofNat 16 addr)] := hops
  have hresult := readByteResult_readAnswer ((requested board session
    (BitVec.ofNat 16 addr)).regReadData (sampling session (BitVec.ofNat 16 addr)))
  simp [readByte, hops', hresult]

/-- A read at an address: `v o` is what the read mux shows there of the latched outputs. -/
theorem SerialLine.readByte_returns (o : TestMonitorOut) (addr : Nat) (v : TestMonitorOut → Byte)
    (hv : ∀ (b : Board N) (next : BoardIn N), next.bus.regAddress = BitVec.ofNat 16 addr →
      b.regReadData next = v b.testMonitor.output) :
    Returns (SerialLine.Ready (N := N) o) 1 (SerialLine.readByte addr) (v o).toNat := by
  intro n line hline
  obtain ⟨board, parser, sessions⟩ := line
  obtain ⟨session, sessions, rfl⟩ : ∃ x xs, sessions = x :: xs :=
    List.exists_cons_of_length_pos (Nat.lt_of_lt_of_le (Nat.succ_pos n) hline.sessions)
  obtain ⟨parser', hidle, hrun⟩ := readByte_run board hline.parser session sessions addr
  have hwait : (session.wait.foldl Board.step board).testMonitor.Latched o :=
    Board.latched_foldl hline.latched (hline.waits session List.mem_cons_self)
  have haccess : ∀ (b : Board N) (bus : HostBus) (proc : ProcOut N), bus.regWriteEnable = false →
      b.testMonitor.Latched o → (b.step ⟨false, bus, proc⟩).testMonitor.Latched o := by
    intro b bus proc hbus hb
    have hkeeps : (⟨false, bus, proc⟩ : BoardIn N).KeepsVerdict :=
      ⟨rfl, fun c hc => absurd hc.1 (by rw [hbus]; exact Bool.false_ne_true)⟩
    exact hb.step rfl (hkeeps.testReset b)
  have hrequested : (requested board session (BitVec.ofNat 16 addr)).testMonitor.Latched o :=
    haccess _ _ _ rfl hwait
  have hlength : n ≤ sessions.length := Nat.le_of_succ_le_succ hline.sessions
  refine ⟨⟨(requested board session (BitVec.ofNat 16 addr)).step
    (sampling session (BitVec.ofNat 16 addr)), parser', sessions⟩, ?_, ?_⟩
  · rw [hrun, hv _ _ rfl, hrequested.output]
  · exact ⟨haccess _ _ _ rfl hrequested, hidle,
      fun x hx => hline.waits x (List.mem_cons_of_mem _ hx), hlength⟩

/-- The fourteen reads of the report. -/
theorem SerialLine.readUpdatePair_returns (o : TestMonitorOut) :
    Returns (SerialLine.Ready (N := N) o) 14 (HostcommProxy.readUpdatePair SerialLine.readByte)
      (reported o.unmatchedExpected, reported o.badActual) := by
  -- The result in terms of the fourteen bytes.
  have hval : (reported o.unmatchedExpected, reported o.badActual)
      = ((⟨(destByte o.unmatchedExpected).toNat,
          (addrHiByte o.unmatchedExpected).toNat <<< 8 + (addrLoByte o.unmatchedExpected).toNat,
          (((bigEndianByte o.unmatchedExpected.value 0).toNat <<< 8
            + (bigEndianByte o.unmatchedExpected.value 1).toNat) <<< 8
            + (bigEndianByte o.unmatchedExpected.value 2).toNat) <<< 8
            + (bigEndianByte o.unmatchedExpected.value 3).toNat⟩,
        ⟨(destByte o.badActual).toNat,
          (addrHiByte o.badActual).toNat <<< 8 + (addrLoByte o.badActual).toNat,
          (((bigEndianByte o.badActual.value 0).toNat <<< 8
            + (bigEndianByte o.badActual.value 1).toNat) <<< 8
            + (bigEndianByte o.badActual.value 2).toNat) <<< 8
            + (bigEndianByte o.badActual.value 3).toNat⟩) : StateUpdate × StateUpdate) := by
    rw [addrBytes, addrBytes, valueBytes, valueBytes, destByte_toNat, destByte_toNat]
    rfl
  rw [hval]
  -- Fourteen reads, each of which leaves one session less on the line.
  unfold HostcommProxy.readUpdatePair
  refine (readByte_returns o 0x09 (fun o => destByte o.unmatchedExpected)
    fun b next => (b.showsUpdate_report next).1.isDmem).bind ?_
  refine (readByte_returns o 0x0A (fun o => addrHiByte o.unmatchedExpected)
    fun b next => (b.showsUpdate_report next).1.addrHi).bind ?_
  refine (readByte_returns o 0x0B (fun o => addrLoByte o.unmatchedExpected)
    fun b next => (b.showsUpdate_report next).1.addrLo).bind ?_
  refine (readByte_returns o 0x0C (fun o => bigEndianByte o.unmatchedExpected.value 0)
    fun b next => (b.showsUpdate_report next).1.value0).bind ?_
  refine (readByte_returns o 0x0D (fun o => bigEndianByte o.unmatchedExpected.value 1)
    fun b next => (b.showsUpdate_report next).1.value1).bind ?_
  refine (readByte_returns o 0x0E (fun o => bigEndianByte o.unmatchedExpected.value 2)
    fun b next => (b.showsUpdate_report next).1.value2).bind ?_
  refine (readByte_returns o 0x0F (fun o => bigEndianByte o.unmatchedExpected.value 3)
    fun b next => (b.showsUpdate_report next).1.value3).bind ?_
  refine (readByte_returns o 0x10 (fun o => destByte o.badActual)
    fun b next => (b.showsUpdate_report next).2.isDmem).bind ?_
  refine (readByte_returns o 0x11 (fun o => addrHiByte o.badActual)
    fun b next => (b.showsUpdate_report next).2.addrHi).bind ?_
  refine (readByte_returns o 0x12 (fun o => addrLoByte o.badActual)
    fun b next => (b.showsUpdate_report next).2.addrLo).bind ?_
  refine (readByte_returns o 0x13 (fun o => bigEndianByte o.badActual.value 0)
    fun b next => (b.showsUpdate_report next).2.value0).bind ?_
  refine (readByte_returns o 0x14 (fun o => bigEndianByte o.badActual.value 1)
    fun b next => (b.showsUpdate_report next).2.value1).bind ?_
  refine (readByte_returns o 0x15 (fun o => bigEndianByte o.badActual.value 2)
    fun b next => (b.showsUpdate_report next).2.value2).bind ?_
  refine (readByte_returns o 0x16 (fun o => bigEndianByte o.badActual.value 3)
    fun b next => (b.showsUpdate_report next).2.value3).bind ?_
  exact Returns.pure _ _

end VivadoTest.Host

namespace VivadoTest.Framework

open VivadoTest.Lib VivadoTest.Host

variable {N : Nat}

/-- The run ends with an incorrect update: its report is the first failure of the verdict
cycle, whenever it is looked at and whenever the host reads each of its bytes. -/
theorem Board.readUpdatePair_firstFailure {b : Board N} {ins : List (BoardIn N)}
    (h0 : b.testMonitor.output.testStatus ≠ TestStatus.incorrectUpdate.code)
    (h : (ins.foldl Board.step b).testMonitor.output.testStatus
      = TestStatus.incorrectUpdate.code) :
    ∃ pre verdict post, ins = pre ++ verdict :: post ∧
      (pre.foldl Board.step b).testMonitor.FailsIn
        ((pre.foldl Board.step b).testMonitorIn verdict) ∧
      ∃ (j : Fin (N + 1)) (hj : (pre.foldl Board.step b).testMonitor.checkIn.FirstFailure j),
        (∀ later : List (BoardIn N), (∀ i ∈ later, i.KeepsVerdict) →
          (later.foldl Board.step (ins.foldl Board.step b)).testMonitor.output
            = (pre.foldl Board.step b).testMonitor.failureReport hj) ∧
        (∀ line : SerialLine N, line.board = ins.foldl Board.step b →
          line.parser.mainSm = .mainIdle → 14 ≤ line.sessions.length →
          (∀ session ∈ line.sessions, ∀ i ∈ session.wait, i.KeepsVerdict) →
          ∃ line', (HostcommProxy.readUpdatePair SerialLine.readByte).run line
            = some ((reported ((pre.foldl Board.step b).testMonitor.checkIn.expected j),
                reported hj.lowestLeft), line')) := by
  obtain ⟨pre, verdict, post, rfl, hfail, hpost⟩ := exists_verdict h0 h
  obtain ⟨j, hj⟩ := TestMonitorState.exists_firstFailure hfail.testStatus
  refine ⟨pre, verdict, post, rfl, hfail, j, hj, ?_⟩
  -- the rest of the run keeps what the verdict cycle has latched
  have hrun : ((pre ++ verdict :: post).foldl Board.step b).testMonitor.Latched
      ((pre.foldl Board.step b).testMonitor.failureReport hj) := by
    rw [List.foldl_append, List.foldl_cons]
    exact foldl_invariant (P := fun b : Board N => b.testMonitor.Latched _)
      (fun b _ hi hb => hb.step hi.1 (hi.2 b)) hpost (hfail.latched_failureReport hj)
  refine ⟨fun later hlater => (latched_foldl hrun hlater).output, ?_⟩
  rintro ⟨board, parser, sessions⟩ rfl hidle hlength hwaits
  obtain ⟨line', hread, -⟩ := SerialLine.readUpdatePair_returns _ 0 _
    ⟨hrun, hidle, hwaits, by simpa using hlength⟩
  exact ⟨line', hread⟩

/-- A board in whose monitor an enabled data memory write meets an expected register write. -/
def Board.failing : Board 1 :=
  { (Board.blank : Board 1) with
    testMonitor :=
      { (TestMonitorState.blank fun _ => 0 : TestMonitorState 1) with
        actualUpdatesReg := fun _ => ⟨.dmemUpdate, 0x3FF, 0xCAFE⟩
        updateWesReg := fun i => i = 0
        procEnableReg := true } }

/-- Fourteen reads of a host that meets an idle board. -/
def SerialLine.idleLine (b : Board 1) : SerialLine 1 :=
  ⟨b, UartParser.reset, List.replicate 14 ⟨[.ofBus (.idle 0)], .quiet, .quiet⟩⟩

/-- On the example's board the host reads back the expected and the actual update. -/
theorem Board.readUpdatePair_failing :
    ∃ line', (HostcommProxy.readUpdatePair SerialLine.readByte).run
        (SerialLine.idleLine (failing.step (.ofBus (.idle 0))))
      = some ((⟨0, 0, 0⟩, ⟨1, 0x3FF, 0xCAFE⟩), line') := by
  have hquiet : (BoardIn.ofBus (N := 1) (.idle 0)).KeepsVerdict :=
    ⟨rfl, fun _ hc => absurd hc.1 Bool.false_ne_true⟩
  have hout : (failing.step (.ofBus (.idle 0))).testMonitor.output
      = ⟨0x05, 0, .zero, ⟨.dmemUpdate, 0x3FF, 0xCAFE⟩⟩ := by decide
  obtain ⟨pre, verdict, post, -, -, j, hj, hlater, hread⟩ :=
    readUpdatePair_firstFailure (b := failing) (by decide)
      (show (List.foldl Board.step failing [.ofBus (.idle 0)]).testMonitor.output.testStatus = _
        from congrArg TestMonitorOut.testStatus hout)
  have hreport := (hlater [] (by simp)).symm.trans hout
  obtain ⟨line', hline⟩ := hread (SerialLine.idleLine (failing.step (.ofBus (.idle 0)))) rfl rfl
    (by decide) (by
      intro session hs i hi
      rw [List.eq_of_mem_replicate hs] at hi
      obtain rfl := List.mem_singleton.mp hi
      exact hquiet)
  have hexpected := congrArg TestMonitorOut.unmatchedExpected hreport
  have hactual := congrArg TestMonitorOut.badActual hreport
  refine ⟨line', hline.trans ?_⟩
  rw [show (pre.foldl step failing).testMonitor.checkIn.expected j = .zero from hexpected,
    show hj.lowestLeft = ⟨.dmemUpdate, 0x3FF, 0xCAFE⟩ from hactual]
  rfl

end VivadoTest.Framework
