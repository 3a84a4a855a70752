import VivadoTest.InputTest.InputModule
import Mathlib.Data.List.Chain

/-!
# `VivadoTest.Proofs.InputModule`: the bytes of a receive burst

The wrapper classifies the byte on its data input by the direction and the next signal of the
same cycle. `InputModule` delays the data by one cycle and the two signals not at all, so the
serial core is given the bytes of a burst shifted by one cycle (`received_cycles`).

The transmit side of the wrapper has no part in it: `receivePath` projects the wrapper to the
four registers of its receive logic, which step by themselves (`receivePath_step`).

* `InputModule.received_eq_packetBytes_iff`: the bytes arrive as sent exactly when every packet
  byte repeats the byte of the cycle before.

## What a burst looks like

A burst of the PHY begins with a cycle in which the direction of the bus turns around, and then has
a byte in each cycle: a packet byte where `nxt` is high, and a status byte where it is not.
`ulpi_dir` and `ulpi_nxt` of a cycle meet the byte of the cycle before. So where the core takes a
packet byte, it is given the byte in front of it, and that is the same one only under the condition
of `InputModule.received_eq_packetBytes_iff`.
-/

set_option autoImplicit false

namespace VivadoTest.InputTest

open VivadoTest.Framework

/-! ### The receive path of the wrapper -/

/-- The registers of the receive logic. -/
structure ReceivePath where
  ulpiDirQ : Bool
  ulpiRxcmdQ : Bool
  utmiRxvalidQ : Bool
  utmiDataQ : Byte

/-- One cycle of the receive logic alone. A change of the direction is a turnaround: the byte of
that cycle is dropped. -/
def ReceivePath.step (r : ReceivePath) (dir nxt : Bool) (data : Byte) : ReceivePath where
  ulpiDirQ := dir
  ulpiRxcmdQ :=
    if !r.ulpiDirQ && dir && nxt then true
    else if r.ulpiDirQ && !dir then false
    else r.ulpiRxcmdQ
  utmiRxvalidQ := r.ulpiDirQ && dir && r.ulpiRxcmdQ && nxt
  utmiDataQ := if r.ulpiDirQ && dir then data else r.utmiDataQ

namespace UlpiWrapper

variable (s next : UlpiWrapper) (input : UlpiWrapperIn)

/-- The registers of the receive path. -/
def receivePath : ReceivePath := ⟨s.ulpiDirQ, s.ulpiRxcmdQ, s.utmiRxvalidQ, s.utmiDataQ⟩

/-- The output part of the transmitter leaves the receive path alone. -/
@[simp] theorem receivePath_txOutput : (s.txOutput input next).receivePath = next.receivePath := by
  unfold txOutput
  split_ifs <;> rfl

/-- The output of received data registers the byte, with `nxt` for its validity. -/
@[simp] theorem receivePath_rxData : (rxData input next).receivePath
    = { next.receivePath with utmiRxvalidQ := input.ulpiNxtI, utmiDataQ := input.ulpiDataI } := by
  unfold rxData
  split_ifs <;> rfl

/-- The bus state machine writes two registers of the receive path. -/
theorem receivePath_implementation : (s.implementation input next).receivePath
    = { next.receivePath with
        utmiRxvalidQ := !s.turnaroundW input && input.ulpiDirI && s.ulpiRxcmdQ && input.ulpiNxtI
        utmiDataQ :=
          if !s.turnaroundW input && input.ulpiDirI then input.ulpiDataI else next.utmiDataQ } := by
  unfold implementation
  cases hturn : s.turnaroundW input with
  | true => rfl
  | false =>
    cases hdir : input.ulpiDirI with
    | false => exact s.receivePath_txOutput _ input
    | true =>
      cases hcmd : s.ulpiRxcmdQ with
      | false => rfl
      | true => exact receivePath_rxData _ input

/-- The receive path of the wrapper steps by itself. -/
theorem receivePath_step (hrst : input.ulpiRstI = false) : (s.step input).receivePath
    = s.receivePath.step input.ulpiDirI input.ulpiNxtI input.ulpiDataI := by
  -- the blocks before the bus state machine write the direction and the command register only
  have hblocks : (s.txBuffer input <| s.rxTxDelay <| s.registerAccess input <|
      s.turnaroundDetect input <| s.otgControl input <| s.modeSelect input s).receivePath
        = { s.receivePath with
            ulpiDirQ := input.ulpiDirI
            ulpiRxcmdQ :=
              if !s.ulpiDirQ && input.ulpiDirI && input.ulpiNxtI then true
              else if s.ulpiDirQ && !input.ulpiDirI then false
              else s.ulpiRxcmdQ } := rfl
  -- no turnaround and the direction high: it was high before
  have hturn : (!s.turnaroundW input && input.ulpiDirI) = (s.ulpiDirQ && input.ulpiDirI) := by
    unfold turnaroundW
    cases s.ulpiDirQ <;> cases input.ulpiDirI <;> rfl
  unfold step
  rw [if_neg (by rw [hrst]; exact Bool.false_ne_true), receivePath_implementation, hblocks, hturn]
  unfold ReceivePath.step
  congr 2

/-- After a cycle with the direction low, the wrapper waits for a turnaround. -/
theorem ulpiDirQ_step_of_low (hdir : input.ulpiDirI = false) :
    (s.step input).ulpiDirQ = false := by
  by_cases hrst : input.ulpiRstI = true
  · unfold step
    rw [if_pos hrst]
    rfl
  · rw [Bool.not_eq_true] at hrst
    exact (congrArg ReceivePath.ulpiDirQ (s.receivePath_step input hrst)).trans hdir

end UlpiWrapper

/-! ### Receive bursts -/

/-- A receive burst on the pins, with the reset released: the direction rises with the next
signal high in the turnaround cycle, stays high for any number of cycles, and falls. -/
structure ReceiveBurst where
  turnaround : InputModuleIn
  body : List InputModuleIn
  release : InputModuleIn
  turnaround_rst : turnaround.ulpiRst = false
  turnaround_dir : turnaround.ulpiDir = true
  turnaround_nxt : turnaround.ulpiNxt = true
  body_rst : ∀ p ∈ body, p.ulpiRst = false
  body_dir : ∀ p ∈ body, p.ulpiDir = true
  release_rst : release.ulpiRst = false
  release_dir : release.ulpiDir = false

namespace ReceiveBurst

variable (burst : ReceiveBurst)

/-- The cycles of the burst. -/
def cycles : List InputModuleIn := burst.turnaround :: (burst.body ++ [burst.release])

/-- The bytes of the packet: what the PHY drives while the next signal is high. -/
def packetBytes : List Byte := (burst.body.filter fun p => p.ulpiNxt).map fun p => p.ulpiData

/-- Every packet byte repeats the byte of the cycle before it. -/
def Repeats : Prop :=
  (burst.turnaround :: burst.body).IsChain fun p q => q.ulpiNxt = true → q.ulpiData = p.ulpiData

end ReceiveBurst

/-- The bytes of the cycles before the packet bytes among `body`, from the byte `d` on. -/
def delayed : Byte → List InputModuleIn → List Byte
  | _, [] => []
  | d, p :: rest => if p.ulpiNxt then d :: delayed p.ulpiData rest else delayed p.ulpiData rest

/-- Delayed bytes are the packet bytes exactly when each of these repeats its predecessor. -/
theorem delayed_eq_iff (p : InputModuleIn) (body : List InputModuleIn) :
    delayed p.ulpiData body = (body.filter fun p => p.ulpiNxt).map (fun p => p.ulpiData)
      ↔ (p :: body).IsChain fun p q => q.ulpiNxt = true → q.ulpiData = p.ulpiData := by
  induction body generalizing p with
  | nil => simp [delayed]
  | cons q rest ih =>
    rw [List.isChain_cons_cons, ← ih q, delayed]
    cases hnxt : q.ulpiNxt with
    | false => simp [hnxt]
    | true =>
      rw [if_pos rfl, List.filter_cons_of_pos hnxt, List.map_cons, List.cons.injEq]
      constructor
      · exact fun ⟨hd, hrest⟩ => ⟨fun _ => hd.symm, hrest⟩
      · exact fun ⟨hd, hrest⟩ => ⟨(hd rfl).symm, hrest⟩

namespace InputModule

variable (m : InputModule) (input : InputModuleIn)

/-- The module inside a burst: the wrapper has seen the turnaround, and `d` waits in the data
register. -/
structure InBurst (d : Byte) : Prop where
  ulpiDirQ : m.ulpiWrapper.ulpiDirQ = true
  ulpiRxcmdQ : m.ulpiWrapper.ulpiRxcmdQ = true
  ulpiDataIn : m.ulpiDataIn = d

variable {m input}

/-- Out of reset the receive path of the wrapper moves as the receive path alone, with the
registered data and the direct `dir` and `nxt`. -/
theorem receivePath_step (hrst : input.ulpiRst = false) : (m.step input).ulpiWrapper.receivePath
    = m.ulpiWrapper.receivePath.step input.ulpiDir input.ulpiNxt m.ulpiDataIn :=
  m.ulpiWrapper.receivePath_step (m.ulpiWrapperIn input) hrst

/-- The turnaround cycle opens the burst and gives the core nothing. -/
theorem inBurst_turnaround (hlow : m.ulpiWrapper.ulpiDirQ = false) (hrst : input.ulpiRst = false)
    (hdir : input.ulpiDir = true) (hnxt : input.ulpiNxt = true) :
    (m.step input).InBurst input.ulpiData ∧ (m.step input).utmiRxvalidO = false := by
  have hpath := receivePath_step (m := m) hrst
  rw [hdir, hnxt] at hpath
  refine ⟨⟨congrArg ReceivePath.ulpiDirQ hpath, ?_, ?_⟩, ?_⟩
  · refine (congrArg ReceivePath.ulpiRxcmdQ hpath).trans ?_
    show (if (!m.ulpiWrapper.ulpiDirQ && true && true) = true then true else _) = true
    rw [hlow]
    rfl
  · show (if input.ulpiDir then _ else _) = input.ulpiData
    rw [hdir]
    rfl
  · refine (congrArg ReceivePath.utmiRxvalidQ hpath).trans ?_
    show (m.ulpiWrapper.ulpiDirQ && true && _ && true) = false
    rw [hlow]
    rfl

/-- A cycle of the burst: a packet cycle gives the core the byte of the cycle before. -/
theorem InBurst.step {d : Byte} (h : m.InBurst d) (hrst : input.ulpiRst = false)
    (hdir : input.ulpiDir = true) :
    (m.step input).InBurst input.ulpiData ∧ (m.step input).utmiRxvalidO = input.ulpiNxt ∧
      (m.step input).utmiDataO = d := by
  have hpath := receivePath_step (m := m) hrst
  rw [hdir, h.ulpiDataIn] at hpath
  refine ⟨⟨congrArg ReceivePath.ulpiDirQ hpath, ?_, ?_⟩, ?_, ?_⟩
  · refine (congrArg ReceivePath.ulpiRxcmdQ hpath).trans ?_
    simp [ReceivePath.step, UlpiWrapper.receivePath, h.ulpiDirQ, h.ulpiRxcmdQ]
  · show (if input.ulpiDir then _ else _) = input.ulpiData
    rw [hdir]
    rfl
  · refine (congrArg ReceivePath.utmiRxvalidQ hpath).trans ?_
    simp [ReceivePath.step, UlpiWrapper.receivePath, h.ulpiDirQ, h.ulpiRxcmdQ]
  · refine (congrArg ReceivePath.utmiDataQ hpath).trans ?_
    simp [ReceivePath.step, UlpiWrapper.receivePath, h.ulpiDirQ]

/-- The cycle in which the direction falls gives the core nothing. -/
theorem utmiRxvalidO_step_of_low (hrst : input.ulpiRst = false) (hdir : input.ulpiDir = false) :
    (m.step input).utmiRxvalidO = false := by
  have hpath := receivePath_step (m := m) hrst
  rw [hdir] at hpath
  refine (congrArg ReceivePath.utmiRxvalidQ hpath).trans ?_
  simp [ReceivePath.step]

/-- From inside a burst to its end. -/
theorem InBurst.received {d : Byte} {m : InputModule} (h : m.InBurst d) {body : List InputModuleIn}
    (hrst : ∀ p ∈ body, p.ulpiRst = false) (hdir : ∀ p ∈ body, p.ulpiDir = true)
    {release : InputModuleIn} (hrelease : release.ulpiRst = false)
    (hlow : release.ulpiDir = false) :
    m.received (body ++ [release]) = delayed d body := by
  induction body generalizing m d with
  | nil => simp [InputModule.received, delayed, utmiRxvalidO_step_of_low hrelease hlow]
  | cons p rest ih =>
    obtain ⟨hnext, hvalid, hdata⟩ :=
      h.step (hrst p List.mem_cons_self) (hdir p List.mem_cons_self)
    have hrest := ih hnext (fun q hq => hrst q (List.mem_cons_of_mem p hq))
      (fun q hq => hdir q (List.mem_cons_of_mem p hq))
    rw [List.cons_append, InputModule.received, delayed]
    simp only [hvalid, hdata, hrest]

/-- The serial core is given the bytes of a burst one cycle late. -/
theorem received_cycles (burst : ReceiveBurst) (hlow : m.ulpiWrapper.ulpiDirQ = false) :
    m.received burst.cycles = delayed burst.turnaround.ulpiData burst.body := by
  obtain ⟨hin, hvalid⟩ := inBurst_turnaround hlow burst.turnaround_rst burst.turnaround_dir
    burst.turnaround_nxt
  rw [ReceiveBurst.cycles, InputModule.received]
  simp only [hvalid, Bool.false_eq_true, if_false]
  exact hin.received burst.body_rst burst.body_dir burst.release_rst burst.release_dir

/-- In any run, a burst that follows a cycle with the direction low reaches the serial core as it
was sent exactly when every packet byte repeats the byte of the cycle before. -/
theorem received_eq_packetBytes_iff (m : InputModule) (before : List InputModuleIn)
    (quiet : InputModuleIn) (hquiet : quiet.ulpiDir = false) (burst : ReceiveBurst) :
    ((before ++ [quiet]).foldl step m).received burst.cycles = burst.packetBytes
      ↔ burst.Repeats := by
  have hlow : ((before ++ [quiet]).foldl step m).ulpiWrapper.ulpiDirQ = false := by
    rw [List.foldl_append]
    exact UlpiWrapper.ulpiDirQ_step_of_low _ _ hquiet
  rw [received_cycles burst hlow]
  exact delayed_eq_iff burst.turnaround burst.body

end InputModule

/-- A cycle in which the serial core is quiet. -/
def InputModuleIn.pins (dir nxt : Bool) (data : Byte) : InputModuleIn :=
  ⟨false, dir, nxt, data, false, 0, false, false, 0⟩

/-- A burst of the packet bytes `bytes` without a status byte. -/
def ReceiveBurst.ofBytes (turnaround : Byte) (bytes : List Byte) : ReceiveBurst where
  turnaround := .pins true true turnaround
  body := bytes.map (.pins true true)
  release := .pins false false 0
  turnaround_rst := rfl
  turnaround_dir := rfl
  turnaround_nxt := rfl
  body_rst := by simp [InputModuleIn.pins]
  body_dir := by simp [InputModuleIn.pins]
  release_rst := rfl
  release_dir := rfl

namespace InputModule

/-- The module after a reset. -/
def afterReset : InputModule := ⟨0, 0, .reset⟩

/-- A burst of three packet bytes. The bus shows the first one in the turnaround cycle already, and
each of the others in a status cycle, with the next signal low, before it. -/
def repeatingBurst : ReceiveBurst where
  turnaround := .pins true true 0xC3
  body := [.pins true true 0xC3, .pins true false 0x12, .pins true true 0x12,
    .pins true false 0x34, .pins true true 0x34]
  release := .pins false false 0
  turnaround_rst := rfl
  turnaround_dir := rfl
  turnaround_nxt := rfl
  body_rst := by decide
  body_dir := by decide
  release_rst := rfl
  release_dir := rfl

/-- It reaches the core as it was sent. -/
theorem received_repeatingBurst :
    (afterReset.step (.pins false false 0)).received repeatingBurst.cycles = [0xC3, 0x12, 0x34] :=
  (received_eq_packetBytes_iff afterReset [] (.pins false false 0) rfl repeatingBurst).mpr
    (by simp [ReceiveBurst.Repeats, repeatingBurst, InputModuleIn.pins])

/-- Of a burst of two bytes the core is given the byte of the turnaround cycle and the first. -/
theorem received_shifted :
    (afterReset.step (.pins false false 0)).received (ReceiveBurst.ofBytes 0x00 [0xD2, 0x5A]).cycles
        = [0x00, 0xD2] ∧
      (afterReset.step (.pins false false 0)).received
        (ReceiveBurst.ofBytes 0x00 [0xD2, 0x5A]).cycles
        ≠ (ReceiveBurst.ofBytes 0x00 [0xD2, 0x5A]).packetBytes := by
  decide

end InputModule

end VivadoTest.InputTest
