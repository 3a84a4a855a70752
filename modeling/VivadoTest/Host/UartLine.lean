import VivadoTest.Framework.MIPSSystem
import VivadoTest.Framework.UartCycle
import VivadoTest.Host.HostcommProxy
import VivadoTest.Lib.Clocked

/-!
# `VivadoTest.Host.UartLine`: a host and a board, clock by clock

A host makes a sequence of calls of `_writeByte` and `_readByte`. Their characters go over the
serial line to `uartParser`, which asks `HostComm` for the bus, and the parser's answers go
back through the transmitter. The timing of the line is an input of each cycle (`LineIn`): in
which cycles a character arrives at the parser, and when the transmitter is done with one.

The time is not bounded here: a line `Delivers` when characters that are waiting arrive and the
transmitter comes to an end, at whatever pace, with eight cycles between two characters. That is
what a serial line does at any rate that the clock of the board can follow.
-/

set_option autoImplicit false

namespace VivadoTest.Host

open VivadoTest.Lib VivadoTest.Framework

variable {N : Nat}

/-! ### The host -/

/-- A call of `HostcommProxy`. -/
inductive Call
  | writeByte (addr : BitVec 16) (val : Byte)
  | readByte (addr : BitVec 16)
  deriving DecidableEq, Repr

/-- What the host does at the line: it queues a character, or waits for the four characters of
an answer. -/
inductive HostAction
  | send (c : Byte)
  | read4
  deriving DecidableEq, Repr

namespace Call

/-- The characters of the command. -/
def text : Call → List Byte
  | .writeByte addr val => encode (HostcommProxy.writeByte addr.toNat val.toNat)
  | .readByte addr => encode (HostcommProxy.readByteCommand addr.toNat)

/-- `_writeByte` returns when its command is queued, `_readByte` when it has the answer. -/
def actions (call : Call) : List HostAction :=
  match call with
  | .writeByte _ _ => call.text.map .send
  | .readByte _ => call.text.map .send ++ [.read4]

/-- The access that the call stands for. -/
def op : Call → BusOp
  | .writeByte addr val => .write addr val
  | .readByte addr => .read addr

end Call

/-- The host: what it has still to do, the characters it has received but not read, and what the
calls of `_readByte` have returned (`none` is an exception). -/
structure HostState where
  todo : List HostAction
  inBuffer : List Byte
  results : List (Option Int)

namespace HostState

/-- A host that is about to make `calls`. -/
def start (calls : List Call) : HostState := ⟨calls.flatMap Call.actions, [], []⟩

/-- The character that arrives if the line delivers one. -/
def nextChar (h : HostState) : Option Byte :=
  match h.todo with
  | .send c :: _ => some c
  | _ => none

/-- The host after the line has taken the next character. -/
def sent (h : HostState) : HostState :=
  match h.todo with
  | .send _ :: rest => { h with todo := rest }
  | _ => h

/-- The host after the character `c` has come in. -/
def receive (h : HostState) (c : Byte) : HostState :=
  { h with inBuffer := h.inBuffer ++ [c] }

/-- `int(self._serial.read(4), 16)`, once four characters are there. -/
def answer (h : HostState) : HostState :=
  match h.todo with
  | .read4 :: rest =>
    if 4 ≤ h.inBuffer.length then
      { todo := rest
        inBuffer := h.inBuffer.drop 4
        results := h.results ++
          [HostcommProxy.readByteResult ((h.inBuffer.take 4).map fun c => Char.ofNat c.toNat)] }
    else h
  | _ => h

end HostState

/-! ### The line -/

/-- The inputs of a cycle: whether a character arrives, the state of the receiver's data register
if none does, whether the transmitter ends a character, and the outputs of the processor. -/
structure LineIn (N : Nat) where
  arrives : Bool
  rxIdle : Byte
  txDone : Bool
  proc : ProcOut N

/-- A host, the registers of the parser, the grant register of `HostComm`, the transmitter and the
board. `sending` is the character in the transmitter. -/
structure UartLine (N : Nat) where
  host : HostState
  parser : UartRegs
  uartGnt : Bool
  txBusy : Bool
  sending : Byte
  board : Board N

namespace UartLine

variable (w : UartLine N) (input : LineIn N)

/-- The character that the parser receives in the cycle. -/
def received : Option Byte := if input.arrives then w.host.nextChar else none

/-- The inputs of the board. -/
def boardIn : BoardIn N := ⟨false, w.parser.bus, input.proc⟩

/-- The byte that the addressed location presents in the cycle. -/
def presented : Byte := w.board.regReadData (w.boardIn input)

/-- What the parser takes in at this cycle. -/
def uartIn : UartIn where
  clr := false
  txBusy := w.txBusy
  rxData := (w.received input).getD input.rxIdle
  newRxData := (w.received input).isSome
  intRdData := w.presented input
  intGnt := w.uartGnt

/-- The host after the cycle: a character that arrives is off its queue, one that the transmitter
ends is in its buffer. -/
def hostStep : HostState :=
  let queued := if input.arrives then w.host.sent else w.host
  let received := if w.txBusy && input.txDone then queued.receive w.sending else queued
  received.answer

/-- One rising edge. The transmitter takes a character when it is free. -/
def step : UartLine N where
  host := w.hostStep input
  parser := w.parser.step (w.uartIn input)
  uartGnt := w.parser.intReq
  txBusy :=
    if !w.txBusy && w.parser.newTxData then true
    else if w.txBusy && input.txDone then false
    else w.txBusy
  sending := if w.txBusy then w.sending else w.parser.txData
  board := w.board.step (w.boardIn input)

end UartLine

/-! ### What is observed -/

/-- The pulses on the bus in a cycle. -/
def pulses (bus : HostBus) : List BusOp :=
  (if bus.regWriteEnable then [.write bus.regAddress bus.regWriteData] else []) ++
    (if bus.regReadEnable then [.read bus.regAddress] else [])

/-- The pulses in the first `t` cycles, each with the byte that the bus presents in the cycle
after. -/
def accesses (w : UartLine N) (ins : Nat → LineIn N) : Nat → List (BusOp × Byte)
  | 0 => []
  | t + 1 => accesses w ins t ++ (pulses (trajectory UartLine.step w ins t).parser.bus).map
      fun op => (op, (trajectory UartLine.step w ins (t + 1)).presented (ins (t + 1)))

/-- What `_readByte` returns for an access. -/
def returned : BusOp × Byte → Option (Option Int)
  | (.read _, v) => some (some v.toNat)
  | (.write _ _, _) => none

/-- A line whose characters are at least eight cycles apart, and that goes on delivering in both
directions. -/
structure Delivers (ins : Nat → LineIn N) : Prop where
  spaced : ∀ t u, t < u → (ins t).arrives = true → (ins u).arrives = true → t + 8 ≤ u
  arrives : ∀ t, ∃ u, t ≤ u ∧ (ins u).arrives = true
  txDone : ∀ t, ∃ u, t ≤ u ∧ (ins u).txDone = true

end VivadoTest.Host
