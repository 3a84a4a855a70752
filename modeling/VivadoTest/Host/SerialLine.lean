import VivadoTest.Host.HostcommProxy
import VivadoTest.Framework.MIPSSystem

/-!
# `VivadoTest.Host.SerialLine`: a host, a serial line and a board

The host's reads as they happen: the characters of the command go through the parser, the
parser reads on the board's bus, the characters of the answer come back. The board does not
wait for the host, so everything that happens to it meanwhile is part of the state
(`Session`).

A read is a list of cycles of the board: those before the bus sees the request, the request, and
the cycle in which the answer is sampled. The cycles and the processor's outputs in them are given
by the `Session`, and results are about every session.
-/

set_option autoImplicit false

namespace VivadoTest.Host

open VivadoTest.Framework

variable {N : Nat}

/-- What happens at the board around one read: the cycles before the access, and the outputs
of the processor in the cycle of the request and in the cycle in which the parser samples the
data. -/
structure Session (N : Nat) where
  wait : List (BoardIn N)
  request : ProcOut N
  answer : ProcOut N

/-- The board, the parser in front of it and the sessions to come. -/
structure SerialLine (N : Nat) where
  board : Board N
  parser : UartParser
  sessions : List (Session N)

namespace SerialLine

/-- The board when the parser samples the data of a read, and the inputs of that cycle. -/
def requested (board : Board N) (session : Session N) (address : BitVec 16) : Board N :=
  (session.wait.foldl Board.step board).step ⟨false, .read address, session.request⟩

/-- The cycle in which the bus takes over a read of `address`. -/
def sampling (session : Session N) (address : BitVec 16) : BoardIn N :=
  ⟨false, .idle address, session.answer⟩

/-- `_readByte`. -/
def readByte (addr : Nat) : StateT (SerialLine N) Option Nat := do
  let line ← get
  let (parser, ops) := line.parser.feed (encode (HostcommProxy.readByteCommand addr))
  match ops, line.sessions with
  | [.read address], session :: sessions =>
    let board := requested line.board session address
    let answer := readAnswer (board.regReadData (sampling session address))
    set (⟨board.step (sampling session address), parser, sessions⟩ : SerialLine N)
    let result ← (HostcommProxy.readByteResult answer : Option Int)
    return result.toNat
  | _, _ => failure

end SerialLine

end VivadoTest.Host
