import VivadoTest.Framework.MIPSSystem
import VivadoTest.Framework.Uart
import VivadoTest.Framework.UartCycle

/-!
# `VivadoTest.Framework.WiredBoard`: the board with its serial wire

`uart2BusTop.vhd`, which puts `uartTop` in front of `uartParser`, and `HostComm.vhd` behind it,
which grants the bus one cycle after the parser has asked for it. What a cycle takes from outside
is the level of the wire and the outputs of the processor.

Four machines step together: `uartTop`, the parser, the grant of `HostComm` and the board. The
bytes of the receiver go into the parser, the bytes of the parser into the transmitter, and the bus
of the parser is the bus of the board.
-/

set_option autoImplicit false

namespace VivadoTest.Framework

variable {N : Nat}

/-- The inputs of a cycle. -/
structure WiredIn (N : Nat) where
  serIn : Bool
  proc : ProcOut N

/-- The registers behind the wire. -/
structure WiredBoard (N : Nat) where
  ut : UartTop
  up : UartRegs
  uartGnt : Bool
  board : Board N

namespace WiredBoard

variable (s : WiredBoard N) (input : WiredIn N)

/-- The inputs of `uartTop`. -/
def utIn : UartTopIn := ⟨false, input.serIn, s.up.txData, s.up.newTxData⟩

/-- The inputs of the board: the bus is the parser's. -/
def boardIn : BoardIn N := ⟨false, s.up.bus, input.proc⟩

/-- The inputs of the parser. -/
def upIn : UartIn where
  clr := false
  txBusy := s.ut.ut.iTxBusy
  rxData := s.ut.ur.rxData
  newRxData := s.ut.ur.newRxData
  intRdData := s.board.regReadData (s.boardIn input)
  intGnt := s.uartGnt

/-- One rising edge. -/
def step : WiredBoard N where
  ut := s.ut.step (s.utIn input) baudFreq baudLimit
  up := s.up.step (s.upIn input)
  uartGnt := s.up.intReq
  board := s.board.step (s.boardIn input)

/-- After `clr`. -/
def reset (board : Board N) : WiredBoard N := ⟨UartTop.reset, .cleared, false, board⟩

end WiredBoard

end VivadoTest.Framework
