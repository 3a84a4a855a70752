import VivadoTest.Framework.Util

/-!
# `VivadoTest.Framework.Uart`: the serial line bit by bit

`baudGen.vhd`, `uartTx.vhd` and `uartRx.vhd` as clocked machines, and `uartTop.vhd`, which runs
both directions from one baud generator. A process of the source is an expression for its
register here. Every right side reads the registers before the edge. The transmitter has an
asynchronous reset, which is looked at on the edges.

The receiver samples in the middle of a bit and has a synchroniser of two flip-flops in front of
the line. The transmitter shifts its byte out from a register of nine bits, and is busy until its
stop bit is over. `UartLink` is the two of them wired to each other, which is not in the source; it
is the situation of two boards on one line.
-/

set_option autoImplicit false

namespace VivadoTest.Framework

/-! ### `baudGen` -/

/-- The registers of `baudGen`. -/
structure BaudGen where
  counter : BitVec 16
  ce16 : Bool
  deriving DecidableEq, Repr

/-- One rising edge. -/
def BaudGen.step (s : BaudGen) (clr : Bool) (baudFreq : BitVec 12) (baudLimit : BitVec 16) :
    BaudGen :=
  if clr then { counter := 0, ce16 := false }
  else if s.counter ≥ baudLimit then { counter := s.counter - baudLimit, ce16 := true }
  else { counter := s.counter + baudFreq.setWidth 16, ce16 := false }

/-! ### `uartTx` -/

/-- The inputs of `uartTx`. -/
structure UartTxIn where
  clr : Bool
  ce16 : Bool
  txData : Byte
  newTxData : Bool

/-- The registers of `uartTx`. -/
structure UartTx where
  iTxBusy : Bool
  count16 : BitVec 4
  bitCount : BitVec 4
  dataBuf : BitVec 9
  serOut : Bool
  deriving DecidableEq, Repr

namespace UartTx

variable (s : UartTx) (input : UartTxIn)

def reset : UartTx where
  iTxBusy := false
  count16 := 0
  bitCount := 0
  dataBuf := 0
  serOut := true

/-- `ce1`. -/
def ce1 : Bool := s.count16 = 0b1111 && input.ce16

/-- One rising edge. -/
def step : UartTx :=
  if input.clr then reset
  else
    { count16 :=
        if s.iTxBusy && input.ce16 then s.count16 + 1
        else if !s.iTxBusy then 0
        else s.count16
      iTxBusy :=
        if !s.iTxBusy && input.newTxData then true
        else if s.iTxBusy && s.bitCount = 0b1001 && s.ce1 input then false
        else s.iTxBusy
      bitCount :=
        if s.iTxBusy && s.ce1 input then s.bitCount + 1
        else if !s.iTxBusy then 0
        else s.bitCount
      dataBuf :=
        if !s.iTxBusy then input.txData ++ 0#1
        else if s.iTxBusy && s.ce1 input then 1#1 ++ s.dataBuf.extractLsb' 1 8
        else s.dataBuf
      serOut := if s.iTxBusy then s.dataBuf[0] else true }

end UartTx

/-! ### `uartRx` -/

/-- The inputs of `uartRx`. -/
structure UartRxIn where
  clr : Bool
  ce16 : Bool
  serIn : Bool

/-- The registers of `uartRx`. -/
structure UartRx where
  inSync : BitVec 2
  count16 : BitVec 4
  rxBusy : Bool
  bitCount : BitVec 4
  dataBuf : Byte
  rxData : Byte
  newRxData : Bool
  deriving DecidableEq, Repr

namespace UartRx

variable (s : UartRx) (input : UartRxIn)

def reset : UartRx where
  inSync := 0b11
  count16 := 0
  rxBusy := false
  bitCount := 0
  dataBuf := 0
  rxData := 0
  newRxData := false

/-- `ce1`. -/
def ce1 : Bool := s.count16 = 0b1111 && input.ce16

/-- `ce1Mid`. -/
def ce1Mid : Bool := s.count16 = 0b0111 && input.ce16

/-- One rising edge. -/
def step : UartRx :=
  if input.clr then reset
  else
    { inSync := s.inSync.extractLsb' 0 1 ++ BitVec.ofBool input.serIn
      count16 :=
        if input.ce16 then if s.rxBusy || !s.inSync[1] then s.count16 + 1 else 0
        else s.count16
      rxBusy :=
        if !s.rxBusy && s.ce1Mid input then true
        else if s.rxBusy && s.bitCount = 0b1000 && s.ce1Mid input then false
        else s.rxBusy
      bitCount :=
        if !s.rxBusy then 0
        else if s.rxBusy && s.ce1Mid input then s.bitCount + 1
        else s.bitCount
      dataBuf :=
        if s.rxBusy && s.ce1Mid input then
          BitVec.ofBool s.inSync[1] ++ s.dataBuf.extractLsb' 1 7
        else s.dataBuf
      rxData :=
        if s.rxBusy && s.bitCount = 0b1000 && s.ce1 input then s.dataBuf else s.rxData
      newRxData := s.rxBusy && s.bitCount = 0b1000 && s.ce1 input }

/-- The line behind the synchroniser. -/
abbrev lastSync : Bool := s.inSync[1]

end UartRx

/-! ### `uartTop` -/

/-- The inputs of `uartTop`. -/
structure UartTopIn where
  clr : Bool
  serIn : Bool
  txData : Byte
  newTxData : Bool

/-- The registers of `uartTop`. -/
structure UartTop where
  bg : BaudGen
  ut : UartTx
  ur : UartRx
  deriving DecidableEq, Repr

namespace UartTop

variable (s : UartTop) (input : UartTopIn)

def utIn : UartTxIn := ⟨input.clr, s.bg.ce16, input.txData, input.newTxData⟩

def urIn : UartRxIn := ⟨input.clr, s.bg.ce16, input.serIn⟩

def reset : UartTop := ⟨⟨0, false⟩, UartTx.reset, UartRx.reset⟩

/-- One rising edge. -/
def step (baudFreq : BitVec 12) (baudLimit : BitVec 16) : UartTop where
  bg := s.bg.step input.clr baudFreq baudLimit
  ut := s.ut.step (s.utIn input)
  ur := s.ur.step (s.urIn input)

end UartTop

/-- A transmitter whose `serOut` is the `serIn` of a receiver that runs from the same pulses. -/
structure UartLink where
  ut : UartTx
  ur : UartRx
  deriving DecidableEq, Repr

/-- The inputs of a cycle of the link. -/
structure UartLinkIn where
  ce16 : Bool
  txData : Byte
  newTxData : Bool

namespace UartLink

variable (s : UartLink) (input : UartLinkIn)

def utIn : UartTxIn := ⟨false, input.ce16, input.txData, input.newTxData⟩

def urIn : UartRxIn := ⟨false, input.ce16, s.ut.serOut⟩

def reset : UartLink := ⟨UartTx.reset, UartRx.reset⟩

/-- One rising edge. -/
def step : UartLink where
  ut := s.ut.step (utIn input)
  ur := s.ur.step (s.urIn input)

end UartLink

/-- The constants of `uart2BusTop`. -/
def baudFreq : BitVec 12 := 0x480
def baudLimit : BitVec 16 := 0x3889

end VivadoTest.Framework
