import VivadoTest.Host.UartLine

/-!
# `VivadoTest.Spec.TextLine`: the serial line without the binary extension

A line on which no binary command has been sent, in four parts that step together: the host,
the parser one character at a time (`UartParser`), the request for the bus (`AccessRegs`) and
the transmit side (`TxRegs`). `UartLine.view` takes a line apart in this way.

The four parts step together because each of them reads the others before the edge only: the
request for the bus reads the parser, the transmit side reads what the bus has sampled, and the
host reads what is sent. No part knows of the binary extension, so there is one state for all of
it.
-/

set_option autoImplicit false

namespace VivadoTest.Spec

open VivadoTest.Framework VivadoTest.Host

variable {N : Nat}

/-! ### The request for the bus -/

/-- The registers between a command and its access, with the grant of `HostComm`. -/
structure AccessRegs where
  iReadReq : Bool
  iIntRead : Bool
  iWriteReq : Bool
  iIntWrite : Bool
  readDone : Bool
  readDoneS : Bool
  uartGnt : Bool
  intWrData : Byte
  iIntAddress : BitVec 16
  readDataS : Byte

/-- A character that ends a command. -/
def endsCommand (p : UartParser) (c : Option Byte) : Bool :=
  match c with
  | some c => p.mainSm = .mainAddr && !dataInHexRange c
  | none => false

namespace AccessRegs

variable (a : AccessRegs)

/-- What the registers present on the bus. -/
def bus : HostBus := ⟨a.iIntAddress, a.intWrData, a.iIntWrite, a.iIntRead⟩

/-- One cycle, in which the parser `p` receives `c` and the bus presents `rdData`. -/
def step (p : UartParser) (c : Option Byte) (rdData : Byte) : AccessRegs where
  iReadReq :=
    if endsCommand p c && p.readOp then true
    else if a.uartGnt && a.iReadReq then false else a.iReadReq
  iIntRead := if endsCommand p c && p.readOp then a.iIntRead else a.uartGnt && a.iReadReq
  iWriteReq :=
    if endsCommand p c && p.writeOp then true
    else if a.uartGnt && a.iWriteReq then false else a.iWriteReq
  iIntWrite := if endsCommand p c && p.writeOp then a.iIntWrite else a.uartGnt && a.iWriteReq
  readDone := a.iIntRead
  readDoneS := a.readDone
  uartGnt := a.iReadReq || a.iWriteReq
  intWrData := if endsCommand p c && p.writeOp then p.dataParam else a.intWrData
  iIntAddress := if endsCommand p c then p.addrParam else a.iIntAddress
  readDataS := if a.readDone then rdData else a.readDataS

end AccessRegs

/-! ### The transmit side -/

/-- The transmit state machine of the parser, and the transmitter. -/
structure TxRegs where
  txSm : TxState
  txData : Byte
  newTxData : Bool
  sTxBusy : Bool
  txBusy : Bool
  sending : Byte

/-- The character of a nibble on the line. -/
def nibbleCode (n : BitVec 4) : Byte := BitVec.ofNat 8 (txChar n).toNat

namespace TxRegs

variable (x : TxRegs)

/-- The transmitter has just finished a byte. -/
def txEndP : Bool := !x.txBusy && x.sTxBusy

/-- The state, the data and the strobe of the transmit state machine after a cycle. -/
def next (readDoneS : Bool) (readDataS : Byte) : TxState × Byte × Bool :=
  match x.txSm with
  | .txIdle =>
    if readDoneS then (.txHiNib, nibbleCode (readDataS.extractLsb' 4 4), true)
    else (.txIdle, x.txData, false)
  | .txHiNib =>
    if x.txEndP then (.txLoNib, nibbleCode (readDataS.extractLsb' 0 4), true)
    else (.txHiNib, x.txData, false)
  | .txLoNib => if x.txEndP then (.txCharCR, 0x0D, true) else (.txLoNib, x.txData, false)
  | .txCharCR => if x.txEndP then (.txCharLF, 0x0A, true) else (.txCharCR, x.txData, false)
  | .txCharLF => if x.txEndP then (.txIdle, x.txData, false) else (.txCharLF, x.txData, false)

def step (readDoneS : Bool) (readDataS : Byte) (txDone : Bool) : TxRegs where
  txSm := (x.next readDoneS readDataS).1
  txData := (x.next readDoneS readDataS).2.1
  newTxData := (x.next readDoneS readDataS).2.2
  sTxBusy := x.txBusy
  txBusy := if !x.txBusy && x.newTxData then true else if x.txBusy && txDone then false
    else x.txBusy
  sending := if x.txBusy then x.sending else x.txData

end TxRegs

/-! ### The line -/

/-- The four parts of the line. -/
structure TextLine where
  host : HostState
  parser : UartParser
  access : AccessRegs
  tx : TxRegs

namespace TextLine

variable (l : TextLine)

/-- The byte that reaches the parser in this cycle. -/
def received (arrives : Bool) : Option Byte := if arrives then l.host.nextChar else none

/-- One cycle, in which the bus presents `rdData`. -/
def step (arrives txDone : Bool) (rdData : Byte) : TextLine where
  host :=
    let queued := if arrives then l.host.sent else l.host
    (if l.tx.txBusy && txDone then queued.receive l.tx.sending else queued).answer
  parser := (l.received arrives).elim l.parser l.parser.rx
  access := l.access.step l.parser (l.received arrives) rdData
  tx := l.tx.step l.access.readDoneS l.access.readDataS txDone

end TextLine

end VivadoTest.Spec

/-! ### The view -/

namespace VivadoTest.Framework

open VivadoTest.Spec VivadoTest.Host

/-- The states of the binary extension are one. -/
def MainState.view : MainState → MainSm
  | .mainIdle => .mainIdle
  | .mainWhite1 => .mainWhite1
  | .mainData => .mainData
  | .mainWhite2 => .mainWhite2
  | .mainAddr => .mainAddr
  | .mainEol => .mainEol
  | .mainBinCmd | .mainBinAdrh | .mainBinAdrl | .mainBinLen | .mainBinData => .mainBinCmd

/-- The registers of text commands. -/
def UartRegs.view (r : UartRegs) : UartParser :=
  ⟨r.mainSm.view, r.readOp, r.writeOp, r.dataParam, r.addrParam⟩

/-- The registers between a command and its access. -/
def UartRegs.accessView (r : UartRegs) (uartGnt : Bool) : AccessRegs :=
  ⟨r.iReadReq, r.iIntRead, r.iWriteReq, r.iIntWrite, r.readDone, r.readDoneS, uartGnt, r.intWrData,
    r.iIntAddress, r.readDataS⟩

/-- The registers of the transmit side. -/
def UartRegs.txView (r : UartRegs) (txBusy : Bool) (sending : Byte) : TxRegs :=
  ⟨r.txSm, r.txData, r.newTxData, r.sTxBusy, txBusy, sending⟩

end VivadoTest.Framework

namespace VivadoTest.Host

open VivadoTest.Spec VivadoTest.Framework

variable {N : Nat}

/-- The text line that a line of the whole UART shows. -/
def UartLine.view (w : UartLine N) : TextLine where
  host := w.host
  parser := w.parser.view
  access := w.parser.accessView w.uartGnt
  tx := w.parser.txView w.txBusy w.sending

end VivadoTest.Host
