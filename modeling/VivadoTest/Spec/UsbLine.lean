import VivadoTest.InputTest.UsbPacket
import VivadoTest.Spec.UsbFormat

/-!
# `VivadoTest.Spec.UsbLine`: what is heard on the receiving side of the PHY

A packet on the receiving side is an interval in which the PHY is active, and its bytes are the
ones that are announced as valid in it, however far apart. `heard` reads them off the inputs alone,
without the machine.

On the transmitting side a `Sender` is the entity together with an application that follows the
protocol of its interface.

* `heard`: the packet that is on the line at the end of a run, with its bytes so far and whether
  the PHY has announced an error in it.
* `announced`: the bytes that the application was told of.
* `Sender.sent`: the bytes that the PHY has taken. The application of a sender holds its first byte
  until it is taken over, and then shows the next one.
-/

set_option autoImplicit false

namespace VivadoTest.Spec

open VivadoTest.Framework
open VivadoTest.InputTest

/-- The receiving side of the PHY in one cycle. -/
structure RxLine where
  active : Bool
  valid : Bool
  error : Bool
  data : Byte

/-- The current packet, or the last one. -/
structure Heard where
  active : Bool
  bytes : List Byte
  error : Bool

/-- Nothing yet. -/
def Heard.start : Heard := ⟨false, [], false⟩

/-- One cycle more. A packet starts when the line becomes active. -/
def Heard.next (h : Heard) (l : RxLine) : Heard :=
  if l.active then
    { active := true
      bytes := (if h.active then h.bytes else []) ++ (if l.valid then [l.data] else [])
      error := (h.active && h.error) || l.error }
  else { h with active := false }

/-- Whether a packet is going on is the line's, whatever was heard before. -/
@[simp] theorem Heard.next_active (h : Heard) (l : RxLine) : (h.next l).active = l.active := by
  cases hl : l.active <;> simp [next, hl]

end VivadoTest.Spec

namespace VivadoTest.InputTest

open VivadoTest.Framework
open VivadoTest.Spec

/-- What a cycle's input shows of the receiving line. -/
def UsbPacketIn.rxLine (input : UsbPacketIn) : RxLine where
  active := input.phyRxactive
  valid := input.phyRxvalid
  error := input.phyRxerror
  data := input.phyDatain

/-- What is heard in a run. -/
def heard (ins : List UsbPacketIn) : Heard :=
  (ins.map UsbPacketIn.rxLine).foldl Heard.next Heard.start

/-- What the application is told of in a run: the bytes of `P_RXDAT` in the cycles in which
`P_RXRDY` is high, after each of `ins`. -/
def UsbPacket.announced : UsbPacket → List UsbPacketIn → List Byte
  | _, [] => []
  | s, input :: rest =>
    let s' := s.step input
    if s'.pRxrdy then s'.pRxdat :: announced s' rest else announced s' rest

/-- The registers of the receiving side. -/
def UsbPacket.rxLine (s : UsbPacket) : RxLine where
  active := s.sRxactive
  valid := s.sRxvalid
  error := s.sRxerror
  data := s.sDatain

/-- The registers after a reset. -/
def UsbPacket.initial : UsbPacket where
  sState := .none
  sTxfirst := false
  sRxactive := false
  sRxvalid := false
  sRxerror := false
  sDatain := 0
  sTxready := false
  sDataout := 0
  sRxgoodpacket := false
  crc5Buf := 0
  crc16Buf := 0
  phyTxvalid := false
  phyDataout := 0

/-- A cycle in which the application does nothing. The PHY announces a byte, or it is inactive. -/
def UsbPacketIn.hearing (b : Option Byte) : UsbPacketIn where
  reset := false
  pChirpk := false
  pTxact := false
  pTxdat := 0
  phyDatain := b.getD 0
  phyTxready := false
  phyRxactive := b.isSome
  phyRxvalid := b.isSome
  phyRxerror := false

/-- The PHY in one cycle, seen from the transmitting side. -/
structure PhyIn where
  txready : Bool
  line : RxLine

/-- The entity and the application that sends `queue` through it. -/
structure Sender where
  packet : UsbPacket
  queue : List Byte

namespace Sender

variable (s : Sender) (phy : PhyIn)

/-- The application keeps `P_TXACT` high and the first byte on `P_TXDAT` while there is one. -/
def input : UsbPacketIn where
  reset := false
  pChirpk := false
  pTxact := !s.queue.isEmpty
  pTxdat := s.queue.headD 0
  phyDatain := phy.line.data
  phyTxready := phy.txready
  phyRxactive := phy.line.active
  phyRxvalid := phy.line.valid
  phyRxerror := phy.line.error

/-- On `P_TXRDY` the application goes on to the next byte in the next cycle. -/
def step : Sender where
  packet := s.packet.step (s.input phy)
  queue := if s.packet.pTxrdy then s.queue.tail else s.queue

/-- The PHY takes a byte in a cycle in which it is ready and `PHY_TXVALID` is high. In the first
cycle of `PHY_TXVALID` its ready signal has no meaning yet. -/
def taken : Option Byte :=
  if s.packet.phyTxvalid && phy.txready && s.packet.sState ≠ .tstart then some s.packet.phyDataout
  else none

/-- The bytes that the PHY takes in a run. -/
def sent : Sender → List PhyIn → List Byte
  | _, [] => []
  | s, phy :: rest => (s.taken phy).toList ++ sent (s.step phy) rest

end Sender

end VivadoTest.InputTest
