import VivadoTest.InputTest.UsbTransact
import VivadoTest.Spec.UsbFormat
import VivadoTest.Spec.UsbLine
import VivadoTest.Lib.Clocked

/-!
# `VivadoTest.Spec.UsbTransaction`: transactions as a log

What happens at a device is written down as a log of events (`Event`): the packets that it has
heard, the bytes that it has handed to the application, the handshakes that it has sent, and the
tokens that carried its address. A transaction is a shape of the end of the log. `Due` is a
transaction that waits for the handshake of the device, and `Completed` one that is over.

Only good packets are on the log, and a packet is on it when it is over. So the shapes can be given
as lists. `Due` begins with a token to the endpoint of the device. Where the host sends data, the
bytes that the application has been given and the packet with these bytes follow. Other packets may
have been heard since. `Completed` adds the handshake.
-/

set_option autoImplicit false

namespace VivadoTest.Spec

open VivadoTest.Framework VivadoTest.InputTest

/-- What happens on the line and at the outputs of the device, cycle by cycle. -/
inductive Event where
  /-- A token carries the address `a`, which is the one of the device at the time. -/
  | addressed (a : BitVec 7)
  /-- A packet is over, and was good. -/
  | heard (bytes : List Byte)
  /-- A byte for the application. -/
  | payload (b : Byte)
  /-- The device sends a handshake. -/
  | shake (pid : BitVec 4)

/-- A good token for the endpoint `endpt` of the device with the address `a`. -/
structure TokenTo (pid : BitVec 4) (a : BitVec 7) (endpt : BitVec 4) (bytes : List Byte) :
    Prop where
  fields : ∃ b₁ b₂ more, bytes = pidByte pid :: b₁ :: b₂ :: more ∧ b₁.extractLsb' 0 7 = a ∧
    endpt = b₂.extractLsb' 0 3 ++ b₁.extractLsb' 7 1
  good : GoodPacket bytes

/-- A transaction that waits for the handshake of the device: the token, and for OUT and SETUP a
good data packet with the sync bit `osync`, whose bytes after the first are those that the
application has been given. What is heard after that is left aside. -/
inductive Due (a : BitVec 7) (endpt : BitVec 4) (osync : Bool) : BitVec 4 → List Event → Prop
  | receive {pid : BitVec 4} (hpid : pid = pidOut ∨ pid = pidSetup) {token : List Byte}
      (htoken : TokenTo pid a endpt token) (bytes : List Byte)
      (hgood : GoodPacket (pidByte (BitVec.ofBool osync ++ pidData) :: bytes))
      (others : List (List Byte)) :
      Due a endpt osync pid (.addressed a :: .heard token :: (bytes.map .payload ++
        .heard (pidByte (BitVec.ofBool osync ++ pidData) :: bytes) :: others.map .heard))
  | respond {pid : BitVec 4} (hpid : pid = pidIn ∨ pid = pidPing) {token : List Byte}
      (htoken : TokenTo pid a endpt token) (others : List (List Byte)) :
      Due a endpt osync pid (.addressed a :: .heard token :: others.map .heard)

/-- A transaction that is over: the device has sent its handshake, or the host has acknowledged the
data that the device has sent. -/
inductive Completed (a : BitVec 7) (endpt : BitVec 4) (osync : Bool) :
    BitVec 4 → List Event → Prop
  | answered {pid : BitVec 4} {es : List Event} (hdue : Due a endpt osync pid es)
      (handshake : BitVec 4) : Completed a endpt osync pid (es ++ [.shake handshake])
  | acknowledged {es : List Event} (hdue : Due a endpt osync pidIn es) :
      Completed a endpt osync pidIn (es ++ [.heard [pidByte pidAck]])

/-- Bytes that were heard after the transfer became due do not change that it is. -/
theorem Due.heard {a : BitVec 7} {endpt : BitVec 4} {osync : Bool} {pid : BitVec 4}
    {es : List Event} (h : Due a endpt osync pid es) (bytes : List Byte) :
    Due a endpt osync pid (es ++ [.heard bytes]) := by
  cases h with
  | receive hpid htoken data hgood others =>
    simpa using Due.receive hpid htoken data hgood (others ++ [bytes])
  | respond hpid htoken others => simpa using Due.respond hpid htoken (others ++ [bytes])

end VivadoTest.Spec

namespace VivadoTest.InputTest

open VivadoTest.Framework VivadoTest.Spec

/-- What happens at the entity in a cycle. `bytes` is the packet that is over. -/
def UsbTransact.events (s : UsbTransact) (input : TransactIn) (p : PacketOut) (bytes : List Byte) :
    List Event :=
  (if s.sState = .gettoken1 ∧ p.pRxact ∧ p.pRxrdy ∧ p.pRxdat.extractLsb' 0 7 = input.tAddr then
    [.addressed input.tAddr] else []) ++
  (if s.tRxrdy p then [.payload p.pRxdat] else []) ++
  (if p.pRxfin then [.heard bytes] else []) ++
  (if s.sState = .sendshake ∧ p.pTxrdy then [.shake s.sSendpid] else [])

section
variable (hssupport : Bool) (d : UsbDevice) (ins : Nat → UsbDeviceIn)

/-- The device after `t` cycles. -/
abbrev deviceAt : Nat → UsbDevice := Lib.trajectory (UsbDevice.step hssupport) d ins

/-- The packet that is being received, as far as the device has looked at it. -/
def heardAt : Nat → Heard
  | 0 => Heard.start
  | t + 1 => (heardAt t).next (deviceAt hssupport d ins t).packet.rxLine

/-- The log of the first `t` cycles. -/
def logAt : Nat → List Event
  | 0 => []
  | t + 1 => logAt t ++ (deviceAt hssupport d ins t).transact.events (ins t).app
      (deviceAt hssupport d ins t).packetOut (heardAt hssupport d ins t).bytes

end

/-- The flags of a transaction: the one of `pid` is high, and no other. -/
def UsbTransact.Flags (s : UsbTransact) (pid : BitVec 4) : Prop :=
  s.sIn = decide (pid = pidIn) ∧ s.sOut = decide (pid = pidOut) ∧
    s.sSetup = decide (pid = pidSetup) ∧ s.sPing = decide (pid = pidPing)

end VivadoTest.InputTest
