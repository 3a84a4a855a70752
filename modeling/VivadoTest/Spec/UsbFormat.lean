import VivadoTest.Framework.Util
import VivadoTest.Lib.Crc

/-!
# `VivadoTest.Spec.UsbFormat`: the format of a USB packet

The packets as the USB standard has them, on bits: a packet starts with its identifier and the
complement of it, and the rest of a token and of a data packet ends with a checksum of the bits
before it. Nothing here is taken from the machine that receives packets, only the generators and
the order of the bits are common to both.

`GoodPacket` has one constructor for each kind of packet. A token is an identifier and bytes that
end in a checksum of five bits, data are an identifier and bytes with a checksum of sixteen, and a
handshake is an identifier alone. The length of a token is not fixed by it, as the receiver does
not look at the length either; nor is the set of identifiers: `packetKind` gives every identifier a
kind by its two low bits.
-/

set_option autoImplicit false

namespace VivadoTest.Spec

open VivadoTest.Framework
open VivadoTest.Lib.Crc

/-- The bits of a byte in the order of the wire. -/
def byteBits (b : Byte) : List Bool := (List.range 8).map b.getLsbD

/-- The bits of a packet in the order in which they go over the wire. -/
def wireBits (bs : List Byte) : List Bool := bs.flatMap byteBits

/-- The first byte of a packet: the identifier, and its complement in the upper half. -/
def pidByte (pid : BitVec 4) : Byte := ~~~pid ++ pid

/-- The kinds of packets. The special ones, PING among them, have the shape of a token. -/
inductive PacketKind where
  | token
  | data
  | handshake
  deriving DecidableEq, Repr

/-- The kind of packet that an identifier stands for, by its two low bits: what is neither token
nor data counts as a handshake. -/
def packetKind (pid : BitVec 4) : PacketKind :=
  if pid.extractLsb' 0 2 = 0b11 then .data
  else if pid.extractLsb' 0 2 = 0b10 then .handshake
  else .token

/-- The checksum of `bits`: the complement of the register, which starts with ones. -/
def checksum {w : Nat} (g : BitVec w) (bits : List Bool) : List Bool :=
  msbs (~~~crcBits g (BitVec.allOnes w) bits)

/-- X^5 + X^2 + 1. -/
def tokenGen : BitVec 5 := 0x05

/-- X^16 + X^15 + X^2 + 1. -/
def dataGen : BitVec 16 := 0x8005

/-- The bytes of a good packet. -/
inductive GoodPacket : List Byte → Prop where
  | handshake (pid : BitVec 4) (hkind : packetKind pid = .handshake) : GoodPacket [pidByte pid]
  | token (pid : BitVec 4) (hkind : packetKind pid = .token) (body : List Byte)
      (field : List Bool) (hbody : wireBits body = field ++ checksum tokenGen field) :
      GoodPacket (pidByte pid :: body)
  | data (pid : BitVec 4) (hkind : packetKind pid = .data) (payload crc : List Byte)
      (hcrc : wireBits crc = checksum dataGen (wireBits payload)) :
      GoodPacket (pidByte pid :: (payload ++ crc))

/-- A byte is eight bits on the wire. -/
@[simp] theorem length_byteBits (b : Byte) : (byteBits b).length = 8 := by simp [byteBits]

/-- No bytes, no bits. -/
@[simp] theorem wireBits_nil : wireBits [] = [] := rfl

/-- A byte's bits come before those of the bytes after it. -/
@[simp] theorem wireBits_cons (b : Byte) (bs : List Byte) :
    wireBits (b :: bs) = byteBits b ++ wireBits bs := rfl

/-- The bits of two pieces, one after the other. -/
@[simp] theorem wireBits_append (bs bs' : List Byte) :
    wireBits (bs ++ bs') = wireBits bs ++ wireBits bs' := by simp [wireBits]

/-- Eight bits for each byte. -/
@[simp] theorem length_wireBits (bs : List Byte) : (wireBits bs).length = 8 * bs.length := by
  induction bs with
  | nil => rfl
  | cons b bs ih => simp [ih]; omega

/-- Different bytes differ on the wire. -/
theorem byteBits_injective : Function.Injective byteBits := by
  intro a b h
  apply BitVec.eq_of_getLsbD_eq
  intro i hi
  have := congrArg (fun l => l[i]?) h
  simpa [byteBits, hi] using this

/-- Different packets differ on the wire. -/
theorem wireBits_injective : Function.Injective wireBits := by
  intro as bs h
  induction as generalizing bs with
  | nil =>
    cases bs with
    | nil => rfl
    | cons b bs =>
      have := congrArg List.length h
      simp only [length_wireBits, List.length_nil, List.length_cons] at this
      omega
  | cons a as ih =>
    cases bs with
    | nil =>
      have := congrArg List.length h
      simp only [length_wireBits, List.length_nil, List.length_cons] at this
      omega
    | cons b bs =>
      obtain ⟨hab, hrest⟩ := List.append_inj h (by simp)
      rw [byteBits_injective hab, ih hrest]

/-- A checksum is as long as its generator. -/
@[simp] theorem length_checksum {w : Nat} (g : BitVec w) (bits : List Bool) :
    (checksum g bits).length = w := by simp [checksum]

/-- A checksum is checked by reading on until its end. -/
theorem crcBits_append_checksum {w : Nat} {g : BitVec w} (hg : g.getLsbD 0 = true)
    (bits check : List Bool) (hlen : check.length = w) :
    crcBits g (BitVec.allOnes w) (bits ++ check) = residue g ↔ check = checksum g bits := by
  rw [crcBits_append, crcBits_eq_residue_iff hg _ hlen]
  rfl

end VivadoTest.Spec
