import VivadoTest.Proofs.UsbReceive

/-!
# `VivadoTest.Proofs.UsbDetect`: damaged packets

What a receiver that checks the CRCs does not let through. A packet whose bytes after the
identifier were damaged on the way is not confirmed if the damage lies inside a window as wide as
the CRC, or if it is a few single bits: two in a token, three in a data packet of up to
1024 bytes of payload (`damaged_not_confirmed`). The generator of the data packets has odd weight
and does not return within the length of such a packet.

## The distance of a packet

Two packets of one length with one checksum differ by a message that leaves the register at zero.
Such a message has no odd number of bits, as the generator of the data packets has a factor `X +
1`, and it is not a single burst that fits the register. Two single bits leave it at zero only at
the distance at which the register of the generator returns to its start
(`not_returnsAfter_dataGen`), which is farther than the packet is long.

The receiver confirms good packets only (`VivadoTest.Proofs.UsbReceive`), from which
`damaged_not_confirmed` follows for every run that hears the damaged bytes.
-/

set_option autoImplicit false

namespace VivadoTest.InputTest

open VivadoTest.Framework
open VivadoTest.Lib.Crc
open VivadoTest.Spec

/-- Two messages differ inside one window of `w` bits at most. -/
def Burst (w : Nat) (as bs : List Bool) : Prop :=
  ∃ pre mid mid' post, as = pre ++ mid ++ post ∧ bs = pre ++ mid' ++ post ∧
    mid.length = mid'.length ∧ mid.length ≤ w

/-- The damage that is always found out. -/
def Detectable (kind : PacketKind) (body body' : List Byte) : Prop :=
  match kind with
  | .token => Burst 5 (wireBits body) (wireBits body') ∨
      body.length ≤ 3 ∧ distance (wireBits body) (wireBits body') ≤ 2
  | .data => Burst 16 (wireBits body) (wireBits body') ∨
      body.length ≤ 1026 ∧ distance (wireBits body) (wireBits body') ≤ 3
  | .handshake => True

/-- The token's register does not return within 24 bits: what two errors in a token of that length
would need. -/
theorem not_returnsAfter_tokenGen {k : Nat} (hk : 0 < k) (hlt : k ≤ 24) :
    ¬ ReturnsAfter tokenGen k :=
  not_returnsAfter_of_neverReturns (by decide) (n := 24) (by decide) hk hlt

/-- Nor does the one of data within 8208 bits, a payload of 1024 bytes with its checksum. -/
theorem not_returnsAfter_dataGen {k : Nat} (hk : 0 < k) (hlt : k ≤ 8208) :
    ¬ ReturnsAfter dataGen k :=
  not_returnsAfter_of_neverReturns (by decide) (n := 8208) (by decide +kernel) hk hlt

/-- Two bodies with the residue that differ in a detectable way are the same. -/
theorem eq_of_burst_bodies {w : Nat} {g : BitVec w} (hg : g.getLsbD 0 = true) {c : BitVec w}
    {body body' : List Byte}
    (heq : crcBits g c (wireBits body) = crcBits g c (wireBits body'))
    (hburst : Burst w (wireBits body) (wireBits body')) : body = body' := by
  obtain ⟨pre, mid, mid', post, hbody, hbody', hlen, hw⟩ := hburst
  rw [hbody, hbody'] at heq
  apply wireBits_injective
  rw [hbody, hbody', eq_of_burst hg c hlen hw heq]

/-- A good packet with a detectable error in its body is not a good packet. -/
theorem not_goodPacket_of_detectable {kind : PacketKind} {pid : BitVec 4}
    (hkind : packetKind pid = kind) {body body' : List Byte}
    (hwf : GoodPacket (pidByte pid :: body)) (hlen : body.length = body'.length)
    (hne : body ≠ body') (hdet : Detectable kind body body') :
    ¬ GoodPacket (pidByte pid :: body') := by
  intro hwf'
  have hbits : (wireBits body).length = (wireBits body').length := by simp [hlen]
  have hbits_ne : wireBits body ≠ wireBits body' := fun h => hne (wireBits_injective h)
  cases kind with
  | handshake =>
    rw [goodPacket_handshake_iff hkind] at hwf hwf'
    exact hne (hwf.trans hwf'.symm)
  | token =>
    have hres := ((goodPacket_token_iff hkind body).mp hwf).2.trans
      ((goodPacket_token_iff hkind body').mp hwf').2.symm
    rw [foldl_crc5Upd, foldl_crc5Upd] at hres
    -- the two bodies would leave the same remainder
    rcases hdet with hburst | ⟨hshort, hdist⟩
    · exact hne (eq_of_burst_bodies (by decide) hres hburst)
    · have := three_le_distance (by decide) _ hbits
        (fun k hk hlt => not_returnsAfter_tokenGen hk (by simp at hlt; omega)) hres hbits_ne
      omega
  | data =>
    have hres := ((goodPacket_data_iff hkind body).mp hwf).2.trans
      ((goodPacket_data_iff hkind body').mp hwf').2.symm
    rw [foldl_crc16Upd, foldl_crc16Upd] at hres
    rcases hdet with hburst | ⟨hshort, hdist⟩
    · exact hne (eq_of_burst_bodies (by decide) hres hburst)
    · have := four_le_distance (by decide) (by decide) _ hbits
        (fun k hk hlt => not_returnsAfter_dataGen hk (by simp at hlt; omega)) hres hbits_ne
      omega

/-- A packet that was damaged in a detectable way after its identifier is not confirmed, in any run
without a reset and without a chirp, whatever else the application and the PHY do in it. -/
theorem damaged_not_confirmed {r : UsbPacket} (hr : r.Started) {kind : PacketKind} {pid : BitVec 4}
    (hkind : packetKind pid = kind) {body body' : List Byte}
    (hwf : GoodPacket (pidByte pid :: body)) (hlen : body.length = body'.length)
    (hne : body ≠ body') (hdet : Detectable kind body body') (ins : List UsbPacketIn)
    (last : UsbPacketIn) (hctl : ∀ i ∈ ins ++ [last], i.reset = false ∧ i.pChirpk = false)
    (hheard : (heard ins).bytes = pidByte pid :: body') :
    ((ins ++ [last]).foldl UsbPacket.step r).pRxfin = false := by
  rw [← Bool.not_eq_true]
  intro hfin
  have hends := UsbPacket.ends_of_pRxfin hr hctl hfin
  exact not_goodPacket_of_detectable hkind hwf hlen hne hdet (hheard ▸ hends.goodPacket)

/-- Three bits of a data packet: one in each byte of the payload, and one of the checksum. -/
theorem damaged_not_confirmed_threeBits :
    ([.hearing (some (pidByte 0x3)), .hearing (some 0x13), .hearing (some 0x14),
      .hearing (some 0xF3), .hearing (some 0x39), .hearing none].foldl
      UsbPacket.step .initial).pRxfin = false := by
  have hgood : GoodPacket (pidByte 0x3 :: ([0x12, 0x34] ++ [0xF3, 0x38])) :=
    .data 0x3 (by decide) [0x12, 0x34] [0xF3, 0x38] (by decide +kernel)
  have hdetectable : Detectable .data [0x12, 0x34, 0xF3, 0x38] [0x13, 0x14, 0xF3, 0x39] :=
    Or.inr ⟨by decide, by decide⟩
  have hkind : packetKind 0x3 = .data := by decide
  exact damaged_not_confirmed UsbPacket.started_initial hkind hgood (by decide) (by decide)
    hdetectable
    [.hearing (some (pidByte 0x3)), .hearing (some 0x13), .hearing (some 0x14),
      .hearing (some 0xF3), .hearing (some 0x39)] (.hearing none) (by decide) (by decide)

end VivadoTest.InputTest
