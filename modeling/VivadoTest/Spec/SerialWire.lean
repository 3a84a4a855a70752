import VivadoTest.Framework.Util
import Mathlib.Algebra.Order.Ring.Nat

/-!
# `VivadoTest.Spec.SerialWire`: bytes on a serial wire

The wire between two ends of a serial line, clock by clock: high when nothing is sent, and for each
byte ten bits of one length, the start bit, the eight data bits with the lowest first, and the stop
bit. The length of a bit is up to the sender, and so is the time between two frames.

`WireFrame.wire` is the level at each cycle for a list of frames, one after the other, with the gap
of each in front of it. Behind the last one the line is high. The bit time of a frame is in cycles
of the receiver's clock.
-/

set_option autoImplicit false

namespace VivadoTest.Framework

/-- The bits on the line: the start bit, the byte, and the stop bit from there on. -/
def frameBit (b : Byte) : Nat → Bool
  | 0 => false
  | j + 1 => if j < 8 then b.getLsbD j else true

/-- A byte on the wire: the idle cycles before it, and the cycles that a bit takes. -/
structure WireFrame where
  gap : Nat
  bitTime : Nat
  byte : Byte
  deriving DecidableEq, Repr

namespace WireFrame

/-- The cycles that a frame takes, its gap included: a start bit, eight bits of data and a stop
bit. -/
def length (f : WireFrame) : Nat := f.gap + 10 * f.bitTime

/-- The wire when the frames come one after the other. -/
def wire : List WireFrame → Nat → Bool
  | [], _ => true
  | f :: rest, t =>
    if t < f.gap then true
    else if t < f.length then frameBit f.byte ((t - f.gap) / f.bitTime)
    else wire rest (t - f.length)

/-- The cycles that the frames take together. -/
def lengths (frames : List WireFrame) : Nat := (frames.map length).sum

variable {f : WireFrame} {rest : List WireFrame}

/-- Before the frame the line is high. -/
theorem wire_gap {t : Nat} (h : t < f.gap) : wire (f :: rest) t = true := by simp [wire, h]

/-- In the frame the line shows bit after bit, each for the bit time. -/
theorem wire_frame {d : Nat} (h : d < 10 * f.bitTime) :
    wire (f :: rest) (f.gap + d) = frameBit f.byte (d / f.bitTime) := by
  simp [wire, length, h]

/-- After the frame the line is that of the frames after it. -/
theorem wire_rest (t : Nat) : wire (f :: rest) (f.length + t) = wire rest t := by
  have hgap : f.gap ≤ f.length := by simp [length]
  rw [wire, if_neg (by omega), if_neg (by omega), Nat.add_sub_cancel_left]

end WireFrame

end VivadoTest.Framework
