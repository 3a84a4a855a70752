import VivadoTest.Host.HostcommProxy
import VivadoTest.Framework.MIPSSystem

/-!
# `VivadoTest.Host.Transfer`: a text on its way to the board

The host writes a text, the parser turns it into bus accesses, and the board makes them one
after the other, with any number of cycles between them.

`Transfers` says that the accesses on the bus are those into which the parser turns the text, in
order. It does not say when they happen. `VivadoTest.Proofs.UartCalls` proves that a host that
sends the text over the serial line makes such accesses.
-/

set_option autoImplicit false

namespace VivadoTest.Host

open VivadoTest.Framework

variable {N : Nat}

/-- In the run `ins`, without a reset of the board, the bus accesses are those that the parser
makes of `text`. -/
structure Transfers (p : UartParser) (text : List Char) (ins : List (BoardIn N)) : Prop where
  reset : ∀ i ∈ ins, i.reset = false
  accesses : (ins.filterMap fun i => i.bus.op) = (p.feed (encode text)).2

/-- The processor makes no register write in the run. -/
def Quiet (ins : List (BoardIn N)) : Prop := ∀ i ∈ ins, ∀ k, (i.proc.writePorts k).we = false

/-- The processor makes no register write in the cycles of the run in which it is disabled. -/
def QuietWhileDisabled : Board N → List (BoardIn N) → Prop
  | _, [] => True
  | b, i :: ins =>
    (b.processorEnable = false → ∀ k, (i.proc.writePorts k).we = false) ∧
      QuietWhileDisabled (b.step i) ins

end VivadoTest.Host
