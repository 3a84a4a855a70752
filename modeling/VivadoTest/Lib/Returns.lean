import Mathlib.Logic.Basic
import Mathlib.Control.Basic

/-!
# `VivadoTest.Lib.Returns`: programs that consume a supply

A program over a state that holds a supply (of input, of messages, of time) runs for as long
as the supply lasts. `Returns I k x a` says that `x`, started in a state with a supply of
`n + k`, returns `a` and leaves a supply of `n`; `I n s` says that the state `s` is good and
holds at least `n`. The supply that a program needs is the sum over its steps
(`Returns.bind`).

`none` is a program whose supply has run out. So a program that is shown to return with a supply of
its own size does return, and not only if it does.
-/

set_option autoImplicit false

namespace VivadoTest.Lib

variable {σ α β : Type}

/-- `x` uses `k` of the supply and returns `a`. -/
def Returns (I : Nat → σ → Prop) (k : Nat) (x : StateT σ Option α) (a : α) : Prop :=
  ∀ n s, I (n + k) s → ∃ s', x.run s = some (a, s') ∧ I n s'

/-- A result alone returns with no step. -/
theorem Returns.pure (I : Nat → σ → Prop) (a : α) :
    Returns I 0 (Pure.pure a : StateT σ Option α) a :=
  fun _ s hs => ⟨s, rfl, hs⟩

/-- The steps of two programs, one after the other, add up. -/
theorem Returns.bind {I : Nat → σ → Prop} {k m : Nat} {x : StateT σ Option α}
    {f : α → StateT σ Option β} {a : α} {b : β} (hx : Returns I k x a)
    (hf : Returns I m (f a) b) : Returns I (m + k) (x >>= f) b := by
  intro n s hs
  obtain ⟨s₁, hrun, hs₁⟩ := hx (n + m) s (by rwa [Nat.add_assoc])
  obtain ⟨s₂, hrun', hs₂⟩ := hf n s₁ hs₁
  refine ⟨s₂, ?_, hs₂⟩
  show (x.run s >>= fun p => (f p.1).run p.2) = some (b, s₂)
  rw [hrun]
  exact hrun'

end VivadoTest.Lib
