import Mathlib.Data.List.Basic

/-!
# `VivadoTest.Lib.Clocked`: runs of a clocked machine

A clocked machine is a step function `σ → ι → σ`: the registers before a rising edge and
the inputs sampled at that edge give the registers after it. `trajectory` runs it on an
unbounded stream of inputs, `List.foldl` on a finite one.

* `trajectory_invariant` / `foldl_invariant`: what every admissible step preserves, every
  admissible run preserves.
* `trajectory_relation`: what every admissible pair of steps keeps between two runs.
* `Simulation`: a relation between two machines that one pair of steps preserves, and
  `Simulation.foldl`, the same relation along whole runs.
* `WeakSimulation`: the abstract machine steps only on the inputs that carry an event.

A machine with an output reads it off the registers, so an output is a function of the state and
needs no place here. A relation between two machines that need different numbers of steps is a
`WeakSimulation`: what is not an event for the abstract machine leaves it where it is.
-/

set_option autoImplicit false

namespace VivadoTest.Lib

section
variable {σ ι : Type*}

/-- The state after the first `t` inputs of the stream `ins`. -/
def trajectory (step : σ → ι → σ) (s : σ) (ins : Nat → ι) : Nat → σ
  | 0 => s
  | t + 1 => step (trajectory step s ins t) (ins t)

/-- The trajectory starts in its state. -/
@[simp] theorem trajectory_zero (step : σ → ι → σ) (s : σ) (ins : Nat → ι) :
    trajectory step s ins 0 = s := rfl

/-- Each cycle is one step. -/
theorem trajectory_succ (step : σ → ι → σ) (s : σ) (ins : Nat → ι) (t : Nat) :
    trajectory step s ins (t + 1) = step (trajectory step s ins t) (ins t) := rfl

/-- Invariant rule on streams. `Ok` restricts the inputs of the run. -/
theorem trajectory_invariant {step : σ → ι → σ} {P : σ → Prop} {Ok : ι → Prop}
    (hstep : ∀ s i, Ok i → P s → P (step s i)) {s : σ} {ins : Nat → ι}
    (hok : ∀ t, Ok (ins t)) (h0 : P s) (t : Nat) : P (trajectory step s ins t) := by
  induction t with
  | zero => exact h0
  | succ t ih => exact hstep _ _ (hok t) ih

/-- Two runs of one machine side by side: a relation that every admissible pair of steps keeps
holds between them all along. `Ok` may depend on the state of the first run. -/
theorem trajectory_relation {step : σ → ι → σ} {R : σ → σ → Prop} {Ok : σ → ι → ι → Prop}
    (hstep : ∀ s s' i i', Ok s i i' → R s s' → R (step s i) (step s' i')) {s s' : σ}
    {ins ins' : Nat → ι} (hok : ∀ t, Ok (trajectory step s ins t) (ins t) (ins' t)) (h0 : R s s')
    (t : Nat) : R (trajectory step s ins t) (trajectory step s' ins' t) := by
  induction t with
  | zero => exact h0
  | succ t ih => exact hstep _ _ _ _ (hok t) ih

/-- Invariant rule on finite runs. -/
theorem foldl_invariant {step : σ → ι → σ} {P : σ → Prop} {Ok : ι → Prop}
    (hstep : ∀ s i, Ok i → P s → P (step s i)) {s : σ} {ins : List ι}
    (hok : ∀ i ∈ ins, Ok i) (h0 : P s) : P (ins.foldl step s) := by
  induction ins generalizing s with
  | nil => exact h0
  | cons i rest ih =>
    exact ih (fun j hj => hok j (List.mem_cons_of_mem i hj))
      (hstep s i (hok i List.mem_cons_self) h0)

/-- The invariant of a machine that may take every step. -/
theorem foldl_invariant_of_step {step : σ → ι → σ} {P : σ → Prop}
    (hstep : ∀ s i, P s → P (step s i)) {s : σ} (ins : List ι) (h0 : P s) : P (ins.foldl step s) :=
  foldl_invariant (fun s i (_ : True) => hstep s i) (fun _ _ => trivial) h0

end

/-- A simulation between two clocked machines over the same input stream: each pair of
steps on an admissible input keeps the relation. -/
structure Simulation {σ τ ι : Type*} (stepC : σ → ι → σ) (stepA : τ → ι → τ)
    (Ok : ι → Prop) where
  /-- The relation between a concrete and an abstract state. -/
  Rel : σ → τ → Prop
  /-- One step on both sides keeps the relation. -/
  step : ∀ s a i, Ok i → Rel s a → Rel (stepC s i) (stepA a i)

/-- The run lemma of a simulation. -/
theorem Simulation.foldl {σ τ ι : Type*} {stepC : σ → ι → σ} {stepA : τ → ι → τ}
    {Ok : ι → Prop} (sim : Simulation stepC stepA Ok) {s : σ} {a : τ} {ins : List ι}
    (hok : ∀ i ∈ ins, Ok i) (h0 : sim.Rel s a) :
    sim.Rel (ins.foldl stepC s) (ins.foldl stepA a) := by
  induction ins generalizing s a with
  | nil => exact h0
  | cons i rest ih =>
    exact ih (fun j hj => hok j (List.mem_cons_of_mem i hj))
      (sim.step s a i (hok i List.mem_cons_self) h0)

/-- A simulation of a machine that steps on events: an input that carries an event is matched
by a step on it, any other input by no step. -/
structure WeakSimulation {σ τ ι ε : Type*} (stepC : σ → ι → σ) (stepA : τ → ε → τ)
    (event : ι → Option ε) (Ok : ι → Prop) where
  Rel : σ → τ → Prop
  visible : ∀ s a i e, Ok i → event i = some e → Rel s a → Rel (stepC s i) (stepA a e)
  silent : ∀ s a i, Ok i → event i = none → Rel s a → Rel (stepC s i) a

/-- A weak simulation holds over a whole run: the abstract machine takes a step for each cycle
that is an event and none for the others. By induction on the inputs. -/
theorem WeakSimulation.foldl {σ τ ι ε : Type*} {stepC : σ → ι → σ} {stepA : τ → ε → τ}
    {event : ι → Option ε} {Ok : ι → Prop} (sim : WeakSimulation stepC stepA event Ok) {s : σ}
    {a : τ} {ins : List ι} (hok : ∀ i ∈ ins, Ok i) (h0 : sim.Rel s a) :
    sim.Rel (ins.foldl stepC s) ((ins.filterMap event).foldl stepA a) := by
  induction ins generalizing s a with
  | nil => exact h0
  | cons i rest ih =>
    have hi := hok i List.mem_cons_self
    have hrest : ∀ j ∈ rest, Ok j := fun j hj => hok j (List.mem_cons_of_mem i hj)
    rw [List.foldl_cons]
    cases he : event i with
    | none =>
      rw [List.filterMap_cons_none he]
      exact ih hrest (sim.silent s a i hi he h0)
    | some e =>
      rw [List.filterMap_cons_some he, List.foldl_cons]
      exact ih hrest (sim.visible s a i e hi he h0)

end VivadoTest.Lib
