import Mathlib.Data.Fin.Basic
import Mathlib.Data.Fintype.Basic
import Mathlib.Data.List.FinRange

/-!
# `VivadoTest.Lib.Loops`: generate chains and assignment loops

Two idioms of clocked descriptions, as folds over `Fin n`.

* A chain `c(0) <= b; c(i+1) <= c(i) or x(i)` is `Fin.induction`; `orChain_last` reads its
  last element.
* A loop that overwrites a signal whenever a condition holds keeps the last assignment.
  Counting down, the least index that satisfies the condition wins
  (`foldl_reverse_finRange`). Counting up over a mask that is a run of ones, the length of
  the run wins (`foldl_finRange_prefix`).

Both are about code that a synthesis tool unrolls. The last element of a chain is the disjunction
of all its inputs, and the signal behind a loop is decided by one of its turns.
-/

set_option autoImplicit false

namespace VivadoTest.Lib

/-- The last element of an or-chain over the `n` bits `x`, started at `b`. -/
theorem orChain_last {n : Nat} (b : Bool) (x : Fin n → Bool) :
    Fin.induction (motive := fun _ => Bool) b (fun i acc => acc || x i) (Fin.last n) = true
      ↔ b = true ∨ ∃ i, x i = true := by
  induction n with
  | zero => simp
  | succ n ih =>
    have hinit : ∀ k : Fin (n + 1),
        Fin.induction (motive := fun _ => Bool) b (fun i acc => acc || x i) k.castSucc
          = Fin.induction (motive := fun _ => Bool) b (fun i acc => acc || x i.castSucc) k := by
      intro k
      induction k using Fin.induction with
      | zero => rfl
      | succ k ihk => rw [← Fin.succ_castSucc, Fin.induction_succ, ihk, Fin.induction_succ]
    rw [← Fin.succ_last, Fin.induction_succ, hinit, Bool.or_eq_true, ih, or_assoc,
      Fin.exists_fin_succ']

section
variable {α : Type*} {n : Nat}

/-- A loop whose condition never holds assigns nothing. -/
theorem foldl_assign_of_forall_not {ι : Type*} (p : ι → Bool) (f : ι → α) (d : α)
    (l : List ι) (h : ∀ i ∈ l, p i = false) :
    l.foldl (fun acc i => if p i then f i else acc) d = d := by
  induction l with
  | nil => rfl
  | cons i rest ih =>
    rw [List.foldl_cons, h i List.mem_cons_self]
    exact ih fun j hj => h j (List.mem_cons_of_mem i hj)

/-- Counting down, the assignment at the least index that satisfies the condition is the
last one made. -/
theorem foldl_reverse_finRange (p : Fin n → Bool) (f : Fin n → α) (d : α) (k : Fin n)
    (hk : p k = true) (hmin : ∀ i < k, p i = false) :
    (List.finRange n).reverse.foldl (fun acc i => if p i then f i else acc) d = f k := by
  induction n generalizing d with
  | zero => exact k.elim0
  | succ n ih =>
    rw [List.finRange_succ, List.reverse_cons, List.foldl_append, ← List.map_reverse,
      List.foldl_map, List.foldl_cons, List.foldl_nil]
    cases k using Fin.cases with
    | zero => rw [if_pos hk]
    | succ k =>
      rw [if_neg (by rw [hmin 0 (Fin.succ_pos k)]; exact Bool.false_ne_true)]
      exact ih (fun i => p i.succ) (fun i => f i.succ) d k hk
        fun i hi => hmin i.succ (Fin.succ_lt_succ_iff.mpr hi)

/-- Counting down over a mask without any set bit, the default stays. -/
theorem foldl_reverse_finRange_none (p : Fin n → Bool) (f : Fin n → α) (d : α)
    (h : ∀ i, p i = false) :
    (List.finRange n).reverse.foldl (fun acc i => if p i then f i else acc) d = d :=
  foldl_assign_of_forall_not p f d _ fun i _ => h i

/-- Counting up over a mask whose set bits are the first `m`, the last assignment is the
one at `m - 1`; with no set bit the default stays. -/
theorem foldl_finRange_prefix (p : Fin n → Bool) (g : Nat → α) (m : Nat) (hm : m ≤ n)
    (h : ∀ i : Fin n, p i = true ↔ i.val < m) :
    (List.finRange n).foldl (fun acc i => if p i then g (i.val + 1) else acc) (g 0) = g m := by
  induction n generalizing m with
  | zero =>
    obtain rfl : m = 0 := by omega
    rfl
  | succ n ih =>
    rw [List.finRange_succ_last, List.foldl_append, List.foldl_map, List.foldl_cons,
      List.foldl_nil]
    rcases Nat.lt_or_ge n m with hlt | hge
    · obtain rfl : m = n + 1 := by omega
      rw [if_pos ((h (Fin.last n)).mpr (by simp))]
      rfl
    · rw [if_neg (by rw [h]; simp [hge])]
      exact ih (fun i => p i.castSucc) m hge fun i => h i.castSucc

end

/-! ### `for` loops that can fail -/

/-- A loop over the indices from `a` on whose body keeps an invariant, and does not fail where
it holds, ends without an error in a state that satisfies it. -/
theorem foldlM_range'_invariant {ε σ : Type*} {f : σ → Nat → Except ε σ} {I : Nat → σ → Prop}
    {a d : Nat}
    (hstep : ∀ k s, a ≤ k → k < a + d → I k s → ∃ s', f s k = .ok s' ∧ I (k + 1) s')
    {s : σ} (h : I a s) : ∃ s', (List.range' a d).foldlM f s = .ok s' ∧ I (a + d) s' := by
  induction d generalizing a s with
  | zero => exact ⟨s, rfl, h⟩
  | succ d ih =>
    obtain ⟨s₁, hs₁, h₁⟩ := hstep a s le_rfl (by omega) h
    obtain ⟨s', hs', h'⟩ := ih (a := a + 1)
      (fun k s hk hkd => hstep k s (by omega) (by omega)) h₁
    refine ⟨s', ?_, ?_⟩
    · rw [List.range'_succ, List.foldlM_cons, hs₁]
      exact hs'
    · rw [show a + (d + 1) = a + 1 + d by omega]
      exact h'

/-! ### Tables -/

section
variable {ι α β : Type*} [DecidableEq α] {k : ι → α} {x : ι → β}

/-- A loop that does not assign to `a`. -/
theorem foldl_update_of_not_mem {entries : List ι} {table : α → β} {a : α}
    (h : ∀ e ∈ entries, k e ≠ a) :
    entries.foldl (fun table e => Function.update table (k e) (x e)) table a = table a := by
  induction entries generalizing table with
  | nil => rfl
  | cons e entries ih =>
    rw [List.foldl_cons, ih fun e' he' => h e' (List.mem_cons_of_mem e he'),
      Function.update_of_ne (h e List.mem_cons_self).symm]

/-- A loop that assigns one value to `a`, once or more often. -/
theorem foldl_update_of_mem {entries : List ι} {table : α → β} {e : ι} (he : e ∈ entries) {a : α}
    (hka : k e = a) {v : β} (h : ∀ e' ∈ entries, k e' = a → x e' = v) :
    entries.foldl (fun table e => Function.update table (k e) (x e)) table a = v := by
  induction entries using List.reverseRecOn with
  | nil => exact absurd he List.not_mem_nil
  | append_singleton entries last ih =>
    rw [List.foldl_append, List.foldl_cons, List.foldl_nil]
    by_cases hlast : k last = a
    · rw [hlast, Function.update_self]
      exact h last (by simp) hlast
    · rw [Function.update_of_ne (Ne.symm hlast)]
      refine ih ?_ fun e' he' => h e' (List.mem_append_left _ he')
      rcases List.mem_append.mp he with he | he
      · exact he
      · rw [List.mem_singleton.mp he] at hka
        exact absurd hka hlast

end

end VivadoTest.Lib
