import Mathlib.Order.Iterate
import Mathlib.Tactic.Common

/-!
# Loops that only move forward

`for (i = a; i < n; i = f(i))`, for a function `f` that never goes back.  Such a loop
ends if and only if it moves at every position that it comes to (`ends_iff`): a position
that it does not leave is the last one.  If it ends it does so within `n - a` iterations,
as each of them moves by at least one (`ends_within`).
-/

namespace Progress

/-- The loop comes to `i`. -/
def Comes (f : ℕ → ℕ) (a n i : ℕ) : Prop := i < n ∧ ∃ k, f^[k] a = i

variable {f : ℕ → ℕ} {a n : ℕ}

theorem monotone_iterate (hle : ∀ i, i ≤ f i) : Monotone fun k => f^[k] a := by
  apply monotone_nat_of_le_succ
  intro k
  rw [Function.iterate_succ_apply']
  exact hle _

/-- **Progress** at every position takes the loop to its end. -/
theorem ends_within (hle : ∀ i, i ≤ f i) (hmoves : ∀ i, Comes f a n i → i < f i) :
    n ≤ f^[n - a] a := by
  have hfar : ∀ k, n ≤ f^[k] a ∨ a + k ≤ f^[k] a := by
    intro k
    induction k with
    | zero => exact Or.inr (le_refl a)
    | succ k ih =>
        have hnext := hle (f^[k] a)
        rw [Function.iterate_succ_apply']
        rcases Nat.lt_or_ge (f^[k] a) n with hlt | hend
        · have hmove := hmoves _ ⟨hlt, k, rfl⟩
          omega
        · exact Or.inl (hend.trans hnext)
  rcases hfar (n - a) with hend | hfar
  · exact hend
  · omega

/-- **A loop ends** if and only if it moves at every position that it comes to. -/
theorem ends_iff (hle : ∀ i, i ≤ f i) :
    (∃ k, n ≤ f^[k] a) ↔ ∀ i, Comes f a n i → i < f i := by
  constructor
  · rintro ⟨k, hend⟩ i ⟨hlt, m, rfl⟩
    by_contra hstays
    have hfixed : f (f^[m] a) = f^[m] a := Nat.le_antisymm (Nat.le_of_not_lt hstays) (hle _)
    have hbound : f^[k] a ≤ f^[m] a := by
      rcases Nat.le_total k m with hkm | hmk
      · exact monotone_iterate hle hkm
      · rw [← Nat.sub_add_cancel hmk, Function.iterate_add_apply, Function.iterate_fixed hfixed]
    omega
  · exact fun hmoves => ⟨n - a, ends_within hle hmoves⟩

end Progress
