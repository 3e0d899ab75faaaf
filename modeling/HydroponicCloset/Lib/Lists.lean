import Mathlib.Data.List.Forall2
import Mathlib.Data.List.Induction
import Mathlib.Tactic.Common

/-!
# Where in a list

Facts about lists that split a list where something happens in it for the last
time, or for the time with a given number, and facts about two lists that match
element by element.
-/

namespace Lists

variable {α β : Type*}

theorem getLastD_append (first second : List α) (d : α) :
    (first ++ second).getLastD d = second.getLastD (first.getLastD d) := by
  induction first generalizing d with
  | nil => rfl
  | cons x rest ih => rw [List.cons_append, List.getLastD_cons, List.getLastD_cons, ih]

/-- Where an element stands in a list with one more at the end: where it stood, or last. -/
theorem exists_split_concat {P : List α → Prop} {xs : List α} {x a : α} :
    (∃ pre post, xs ++ [a] = pre ++ x :: post ∧ P pre) ↔
      (∃ pre post, xs = pre ++ x :: post ∧ P pre) ∨ a = x ∧ P xs := by
  constructor
  · rintro ⟨pre, post, heq, hpre⟩
    rcases List.eq_nil_or_concat post with rfl | ⟨post, last, rfl⟩
    · obtain ⟨rfl, hlast⟩ := List.append_inj' heq rfl
      exact Or.inr ⟨(List.cons.inj hlast).1, hpre⟩
    · have hconcat : xs ++ [a] = (pre ++ x :: post) ++ [last] := by simpa using heq
      exact Or.inl ⟨pre, post, (List.append_inj' hconcat rfl).1, hpre⟩
  · rintro (⟨pre, post, rfl, hpre⟩ | ⟨rfl, hpre⟩)
    · exact ⟨pre, post ++ [a], by simp, hpre⟩
    · exact ⟨xs, [], rfl, hpre⟩

/-- The last element that a filter keeps. -/
theorem exists_last_filterMap (f : α → Option β) (xs : List α) (d : β)
    (hne : xs.filterMap f ≠ []) :
    ∃ pre x post y, xs = pre ++ x :: post ∧ f x = some y ∧ (∀ z ∈ post, f z = none) ∧
      (xs.filterMap f).getLastD d = y := by
  induction xs using List.reverseRecOn with
  | nil => simp at hne
  | append_singleton xs x ih =>
      cases hx : f x with
      | some y => exact ⟨xs, x, [], y, rfl, hx, by simp, by simp [List.filterMap_append, hx]⟩
      | none =>
          have hsame : (xs ++ [x]).filterMap f = xs.filterMap f := by simp [hx]
          rw [hsame] at hne ⊢
          obtain ⟨pre, x', post, y, rfl, hy, hpost, hlast⟩ := ih hne
          refine ⟨pre, x', post ++ [x], y, by simp, hy, ?_, hlast⟩
          intro z hz
          rcases List.mem_append.mp hz with hz | hz
          · exact hpost z hz
          · rw [List.mem_singleton.mp hz, hx]

/-- The element with number `n`, from zero, among those with a property. -/
theorem exists_countP_eq {p : α → Bool} {xs : List α} {n : ℕ} (h : n < xs.countP p) :
    ∃ pre x post, xs = pre ++ x :: post ∧ p x = true ∧ pre.countP p = n := by
  induction xs generalizing n with
  | nil => simp at h
  | cons x rest ih =>
      cases hx : p x with
      | true =>
          cases n with
          | zero => exact ⟨[], x, rest, rfl, hx, rfl⟩
          | succ n =>
              rw [List.countP_cons_of_pos hx] at h
              obtain ⟨pre, y, post, rfl, hy, hcount⟩ := ih (Nat.lt_of_succ_lt_succ h)
              exact ⟨x :: pre, y, post, rfl, hy, by rw [List.countP_cons_of_pos hx, hcount]⟩
      | false =>
          rw [List.countP_cons_of_neg (by simp [hx])] at h
          obtain ⟨pre, y, post, rfl, hy, hcount⟩ := ih h
          exact ⟨x :: pre, y, post, rfl, hy, by rw [List.countP_cons_of_neg (by simp [hx]), hcount]⟩

/-! ## Lists that match -/

theorem forall_mem_iff_of_forall₂ {R : α → β → Prop} {p : α → Prop} {q : β → Prop}
    (hR : ∀ x y, R x y → (p x ↔ q y)) {xs : List α} {ys : List β} (h : List.Forall₂ R xs ys) :
    (∀ x ∈ xs, p x) ↔ ∀ y ∈ ys, q y := by
  induction h with
  | nil => simp
  | cons hhead _ ih => rw [List.forall_mem_cons, List.forall_mem_cons, hR _ _ hhead, ih]

theorem filterMap_eq_of_forall₂ {γ : Type*} {R : α → β → Prop} {f : α → Option γ}
    {f' : β → Option γ} (hR : ∀ x y, R x y → f x = f' y) {xs : List α} {ys : List β}
    (h : List.Forall₂ R xs ys) : xs.filterMap f = ys.filterMap f' := by
  induction h with
  | nil => rfl
  | cons hhead _ ih => rw [List.filterMap_cons, List.filterMap_cons, hR _ _ hhead, ih]

theorem exists_of_forall₂ {R : α → β → Prop} {xs : List α} {ys : List β}
    (h : List.Forall₂ R xs ys) {y : β} (hy : y ∈ ys) : ∃ x ∈ xs, R x y := by
  induction h with
  | nil => cases hy
  | cons hhead _ ih =>
      rcases List.mem_cons.mp hy with rfl | hy
      · exact ⟨_, List.mem_cons_self .., hhead⟩
      · obtain ⟨x, hx, hR⟩ := ih hy
        exact ⟨x, List.mem_cons_of_mem _ hx, hR⟩

end Lists
