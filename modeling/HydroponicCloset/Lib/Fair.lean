import Mathlib.Data.Nat.Init
import HydroponicCloset.Lib.Runs

/-!
# Runs that go on forever

What a machine must do at some time is a statement about its infinite runs.  Some of its
inputs are one party's own.  A run is fair to the party if, whenever it could make a step
at every time from some time on, it makes one.

`Fair.exists_own` is the rule for such runs: as long as the others leave a condition as it
is under which the party can make a step, it makes one under this condition.
-/

namespace Runs

/-! ## Times -/

section Times

variable {P Q : ℕ → Prop} {m : ℕ}

/-- What every step preserves from some time on holds from then on. -/
theorem always_of_next (hm : P m) (hnext : ∀ n, m ≤ n → P n → P (n + 1)) : ∀ n, m ≤ n → P n := by
  intro n hn
  induction n, hn using Nat.le_induction with
  | base => exact hm
  | succ n hn ih => exact hnext n hn ih

/-- What lasts until something happens is there when it does. -/
theorem exists_until (hm : P m) (hkept : ∀ n, m ≤ n → P n → ¬ Q n → P (n + 1))
    (hlater : ∃ n, m ≤ n ∧ Q n) : ∃ n, m ≤ n ∧ P n ∧ Q n := by
  by_contra hnever
  have hnot : ∀ n, m ≤ n → P n → ¬ Q n := fun n hn hP hQ => hnever ⟨n, hn, hP, hQ⟩
  obtain ⟨n, hn, hQ⟩ := hlater
  have hP := always_of_next hm (fun n hn hP => hkept n hn hP (hnot n hn hP)) n hn
  exact hnot n hn hP hQ

end Times

variable {σ ι : Type*} {step : σ → ι → Option σ}

/-! ## Infinite runs -/

/-- A run without end. -/
structure Forever (step : σ → ι → Option σ) where
  state : ℕ → σ
  input : ℕ → ι
  next : ∀ n, step (state n) (input n) = some (state (n + 1))

namespace Forever

/-- The part of the run between two times is a run. -/
theorem run_between (e : Forever step) (m n : ℕ) :
    run step (e.state m) ((List.range n).map fun k => e.input (m + k)) =
      some (e.state (m + n)) := by
  induction n with
  | zero => rfl
  | succ n ih =>
      rw [List.range_succ, List.map_append, run_append, ih, Option.bind_some, List.map_singleton,
        run_cons, e.next (m + n)]
      rfl

theorem run_take (e : Forever step) (n : ℕ) :
    run step (e.state 0) ((List.range n).map e.input) = some (e.state n) := by
  simpa only [Nat.zero_add] using e.run_between 0 n

theorem inputs_prefix (e : Forever step) {m n : ℕ} (hmn : m ≤ n) :
    (List.range m).map e.input <+: (List.range n).map e.input := by
  refine always_of_next (P := fun n => (List.range m).map e.input <+: (List.range n).map e.input)
    (List.prefix_refl _) (fun n _ hprefix => ?_) n hmn
  rw [List.range_succ, List.map_append]
  exact hprefix.trans (List.prefix_append _ _)

/-- A step before a run without end. -/
def cons (e : Forever step) (s : σ) (i : ι) (h : step s i = some (e.state 0)) : Forever step where
  state
    | 0 => s
    | n + 1 => e.state n
  input
    | 0 => i
    | n + 1 => e.input n
  next
    | 0 => h
    | n + 1 => e.next n

/-- Inputs that can be taken one after the other make a run without end. -/
theorem exists_of_input (s : σ) (input : ℕ → ι)
    (h : ∀ n, (run step s ((List.range n).map input)).isSome) :
    ∃ e : Forever step, e.state 0 = s ∧ e.input = input := by
  have hnext : ∀ n, step ((run step s ((List.range n).map input)).get (h n)) (input n) =
      some ((run step s ((List.range (n + 1)).map input)).get (h (n + 1))) := by
    intro n
    obtain ⟨mid, hmid⟩ := Option.isSome_iff_exists.mp (h n)
    have hlast : run step s ((List.range (n + 1)).map input) = step mid (input n) := by
      rw [List.range_succ, List.map_append, List.map_singleton, run_concat, hmid]
      rfl
    rw [Option.some_get, hlast]
    simp only [hmid, Option.get_some]
  exact ⟨⟨_, input, hnext⟩, rfl, rfl⟩

/-- It is enough that the next input can be taken in every state that an invariant
allows at this time. -/
theorem exists_of_invariant {s : σ} {input : ℕ → ι} (Inv : ℕ → σ → Prop) (hs : Inv 0 s)
    (hnext : ∀ n s, Inv n s → ∃ s', step s (input n) = some s' ∧ Inv (n + 1) s') :
    ∃ e : Forever step, e.state 0 = s ∧ e.input = input ∧ ∀ n, Inv n (e.state n) := by
  have hrun : ∀ n, ∃ s', run step s ((List.range n).map input) = some s' ∧ Inv n s' := by
    intro n
    induction n with
    | zero => exact ⟨s, rfl, hs⟩
    | succ n ih =>
        obtain ⟨mid, hmid, hinv⟩ := ih
        obtain ⟨s', hstep, hinv'⟩ := hnext n mid hinv
        refine ⟨s', ?_, hinv'⟩
        rw [List.range_succ, List.map_append, List.map_singleton, run_concat, hmid]
        exact hstep
  obtain ⟨e, hstate, hinput⟩ := exists_of_input s input fun n => by
    obtain ⟨s', hs', -⟩ := hrun n
    rw [hs']
    rfl
  refine ⟨e, hstate, hinput, fun n => ?_⟩
  obtain ⟨s', hs', hinv⟩ := hrun n
  have hsame := e.run_take n
  rw [hstate, hinput, hs'] at hsame
  rwa [← Option.some.inj hsame]

/-! ## Fairness -/

variable (e : Forever step)

/-- The party could make a step. -/
def Enabled (Own : ι → Prop) (n : ℕ) : Prop := ∃ i, Own i ∧ (step (e.state n) i).isSome

/-- The party is not kept from its steps. -/
def Fair (Own : ι → Prop) : Prop :=
  ∀ m, (∀ n, m ≤ n → e.Enabled Own n) → ∃ n, m ≤ n ∧ Own (e.input n)

variable {e} {Own : ι → Prop} {P : ℕ → Prop}

/-- **The party makes a step** under a condition that the others keep. -/
theorem Fair.exists_own (h : e.Fair Own) {m : ℕ} (hm : P m)
    (hkept : ∀ n, m ≤ n → P n → ¬ Own (e.input n) → P (n + 1))
    (henabled : ∀ n, m ≤ n → P n → e.Enabled Own n) :
    ∃ n, m ≤ n ∧ P n ∧ Own (e.input n) := by
  by_contra hnever
  have hothers : ∀ n, m ≤ n → P n → ¬ Own (e.input n) :=
    fun n hn hP hown => hnever ⟨n, hn, hP, hown⟩
  have hP : ∀ n, m ≤ n → P n :=
    always_of_next hm fun n hn hP => hkept n hn hP (hothers n hn hP)
  obtain ⟨n, hn, hown⟩ := h m fun n hn => henabled n hn (hP n hn)
  exact hothers n hn (hP n hn) hown

end Forever

end Runs
