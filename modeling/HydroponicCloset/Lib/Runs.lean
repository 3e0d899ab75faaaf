import Mathlib.Data.List.Induction
import Mathlib.Tactic.Common

/-!
# Runs of a machine that may hang

A machine takes a state and an input to the next state, or to `none` when the
step never ends.  `run` feeds it a list of inputs.  `run_invariant` is the rule
for properties of the reached state alone, and `run_history` the one for
properties that relate the reached state to everything the machine was fed;
both ask for one step only.  `run_simulation` carries a run over to an abstract
machine that takes the same inputs, and `never_iff` says when a run keeps out of the
bad states.

A step may also put something out.  `trace` collects the outputs of a run, up to
the input at which it hangs.  `trace_eq_append_iff` says what comes before a given
output, and `forall_trace_iff` turns a statement about all outputs into one about
those of a single step.

A machine may have a part that is a machine of its own: `run_part` and `trace_part` find
the part's run in a run of the whole.
-/

namespace Runs

variable {σ ι : Type*} (step : σ → ι → Option σ)

/-- Feed a list of inputs; `none` if a step hangs. -/
def run (s : σ) : List ι → Option σ
  | [] => some s
  | i :: rest => (step s i).bind fun s' => run s' rest

variable {step}

@[simp] theorem run_nil (s : σ) : run step s [] = some s := rfl

theorem run_cons (s : σ) (i : ι) (rest : List ι) :
    run step s (i :: rest) = (step s i).bind fun s' => run step s' rest := rfl

theorem run_append (s : σ) (first second : List ι) :
    run step s (first ++ second) = (run step s first).bind fun s' => run step s' second := by
  induction first generalizing s with
  | nil => rfl
  | cons i rest ih =>
      rw [List.cons_append, run_cons, run_cons, Option.bind_assoc]
      congr 1
      funext s'
      exact ih s'

theorem run_concat (s : σ) (is : List ι) (i : ι) :
    run step s (is ++ [i]) = (run step s is).bind fun s' => step s' i := by
  rw [run_append]
  congr 1
  funext s'
  simp [run_cons]

theorem run_append_eq_some {s s' : σ} {first second : List ι}
    (h : run step s (first ++ second) = some s') :
    ∃ mid, run step s first = some mid ∧ run step mid second = some s' := by
  rw [run_append] at h
  exact Option.bind_eq_some_iff.mp h

theorem run_cons_eq_some {s s' : σ} {i : ι} {rest : List ι}
    (h : run step s (i :: rest) = some s') :
    ∃ mid, step s i = some mid ∧ run step mid rest = some s' := by
  rw [run_cons] at h
  exact Option.bind_eq_some_iff.mp h

/-- **Invariants.**  What every step preserves holds in every reached state. -/
theorem run_invariant (P : σ → Prop)
    (hstep : ∀ s i s', P s → step s i = some s' → P s')
    {s s' : σ} {is : List ι} (hs : P s) (hrun : run step s is = some s') : P s' := by
  induction is generalizing s with
  | nil =>
      obtain rfl : s = s' := by simpa using hrun
      exact hs
  | cons i rest ih =>
      obtain ⟨mid, hmid, hrest⟩ := run_cons_eq_some hrun
      exact ih (hstep s i mid hs hmid) hrest

/-- **Histories.**  What relates the state to the inputs fed so far, and is
preserved by feeding one more, holds after every run. -/
theorem run_history (R : List ι → σ → Prop) {s₀ : σ} (hinit : R [] s₀)
    (hstep : ∀ is s i s', R is s → step s i = some s' → R (is ++ [i]) s') :
    ∀ {is : List ι} {s : σ}, run step s₀ is = some s → R is s := by
  intro is
  induction is using List.reverseRecOn with
  | nil =>
      intro s hrun
      obtain rfl : s₀ = s := by simpa using hrun
      exact hinit
  | append_singleton is i ih =>
      intro s hrun
      rw [run_concat] at hrun
      obtain ⟨mid, hmid, hlast⟩ := Option.bind_eq_some_iff.mp hrun
      exact hstep is mid i s (ih hmid) hlast

/-- **Simulation.**  If every step of a machine is matched by a step of an
abstract machine on the same input, every run is matched by a run. -/
theorem run_simulation {τ : Type*} {abstractStep : τ → ι → Option τ} (R : σ → τ → Prop)
    (hstep : ∀ s t i s', R s t → step s i = some s' → ∃ t', abstractStep t i = some t' ∧ R s' t')
    {s s' : σ} {t : τ} {is : List ι} (hst : R s t) (hrun : run step s is = some s') :
    ∃ t', run abstractStep t is = some t' ∧ R s' t' := by
  induction is generalizing s t with
  | nil =>
      obtain rfl : s = s' := by simpa using hrun
      exact ⟨t, rfl, hst⟩
  | cons i rest ih =>
      obtain ⟨mid, hmid, hrest⟩ := run_cons_eq_some hrun
      obtain ⟨t₁, ht₁, hmid'⟩ := hstep s t i mid hst hmid
      obtain ⟨t', ht', hend⟩ := ih hmid' hrest
      refine ⟨t', ?_, hend⟩
      rw [run_cons, ht₁]
      exact ht'

/-- **Bad states.**  If whether a step from a good state leads to a bad one can be told
from the inputs, a run stays in good states if and only if it takes no such step. -/
theorem never_iff {Bad : σ → Prop} {Enters : List ι → ι → Prop} {s₀ : σ} (hinit : ¬ Bad s₀)
    (hstep : ∀ is s i s', run step s₀ is = some s → ¬ Bad s → step s i = some s' →
      (Bad s' ↔ Enters is i))
    {s : σ} {is : List ι} (hrun : run step s₀ is = some s) :
    (∀ first s', first <+: is → run step s₀ first = some s' → ¬ Bad s') ↔
      ∀ first i second, is = first ++ i :: second → ¬ Enters first i := by
  constructor
  · intro hgood first i second heq henters
    rw [heq] at hrun
    obtain ⟨mid, hfirst, hrest⟩ := run_append_eq_some hrun
    obtain ⟨mid', hmid, -⟩ := run_cons_eq_some hrest
    have hbefore : first <+: is := ⟨i :: second, heq.symm⟩
    have hafter : first ++ [i] <+: is := ⟨second, by rw [heq, List.append_assoc]; rfl⟩
    have hlast : run step s₀ (first ++ [i]) = some mid' := by
      rw [run_concat, hfirst]
      exact hmid
    have hmidGood := hgood first mid hbefore hfirst
    exact hgood _ mid' hafter hlast
      ((hstep first mid i mid' hfirst hmidGood hmid).mpr henters)
  · intro hnever first
    induction first using List.reverseRecOn with
    | nil =>
        intro s' _ hs'
        obtain rfl : s₀ = s' := by simpa using hs'
        exact hinit
    | append_singleton first i ih =>
        rintro s' ⟨second, heq⟩ hs' hbad
        rw [run_concat] at hs'
        obtain ⟨mid, hfirst, hmid⟩ := Option.bind_eq_some_iff.mp hs'
        rw [List.append_assoc] at heq
        have hmidGood := ih mid ⟨[i] ++ second, heq⟩ hfirst
        exact hnever first i second heq.symm
          ((hstep first mid i s' hfirst hmidGood hmid).mp hbad)

/-! ## Outputs -/

section Trace

variable {ο : Type*} (step) (out : σ → ι → List ο)

/-- What a run puts out. -/
def trace (s : σ) : List ι → List ο
  | [] => []
  | i :: rest => out s i ++ (step s i).elim [] fun s' => trace s' rest

/-- The input is taken in some step of the run: nothing before it hangs. -/
def Handled (s : σ) (is : List ι) (i : ι) : Prop :=
  ∃ pre post mid, is = pre ++ i :: post ∧ run step s pre = some mid

variable {step out}

@[simp] theorem trace_singleton (s : σ) (i : ι) : trace step out s [i] = out s i := by
  cases h : step s i <;> simp [trace, h]

theorem trace_append {s mid : σ} {first second : List ι} (h : run step s first = some mid) :
    trace step out s (first ++ second) = trace step out s first ++ trace step out mid second := by
  induction first generalizing s with
  | nil =>
      obtain rfl : s = mid := by simpa using h
      rfl
  | cons i rest ih =>
      obtain ⟨s', hs', hrest⟩ := run_cons_eq_some h
      calc trace step out s (i :: rest ++ second)
          = out s i ++ trace step out s' (rest ++ second) := by
            rw [List.cons_append, trace, hs', Option.elim_some]
        _ = out s i ++ (trace step out s' rest ++ trace step out mid second) := by rw [ih hrest]
        _ = trace step out s (i :: rest) ++ trace step out mid second := by
            rw [trace, hs', Option.elim_some, List.append_assoc]

/-- A longer run goes on putting out. -/
theorem trace_grows (s : σ) (first second : List ι) :
    trace step out s first <+: trace step out s (first ++ second) := by
  induction first generalizing s with
  | nil => exact List.nil_prefix
  | cons i rest ih =>
      rw [List.cons_append, trace, trace]
      cases step s i with
      | none => exact List.prefix_refl _
      | some s' => exact (List.prefix_append_right_inj _).mpr (ih s')

/-- Where an output stands in the outputs of a run: among those of the step that puts it
out, after all the outputs of the steps before. -/
theorem trace_eq_append_iff {s : σ} {is : List ι} {before : List ο} {o : ο} :
    (∃ after, trace step out s is = before ++ o :: after) ↔
      ∃ pre i post mid b a, is = pre ++ i :: post ∧ run step s pre = some mid ∧
        out mid i = b ++ o :: a ∧ before = trace step out s pre ++ b := by
  constructor
  · rintro ⟨after, htrace⟩
    induction is generalizing s before with
    | nil => simp [trace] at htrace
    | cons j rest ih =>
        rw [trace] at htrace
        -- `o` is put out in a later step, or in this one.
        have hplace : (∃ late, before = out s j ++ late ∧
              ((step s j).elim [] fun s' => trace step out s' rest) = late ++ o :: after) ∨
            ∃ a, out s j = before ++ o :: a := by
          rcases List.append_eq_append_iff.mp htrace with ⟨late, hlate⟩ | ⟨tail, hout, htail⟩
          · exact Or.inl ⟨late, hlate⟩
          · cases tail with
            | nil => exact Or.inl ⟨[], by simpa using hout.symm, htail.symm⟩
            | cons o' a =>
                obtain ⟨rfl, -⟩ := List.cons.inj htail
                exact Or.inr ⟨a, hout⟩
        rcases hplace with ⟨late, rfl, hlate⟩ | ⟨a, hout⟩
        · cases hstep : step s j with
          | none => simp [hstep] at hlate
          | some s' =>
              rw [hstep, Option.elim_some] at hlate
              obtain ⟨pre, i, post, mid, b, a, rfl, hrun, hi, rfl⟩ := ih hlate
              refine ⟨j :: pre, i, post, mid, b, a, rfl, ?_, hi, ?_⟩
              · rw [run_cons, hstep]
                exact hrun
              · rw [trace, hstep, Option.elim_some, List.append_assoc]
        · exact ⟨[], j, rest, s, before, a, rfl, rfl, hout, rfl⟩
  · rintro ⟨pre, i, post, mid, b, a, rfl, hrun, hi, rfl⟩
    refine ⟨a ++ (step mid i).elim [] fun s' => trace step out s' post, ?_⟩
    rw [trace_append hrun, trace, hi]
    simp only [List.append_assoc, List.cons_append]

theorem mem_trace {s : σ} {is : List ι} {o : ο} :
    o ∈ trace step out s is ↔
      ∃ pre i post mid, is = pre ++ i :: post ∧ run step s pre = some mid ∧ o ∈ out mid i := by
  rw [List.mem_iff_append]
  constructor
  · rintro ⟨before, after, htrace⟩
    obtain ⟨pre, i, post, mid, b, a, his, hrun, hi, -⟩ := trace_eq_append_iff.mp ⟨after, htrace⟩
    exact ⟨pre, i, post, mid, his, hrun, by rw [hi]; exact List.mem_append_cons_self⟩
  · rintro ⟨pre, i, post, mid, his, hrun, ho⟩
    obtain ⟨b, a, hi⟩ := List.append_of_mem ho
    exact ⟨_, trace_eq_append_iff.mpr ⟨pre, i, post, mid, b, a, his, hrun, hi, rfl⟩⟩

/-- **Output histories.**  What relates the state to the outputs so far, and is preserved
by a step with its outputs, holds after a run. -/
theorem run_outputs (R : List ο → σ → Prop) {is : List ι}
    (hstep : ∀ os s i s', i ∈ is → R os s → step s i = some s' → R (os ++ out s i) s')
    {s s' : σ} (hinit : R [] s) (hrun : run step s is = some s') :
    R (trace step out s is) s' := by
  have hgeneral : ∀ os s, R os s → run step s is = some s' → R (os ++ trace step out s is) s' := by
    clear hrun
    induction is with
    | nil =>
        intro os s hs hrun
        obtain rfl : s = s' := by simpa using hrun
        simpa [trace] using hs
    | cons i rest ih =>
        intro os s hs hrun
        obtain ⟨mid, hmid, hrest⟩ := run_cons_eq_some hrun
        have hnext := hstep os s i mid (List.mem_cons_self ..) hs hmid
        rw [trace, hmid, Option.elim_some, ← List.append_assoc]
        exact ih (fun os s j s' hj => hstep os s j s' (List.mem_cons_of_mem _ hj)) _ mid hnext
          hrest
  exact hgeneral [] s hinit hrun

/-- What is picked from the outputs of a run that does not hang, if it depends on the
inputs alone. -/
theorem filterMap_trace {β : Type*} {f : ο → Option β} {pick : ι → List β}
    (hstep : ∀ s i, (out s i).filterMap f = pick i) {s s' : σ} {is : List ι}
    (hrun : run step s is = some s') : (trace step out s is).filterMap f = is.flatMap pick := by
  induction is generalizing s with
  | nil => rfl
  | cons i rest ih =>
      obtain ⟨mid, hmid, hrest⟩ := run_cons_eq_some hrun
      rw [trace, List.filterMap_append, hstep, hmid, Option.elim_some, ih hrest,
        List.flatMap_cons]

/-- **Outputs.**  If whether all outputs of a step have a property depends on its
input alone, the outputs of a run have it if and only if every input handled
does its part. -/
theorem forall_trace_iff {P : ο → Prop} {Q : ι → Prop}
    (hstep : ∀ s i, (∀ o ∈ out s i, P o) ↔ Q i) (s : σ) (is : List ι) :
    (∀ o ∈ trace step out s is, P o) ↔ ∀ i, Handled step s is i → Q i := by
  constructor
  · rintro h i ⟨pre, post, mid, rfl, hrun⟩
    exact (hstep mid i).mp fun o ho => h o (mem_trace.mpr ⟨pre, i, post, mid, rfl, hrun, ho⟩)
  · intro h o ho
    obtain ⟨pre, i, post, mid, rfl, hrun, ho⟩ := mem_trace.mp ho
    exact (hstep mid i).mpr (h i ⟨pre, post, mid, rfl, hrun⟩) o ho

end Trace

/-! ## A part of a machine -/

section Part

variable {τ κ : Type*} {partStep : τ → κ → Option τ} {part : σ → τ} {events : σ → ι → List κ}

/-- **The part's run.**  If a step is, for a part of the state, a run of the part's own
machine over some events, a run is one over all these events. -/
theorem run_part (hstep : ∀ s i s', step s i = some s' →
      run partStep (part s) (events s i) = some (part s'))
    {s s' : σ} {is : List ι} (hrun : run step s is = some s') :
    run partStep (part s) (trace step events s is) = some (part s') := by
  induction is generalizing s with
  | nil =>
      obtain rfl : s = s' := by simpa using hrun
      rfl
  | cons i rest ih =>
      obtain ⟨mid, hmid, hrest⟩ := run_cons_eq_some hrun
      rw [trace, hmid, Option.elim_some, run_append, hstep s i mid hmid]
      exact ih hrest

/-- What the part puts out in that run. -/
theorem trace_part {ο : Type*} {partOut : τ → κ → List ο} {out : σ → ι → List ο}
    (hstep : ∀ s i s', step s i = some s' →
      run partStep (part s) (events s i) = some (part s'))
    (hout : ∀ s i, trace partStep partOut (part s) (events s i) = out s i)
    {s s' : σ} {is : List ι} (hrun : run step s is = some s') :
    trace partStep partOut (part s) (trace step events s is) = trace step out s is := by
  induction is generalizing s with
  | nil => rfl
  | cons i rest ih =>
      obtain ⟨mid, hmid, hrest⟩ := run_cons_eq_some hrun
      calc trace partStep partOut (part s) (trace step events s (i :: rest))
          = trace partStep partOut (part s) (events s i ++ trace step events mid rest) := by
            rw [trace, hmid, Option.elim_some]
        _ = trace partStep partOut (part s) (events s i) ++
              trace partStep partOut (part mid) (trace step events mid rest) :=
            trace_append (hstep s i mid hmid)
        _ = out s i ++ trace step out mid rest := by rw [hout, ih hrest]
        _ = trace step out s (i :: rest) := by rw [trace, hmid, Option.elim_some]

end Part

/-! ## Outputs that change a second state -/

section Throughout

variable {ο τ : Type*} (apply : τ → ο → τ) (P : τ → Prop)

/-- From any state with the property, it holds after each of the changes. -/
def Throughout (os : List ο) : Prop := ∀ t, P t → ∀ first, first <+: os → P (first.foldl apply t)

variable {apply P}

theorem throughout_nil : Throughout apply P [] := by
  intro t ht first hfirst
  rw [List.prefix_nil.mp hfirst]
  exact ht

theorem Throughout.append {first second : List ο} (h : Throughout apply P first)
    (h' : Throughout apply P second) : Throughout apply P (first ++ second) := by
  intro t ht os hos
  rcases List.prefix_or_prefix_of_prefix hos (List.prefix_append first second) with
    hinside | ⟨rest, rfl⟩
  · exact h t ht os hinside
  · rw [List.foldl_append]
    exact h' _ (h t ht first (List.prefix_refl first)) rest
      ((List.prefix_append_right_inj first).mp hos)

/-- What the outputs of every step keep is kept throughout a run. -/
theorem throughout_trace {out : σ → ι → List ο} (hout : ∀ s i, Throughout apply P (out s i))
    (s : σ) (is : List ι) : Throughout apply P (trace step out s is) := by
  induction is generalizing s with
  | nil => exact throughout_nil
  | cons i rest ih =>
      rw [trace]
      apply (hout s i).append
      cases step s i with
      | none => exact throughout_nil
      | some s' => exact ih s'

end Throughout

end Runs
