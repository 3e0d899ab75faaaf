import HydroponicCloset.Lib.Fair
import HydroponicCloset.Lib.Fifo

/-!
# A bounded queue that is served

`Fifo.drained` needs rounds in which no writer makes a call.  If the calls never stop,
everything still comes out, as long as the reader goes on taking entries and no writer
only ever tries while the queue is full.

An entry in the queue comes nearer to the front with each take (`Served.comes_out`).  An
entry that waits gets into the queue, as there is room after a take (`Served.gets_in`).  So
by some time everything has come out that was put in before (`Served.eventually_taken`).

`served_of_machine` and `eventually_out` are the rules for a machine that the queue is a part
of.
-/

namespace Fifo

open Runs

variable {π α : Type*} [DecidableEq π] {capacity : ℕ} {state : ℕ → State π α}
  {event? : ℕ → Option (Event π α)} {p : π}

/-- The queue at each time, and what happens to it next, if anything does. -/
structure Served (capacity : ℕ) (state : ℕ → State π α) (event? : ℕ → Option (Event π α)) :
    Prop where
  next : ∀ n, (event? n).elim (some (state n)) ((state n).step capacity) = some (state (n + 1))
  bound : ∀ n, (state n).queue.length ≤ capacity
  takes : ∀ m, ∃ n, m ≤ n ∧ event? n = some .take
  puts : ∀ p, (∀ m, ∃ n, m ≤ n ∧ (state n).queue.length < capacity) →
    ∀ m, ∃ n, m ≤ n ∧ (state n).queue.length < capacity ∧ event? n = some (.put p)

namespace Served

theorem step (h : Served capacity state event?) {n : ℕ} {event : Event π α}
    (hevent : event? n = some event) : (state n).step capacity event = some (state (n + 1)) := by
  have hnext := h.next n
  rwa [hevent] at hnext

theorem same (h : Served capacity state event?) {n : ℕ} (hevent : event? n = none) :
    state (n + 1) = state n := by
  have hnext := h.next n
  rw [hevent] at hnext
  exact (Option.some.inj hnext).symm

theorem take (h : Served capacity state event?) {n : ℕ} (hevent : event? n = some .take) :
    (state (n + 1)).queue = (state n).queue.tail := by
  rw [← Option.some.inj (h.step hevent)]

/-- What is in the queue stays at its front until the next take. -/
theorem queue_kept (h : Served capacity state event?) {n : ℕ} (hevent : event? n ≠ some .take) :
    (state n).queue <+: (state (n + 1)).queue := by
  cases hcase : event? n with
  | none => rw [h.same hcase]
  | some event =>
      have hqueue := step_queue (h.step hcase)
      cases event with
      | call q entries => exact hqueue
      | put q => exact hqueue
      | take => exact absurd hcase hevent

/-- A writer goes on waiting until it tries while there is room. -/
theorem waiting_kept (h : Served capacity state event?) {n : ℕ}
    (hwaiting : (state n).waiting p ≠ [])
    (hnot : ¬ ((state n).queue.length < capacity ∧ event? n = some (.put p))) :
    (state (n + 1)).waiting p ≠ [] := by
  cases hcase : event? n with
  | none => rwa [h.same hcase]
  | some event =>
      have hstep := h.step hcase
      generalize state (n + 1) = s' at hstep ⊢
      cases event with
      | call q entries =>
          rw [State.step] at hstep
          split_ifs at hstep with hidle
          obtain rfl := Option.some.inj hstep
          have hq : p ≠ q := by
            rintro rfl
            exact hwaiting hidle
          dsimp only
          rwa [Function.update_of_ne hq]
      | put q =>
          obtain rfl := Option.some.inj hstep
          have hput := put_cases capacity (state n) q
          generalize (state n).put capacity q = s' at hput ⊢
          cases hput with
          | idle | full => exact hwaiting
          | done entry rest _ hroom =>
              have hq : p ≠ q := by
                rintro rfl
                exact hnot ⟨hroom, hcase⟩
              dsimp only
              rwa [Function.update_of_ne hq]
      | take =>
          obtain rfl := Option.some.inj hstep
          exact hwaiting

/-- The next take finds at the front what is at the front now. -/
theorem next_take (h : Served capacity state event?) (m : ℕ) :
    ∃ n, m ≤ n ∧ (state m).queue <+: (state n).queue ∧ event? n = some .take :=
  exists_until (List.prefix_refl _)
    (fun _ _ hkept hevent => hkept.trans (h.queue_kept hevent)) (h.takes m)

/-- **An entry in the queue comes out.** -/
theorem comes_out (h : Served capacity state event?) {entry : π × α} {k : ℕ} :
    ∀ m, (state m).queue[k]? = some entry →
      ∃ n, m ≤ n ∧ event? n = some .take ∧ (state n).queue.head? = some entry := by
  induction k with
  | zero =>
      intro m hentry
      obtain ⟨n, hn, ⟨rest, hkept⟩, htake⟩ := h.next_take m
      refine ⟨n, hn, htake, ?_⟩
      rw [← hkept, List.head?_eq_getElem?, List.getElem?_append_left, hentry]
      exact (List.getElem?_eq_some_iff.mp hentry).1
  | succ k ih =>
      intro m hentry
      obtain ⟨n, hn, ⟨rest, hkept⟩, htake⟩ := h.next_take m
      have hnearer : (state (n + 1)).queue[k]? = some entry := by
        rw [h.take htake, List.getElem?_tail, ← hkept, List.getElem?_append_left, hentry]
        exact (List.getElem?_eq_some_iff.mp hentry).1
      obtain ⟨n', hn', hout⟩ := ih (n + 1) hnearer
      exact ⟨n', by omega, hout⟩

/-- There is room again and again: after each take. -/
theorem room (h : Served capacity state event?) (hcapacity : 0 < capacity) (m : ℕ) :
    ∃ n, m ≤ n ∧ (state n).queue.length < capacity := by
  obtain ⟨n, hn, htake⟩ := h.takes m
  refine ⟨n + 1, by omega, ?_⟩
  have hbound := h.bound n
  rw [h.take htake, List.length_tail]
  omega

/-- **An entry that waits gets in.** -/
theorem gets_in (h : Served capacity state event?) (hcapacity : 0 < capacity) {m : ℕ}
    (hwaiting : (state m).waiting p ≠ []) : ∃ n, m ≤ n ∧ ∃ entry, (p, entry) ∈ (state n).queue := by
  obtain ⟨n, hn, hwaits, hroom, hput⟩ := exists_until (m := m)
    (P := fun n => (state n).waiting p ≠ []) hwaiting
    (fun _ _ hwaits hnot => h.waiting_kept hwaits hnot) (h.puts p (h.room hcapacity) m)
  have hstep := Option.some.inj (h.step hput)
  have htry := put_cases capacity (state n) p
  rw [hstep] at htry
  refine ⟨n + 1, by omega, ?_⟩
  generalize state (n + 1) = s' at htry ⊢
  cases htry with
  | idle hidle => exact absurd hidle hwaits
  | full hfull => omega
  | done entry rest => exact ⟨entry, List.mem_append_right _ (List.mem_singleton.mpr rfl)⟩

/-- **Everything comes out**: as long as a writer has anything left, one of its entries is
taken at some time. -/
theorem exists_taken (h : Served capacity state event?) (hcapacity : 0 < capacity) {m : ℕ}
    (hleft : (state m).left p ≠ []) :
    ∃ n, m ≤ n ∧ event? n = some .take ∧ ∃ entry, (state n).queue.head? = some (p, entry) := by
  have hqueued : ∃ n, m ≤ n ∧ ∃ entry, (p, entry) ∈ (state n).queue := by
    by_cases hwaiting : (state m).waiting p = []
    · rw [State.left, hwaiting, List.append_nil] at hleft
      obtain ⟨entry, hentry⟩ := List.exists_mem_of_ne_nil _ hleft
      obtain ⟨e, he, hown⟩ := List.mem_filterMap.mp hentry
      split_ifs at hown with hp
      exact ⟨m, le_refl m, e.2, by rwa [← hp]⟩
    · exact h.gets_in hcapacity hwaiting
  obtain ⟨n, hn, entry, hentry⟩ := hqueued
  obtain ⟨k, hk⟩ := List.mem_iff_getElem?.mp hentry
  obtain ⟨n', hn', htake, hhead⟩ := h.comes_out n hk
  exact ⟨n', by omega, htake, entry, hhead⟩

/-- Without calls a writer has less and less to wait with. -/
theorem waiting_length_le (h : Served capacity state event?) {n : ℕ}
    (hquiet : ∀ entries, event? n ≠ some (.call p entries)) :
    ((state (n + 1)).waiting p).length ≤ ((state n).waiting p).length := by
  cases hevent : event? n with
  | none => rw [h.same hevent]
  | some event =>
      have hstep := h.step hevent
      generalize state (n + 1) = s' at hstep ⊢
      cases event with
      | call q entries =>
          have hq : p ≠ q := by
            rintro rfl
            exact hquiet entries hevent
          rw [State.step] at hstep
          split_ifs at hstep
          obtain rfl := Option.some.inj hstep
          dsimp only
          rw [Function.update_of_ne hq]
      | put q =>
          obtain rfl := Option.some.inj hstep
          have hput := put_cases capacity (state n) q
          generalize (state n).put capacity q = s' at hput ⊢
          cases hput with
          | idle | full => exact le_refl _
          | done entry rest hwaiting =>
              by_cases hq : p = q
              · subst hq
                dsimp only
                rw [Function.update_self, hwaiting, List.length_cons]
                exact Nat.le_succ _
              · dsimp only
                rw [Function.update_of_ne hq]
      | take =>
          obtain rfl := Option.some.inj hstep
          exact le_refl _

/-- **A writer that makes no calls gets done.** -/
theorem gets_done (h : Served capacity state event?) (hcapacity : 0 < capacity) {k : ℕ} :
    ∀ m, ((state m).waiting p).length ≤ k →
      (∀ n, m ≤ n → ∀ entries, event? n ≠ some (.call p entries)) →
        ∃ n, m ≤ n ∧ ∀ n', n ≤ n' → (state n').waiting p = [] := by
  induction k with
  | zero =>
      intro m hm hquiet
      refine ⟨m, le_refl m, fun n hn => List.eq_nil_of_length_eq_zero (Nat.le_zero.mp ?_)⟩
      exact always_of_next (P := fun n => ((state n).waiting p).length ≤ 0) hm
        (fun n hn hlength => (h.waiting_length_le (hquiet n hn)).trans hlength) n hn
  | succ k ih =>
      intro m hm hquiet
      have hbound : ∀ n, m ≤ n → ((state n).waiting p).length ≤ k + 1 :=
        always_of_next hm fun n hn hlength => (h.waiting_length_le (hquiet n hn)).trans hlength
      obtain ⟨n, hn, hroom, hput⟩ := h.puts p (h.room hcapacity) m
      have hshorter : ((state (n + 1)).waiting p).length ≤ k := by
        have hstep := Option.some.inj (h.step hput)
        have htry := put_cases capacity (state n) p
        have hlength := hbound n hn
        rw [hstep] at htry
        generalize state (n + 1) = s' at htry ⊢
        cases htry with
        | idle hidle =>
            rw [hidle]
            exact Nat.zero_le k
        | full hfull => omega
        | done entry rest hwaiting =>
            rw [hwaiting, List.length_cons] at hlength
            dsimp only
            rw [Function.update_self]
            omega
      obtain ⟨n', hn', hdone⟩ := ih (n + 1) hshorter fun j hj => hquiet j (by omega)
      exact ⟨n', by omega, hdone⟩

/-! ## What has come out by some time -/

variable (state event?) (p) in
/-- What has come out of a writer's entries before some time. -/
def takenBefore (n : ℕ) : List α :=
  ofWriter p ((List.range n).flatMap fun k => (event? k).elim [] (state k).taken)

variable (event?) (p) in
/-- What a writer's calls before some time were made with. -/
def calledBefore (n : ℕ) : List α := called p ((List.range n).filterMap event?)

theorem takenBefore_succ (n : ℕ) :
    takenBefore state event? p (n + 1) =
      takenBefore state event? p n ++ ofWriter p ((event? n).elim [] (state n).taken) := by
  rw [takenBefore, List.range_succ, List.flatMap_append, ofWriter_append, List.flatMap_singleton]
  rfl

omit [DecidableEq π] in
theorem filterMap_singleton (n : ℕ) : [n].filterMap event? = (event? n).toList := by
  cases hevent : event? n <;> simp [hevent]

theorem calledBefore_succ (n : ℕ) :
    calledBefore event? p (n + 1) = calledBefore event? p n ++ called p (event? n).toList := by
  rw [calledBefore, List.range_succ, List.filterMap_append, called_append, filterMap_singleton]
  rfl

theorem takenBefore_mono {m n : ℕ} (hmn : m ≤ n) :
    takenBefore state event? p m <+: takenBefore state event? p n := by
  refine always_of_next (P := fun n => takenBefore state event? p m <+:
    takenBefore state event? p n) (List.prefix_refl _) (fun n _ hprefix => ?_) n hmn
  rw [takenBefore_succ]
  exact hprefix.trans (List.prefix_append _ _)

theorem calledBefore_mono {m n : ℕ} (hmn : m ≤ n) :
    calledBefore event? p m <+: calledBefore event? p n := by
  refine always_of_next (P := fun n => calledBefore event? p m <+: calledBefore event? p n)
    (List.prefix_refl _) (fun n _ hprefix => ?_) n hmn
  rw [calledBefore_succ]
  exact hprefix.trans (List.prefix_append _ _)

/-- Nothing is lost by any time. -/
theorem conserved_before (h : Served capacity state event?) (p : π) (n : ℕ) :
    takenBefore state event? p n ++ (state n).left p =
      (state 0).left p ++ calledBefore event? p n := by
  induction n with
  | zero => simp [takenBefore, calledBefore]
  | succ n ih =>
      rw [takenBefore_succ, calledBefore_succ, ← List.append_assoc, ← ih, List.append_assoc,
        List.append_assoc]
      congr 1
      cases hevent : event? n with
      | none => simp [h.same hevent]
      | some event => exact step_left p (h.step hevent)

/-- As long as less has come out than the calls were made with, one more entry comes out. -/
theorem exists_taken_more (h : Served capacity state event?) (hcapacity : 0 < capacity) {n : ℕ}
    (hless : (takenBefore state event? p n).length <
      ((state 0).left p ++ calledBefore event? p n).length) :
    ∃ n', n ≤ n' ∧
      (takenBefore state event? p n).length < (takenBefore state event? p n').length := by
  have hconserved := h.conserved_before p n
  have hleft : (state n).left p ≠ [] := by
    intro hnone
    rw [hnone, List.append_nil] at hconserved
    rw [hconserved] at hless
    exact lt_irrefl _ hless
  obtain ⟨k, hk, htake, entry, hhead⟩ := h.exists_taken hcapacity hleft
  refine ⟨k + 1, by omega, ?_⟩
  have hlonger : (takenBefore state event? p n).length ≤ (takenBefore state event? p k).length :=
    (takenBefore_mono hk).length_le
  have hone : ofWriter p ((event? k).elim [] (state k).taken) = [entry] := by
    rw [htake, Option.elim_some, State.taken, hhead, Option.toList_some, ofWriter_singleton,
      if_pos rfl]
  rw [takenBefore_succ, hone, List.length_append, List.length_singleton]
  omega

/-- **By some time everything has come out** that a writer had left at first, or made a call
with before a given time, in its order. -/
theorem eventually_taken (h : Served capacity state event?) (hcapacity : 0 < capacity) (p : π)
    (m : ℕ) :
    ∃ n, m ≤ n ∧
      (state 0).left p ++ calledBefore event? p m <+: takenBefore state event? p n := by
  -- by induction on how much has come out
  have hmore : ∀ k, k ≤ ((state 0).left p ++ calledBefore event? p m).length →
      ∃ n, m ≤ n ∧ k ≤ (takenBefore state event? p n).length := by
    intro k
    induction k with
    | zero => exact fun _ => ⟨m, le_refl m, Nat.zero_le _⟩
    | succ k ih =>
        intro hk
        obtain ⟨n, hn, htaken⟩ := ih (by omega)
        rcases Nat.eq_or_lt_of_le htaken with heq | hlt
        · have hcalled : (calledBefore event? p m).length ≤ (calledBefore event? p n).length :=
            (calledBefore_mono hn).length_le
          have hless : (takenBefore state event? p n).length <
              ((state 0).left p ++ calledBefore event? p n).length := by
            rw [List.length_append] at hk ⊢
            omega
          obtain ⟨n', hn', hlonger⟩ := h.exists_taken_more hcapacity hless
          exact ⟨n', by omega, by omega⟩
        · exact ⟨n, hn, hlt⟩
  obtain ⟨n, hn, hlength⟩ := hmore _ (le_refl _)
  have htaken : takenBefore state event? p n <+: (state 0).left p ++ calledBefore event? p n := by
    rw [← h.conserved_before p n]
    exact List.prefix_append _ _
  have hcalled : (state 0).left p ++ calledBefore event? p m <+:
      (state 0).left p ++ calledBefore event? p n :=
    (List.prefix_append_right_inj _).mpr (calledBefore_mono hn)
  exact ⟨n, hn, List.prefix_of_prefix_length_le hcalled htaken hlength⟩

end Served

/-! ## The queue of a machine -/

section Machine

variable {σ ι : Type*} {step : σ → ι → Option σ} {part : σ → State π α}
  {events : σ → ι → List (Event π α)} {out : σ → ι → List (π × α)} {e : Forever step}

variable (part e) in
/-- The queue in an infinite run of a machine that it is a part of. -/
def partAt (n : ℕ) : State π α := part (e.state n)

variable (events e) in
/-- What happens to the queue, if a step of the machine is at most one event for it. -/
def eventAt? (n : ℕ) : Option (Event π α) := (events (e.state n) (e.input n)).head?

omit [DecidableEq π] in
theorem events_eq (hone : ∀ s i, (events s i).length ≤ 1) (n : ℕ) :
    events (e.state n) (e.input n) = (eventAt? events e n).toList := by
  have hlength := hone (e.state n) (e.input n)
  rw [eventAt?]
  generalize events (e.state n) (e.input n) = es at hlength ⊢
  cases es with
  | nil => rfl
  | cons event rest =>
      obtain rfl : rest = [] := by simpa using hlength
      rfl

omit [DecidableEq π] in
theorem eventAt?_of_events {n : ℕ} {event : Event π α}
    (h : events (e.state n) (e.input n) = [event]) : eventAt? events e n = some event := by
  rw [eventAt?, h]
  rfl

/-- The queue of a machine is served. -/
theorem served_of_machine (hone : ∀ s i, (events s i).length ≤ 1)
    (hpart : ∀ s i s', step s i = some s' →
      run (State.step capacity) (part s) (events s i) = some (part s'))
    (hbound : ∀ n, (part (e.state n)).queue.length ≤ capacity)
    (htakes : ∀ m, ∃ n, m ≤ n ∧ events (e.state n) (e.input n) = [.take])
    (hputs : ∀ p, (∀ m, ∃ n, m ≤ n ∧ (part (e.state n)).queue.length < capacity) →
      ∀ m, ∃ n, m ≤ n ∧ (part (e.state n)).queue.length < capacity ∧
        events (e.state n) (e.input n) = [.put p]) :
    Served capacity (partAt part e) (eventAt? events e) where
  next := by
    intro n
    have hstep := hpart _ _ _ (e.next n)
    rw [events_eq hone] at hstep
    cases hevent : eventAt? events e n with
    | none => simpa [hevent, partAt] using hstep
    | some event => simpa [hevent, run_cons, partAt] using hstep
  bound := hbound
  takes := by
    intro m
    obtain ⟨n, hn, htake⟩ := htakes m
    exact ⟨n, hn, eventAt?_of_events htake⟩
  puts := by
    intro p hroom m
    obtain ⟨n, hn, hfree, hput⟩ := hputs p hroom m
    exact ⟨n, hn, hfree, eventAt?_of_events hput⟩

/-- What the machine makes calls with, in the terms of the queue. -/
theorem called_run (hone : ∀ s i, (events s i).length ≤ 1) (p : π) (n : ℕ) :
    called p (trace step events (e.state 0) ((List.range n).map e.input)) =
      Served.calledBefore (eventAt? events e) p n := by
  induction n with
  | zero => rfl
  | succ n ih =>
      rw [List.range_succ, List.map_append, trace_append (e.run_take n), List.map_singleton,
        trace_singleton, called_append, ih, events_eq hone, Served.calledBefore_succ]

/-- What the machine puts out, in the terms of the queue. -/
theorem taken_run (hone : ∀ s i, (events s i).length ≤ 1)
    (hout : ∀ s i, trace (State.step capacity) State.taken (part s) (events s i) = out s i)
    (p : π) (n : ℕ) :
    ofWriter p (trace step out (e.state 0) ((List.range n).map e.input)) =
      Served.takenBefore (partAt part e) (eventAt? events e) p n := by
  induction n with
  | zero => rfl
  | succ n ih =>
      have htaken : out (e.state n) (e.input n) =
          (eventAt? events e n).elim [] (partAt part e n).taken := by
        rw [← hout, events_eq hone]
        cases eventAt? events e n with
        | none => rfl
        | some event => exact trace_singleton _ _
      rw [List.range_succ, List.map_append, trace_append (e.run_take n), List.map_singleton,
        trace_singleton, ofWriter_append, ih, htaken, Served.takenBefore_succ]

/-- **By some time the machine has put out** what a writer had left at first, and what it made
calls with before a given time. -/
theorem eventually_out (h : Served capacity (partAt part e) (eventAt? events e))
    (hcapacity : 0 < capacity) (hone : ∀ s i, (events s i).length ≤ 1)
    (hout : ∀ s i, trace (State.step capacity) State.taken (part s) (events s i) = out s i)
    (p : π) (m : ℕ) :
    ∃ n, m ≤ n ∧
      (part (e.state 0)).left p ++
          called p (trace step events (e.state 0) ((List.range m).map e.input)) <+:
        ofWriter p (trace step out (e.state 0) ((List.range n).map e.input)) := by
  obtain ⟨n, hn, htaken⟩ := h.eventually_taken hcapacity p m
  refine ⟨n, hn, ?_⟩
  rw [called_run hone, taken_run hone hout]
  exact htaken

end Machine

end Fifo
