import HydroponicCloset.Lib.Runs
import Mathlib.Algebra.BigOperators.Group.Finset.Basic
import Mathlib.Algebra.Order.BigOperators.Group.Finset

/-!
# A bounded queue with waiting writers

Some writers share a queue of `capacity` entries with one reader.  A writer makes a
call with a list of entries and puts them in one at a time; while the queue is full
it tries again, and it makes no other call until all of them are in.  The reader
takes the entry at the front.  Calls, tries and takes come in any order.

* `run_length_le`: the queue stays within its capacity;
* `conserved`: what a writer has put in comes out in its order, nothing is lost and
  nothing comes out twice;
* `taken_take`: what is in the queue comes out before anything else, one entry for
  each take;
* `drained`: if every writer tries and the reader takes, again and again, everything
  comes out.
-/

namespace Fifo

open Runs

variable {π α : Type*}

/-- What each writer has still to put in, and the entries of the queue with their
writers. -/
structure State (π α : Type*) where
  waiting : π → List α
  queue : List (π × α)

/-- A writer has new entries to put in, tries to put one in, or the queue's first entry is
taken out. -/
inductive Event (π α : Type*)
  | call (p : π) (entries : List α)
  | put (p : π)
  | take

/-- The entries of one writer. -/
def ofWriter [DecidableEq π] (p : π) (entries : List (π × α)) : List α :=
  entries.filterMap fun e => if e.1 = p then some e.2 else none

variable [DecidableEq π] (capacity : ℕ)

namespace State

/-- Nothing is queued, and nobody waits. -/
def empty : State π α := ⟨fun _ => [], []⟩

/-- A try to put an entry in. -/
def put (s : State π α) (p : π) : State π α :=
  match s.waiting p with
  | [] => s
  | entry :: rest =>
      if s.queue.length < capacity then
        ⟨Function.update s.waiting p rest, s.queue ++ [(p, entry)]⟩
      else s

/-- One event; a writer that is waiting makes no call. -/
def step (s : State π α) : Event π α → Option (State π α)
  | .call p entries =>
      if s.waiting p = [] then some { s with waiting := Function.update s.waiting p entries }
      else none
  | .put p => some (s.put capacity p)
  | .take => some { s with queue := s.queue.tail }

/-- The entry that comes out. -/
def taken (s : State π α) : Event π α → List (π × α)
  | .take => s.queue.head?.toList
  | _ => []

end State

open State

/-- The entries that a writer made calls with. -/
def called (p : π) (events : List (Event π α)) : List α :=
  events.flatMap fun
    | .call q entries => if q = p then entries else []
    | _ => []

/-- The number of takes. -/
def takes (events : List (Event π α)) : ℕ :=
  events.countP fun
    | .take => true
    | _ => false

section Entries

variable (p : π)

@[simp] theorem ofWriter_nil : ofWriter p ([] : List (π × α)) = [] := rfl

@[simp] theorem ofWriter_append (first second : List (π × α)) :
    ofWriter p (first ++ second) = ofWriter p first ++ ofWriter p second :=
  List.filterMap_append

theorem ofWriter_singleton (q : π) (entry : α) :
    ofWriter p [(q, entry)] = if q = p then [entry] else [] := by
  by_cases h : q = p <;> simp [ofWriter, h]

@[simp] theorem called_nil : called p ([] : List (Event π α)) = [] := rfl

theorem called_cons (e : Event π α) (rest : List (Event π α)) :
    called p (e :: rest) = called p [e] ++ called p rest := by
  simp [called]

@[simp] theorem called_append (first second : List (Event π α)) :
    called p (first ++ second) = called p first ++ called p second :=
  List.flatMap_append

end Entries

variable {capacity} {s s' : State π α} {events : List (Event π α)}

/-! ## What a try does -/

/-- A try puts the first waiting entry in, or changes nothing. -/
inductive Put (capacity : ℕ) (s : State π α) (p : π) : State π α → Prop
  | idle (h : s.waiting p = []) : Put capacity s p s
  | full (h : capacity ≤ s.queue.length) : Put capacity s p s
  | done (entry : α) (rest : List α) (h : s.waiting p = entry :: rest)
      (hroom : s.queue.length < capacity) :
      Put capacity s p ⟨Function.update s.waiting p rest, s.queue ++ [(p, entry)]⟩

theorem put_cases (capacity : ℕ) (s : State π α) (p : π) :
    Put capacity s p (s.put capacity p) := by
  cases hwaiting : s.waiting p with
  | nil =>
      have hsame : s.put capacity p = s := by rw [State.put, hwaiting]
      rw [hsame]
      exact .idle hwaiting
  | cons entry rest =>
      by_cases hroom : s.queue.length < capacity
      · have hdone : s.put capacity p =
            ⟨Function.update s.waiting p rest, s.queue ++ [(p, entry)]⟩ := by
          rw [State.put, hwaiting]
          exact if_pos hroom
        rw [hdone]
        exact .done entry rest hwaiting hroom
      · have hsame : s.put capacity p = s := by
          rw [State.put, hwaiting]
          exact if_neg hroom
        rw [hsame]
        exact .full (Nat.le_of_not_lt hroom)

/-! ## The capacity -/

theorem step_length_le {e : Event π α} (h : s.queue.length ≤ capacity)
    (hstep : s.step capacity e = some s') : s'.queue.length ≤ capacity := by
  cases e with
  | call p entries =>
      rw [State.step] at hstep
      split_ifs at hstep
      obtain rfl := Option.some.inj hstep
      exact h
  | put p =>
      obtain rfl := Option.some.inj hstep
      have hput := put_cases capacity s p
      generalize s.put capacity p = s' at hput ⊢
      cases hput with
      | idle => exact h
      | full => exact h
      | done entry rest _ hroom =>
          rw [List.length_append, List.length_singleton]
          exact hroom
  | take =>
      obtain rfl := Option.some.inj hstep
      rw [List.length_tail]
      omega

/-- **The queue** stays within its capacity. -/
theorem run_length_le (h : s.queue.length ≤ capacity)
    (hrun : run (State.step capacity) s events = some s') : s'.queue.length ≤ capacity :=
  run_invariant (fun s => s.queue.length ≤ capacity) (fun _ _ _ h hstep => step_length_le h hstep)
    h hrun

/-! ## Conservation -/

/-- What is in the queue of a writer, and then what it is waiting with. -/
def State.left (s : State π α) (p : π) : List α := ofWriter p s.queue ++ s.waiting p

/-- **One event** takes from the front of what a writer has left, and a call adds to its
end. -/
theorem step_left {e : Event π α} (p : π) (hstep : s.step capacity e = some s') :
    ofWriter p (s.taken e) ++ s'.left p = s.left p ++ called p [e] := by
  cases e with
  | call q entries =>
      rw [State.step] at hstep
      split_ifs at hstep with hidle
      obtain rfl := Option.some.inj hstep
      by_cases hq : q = p
      · subst hq
        simp [State.left, State.taken, called, hidle]
      · simp [State.left, State.taken, called, hq, Function.update_of_ne (Ne.symm hq)]
  | put q =>
      obtain rfl := Option.some.inj hstep
      have hput := put_cases capacity s q
      generalize s.put capacity q = s' at hput ⊢
      cases hput with
      | idle => simp [State.taken, called]
      | full => simp [State.taken, called]
      | done entry rest h _ =>
          by_cases hq : q = p
          · subst hq
            simp [State.left, State.taken, called, h, ofWriter_singleton]
          · simp [State.left, State.taken, called, hq, ofWriter_singleton,
              Function.update_of_ne (Ne.symm hq)]
  | take =>
      obtain rfl := Option.some.inj hstep
      cases hqueue : s.queue with
      | nil => simp [State.left, State.taken, called, hqueue]
      | cons first rest =>
          have hsplit : ofWriter p (first :: rest) = ofWriter p [first] ++ ofWriter p rest :=
            ofWriter_append p [first] rest
          simp [State.left, State.taken, called, hqueue, hsplit]

/-- **Nothing is lost**, and nothing comes out twice or out of order. -/
theorem conserved (p : π) (hrun : run (State.step capacity) s events = some s') :
    ofWriter p (trace (State.step capacity) State.taken s events) ++ s'.left p =
      s.left p ++ called p events := by
  induction events generalizing s with
  | nil =>
      obtain rfl : s = s' := by simpa using hrun
      simp [trace]
  | cons e rest ih =>
      obtain ⟨mid, hmid, hrest⟩ := run_cons_eq_some hrun
      have hstep := step_left p hmid
      calc ofWriter p (trace (State.step capacity) State.taken s (e :: rest)) ++ s'.left p
          = ofWriter p (s.taken e) ++
              (ofWriter p (trace (State.step capacity) State.taken mid rest) ++ s'.left p) := by
            rw [trace, hmid, Option.elim_some, ofWriter_append, List.append_assoc]
        _ = ofWriter p (s.taken e) ++ mid.left p ++ called p rest := by
            rw [ih hrest, List.append_assoc]
        _ = s.left p ++ called p (e :: rest) := by
            rw [hstep, called_cons p e rest, List.append_assoc]

/-! ## The order of the queue -/

/-- An event leaves what is in the queue where it is, but for the entry it takes. -/
theorem step_queue {e : Event π α} (hstep : s.step capacity e = some s') :
    s.queue.drop (takes [e]) <+: s'.queue := by
  cases e with
  | call q entries =>
      rw [State.step] at hstep
      split_ifs at hstep
      obtain rfl := Option.some.inj hstep
      exact List.prefix_refl _
  | put q =>
      obtain rfl := Option.some.inj hstep
      have hput := put_cases capacity s q
      generalize s.put capacity q = s' at hput ⊢
      cases hput with
      | idle => exact List.prefix_refl _
      | full => exact List.prefix_refl _
      | done entry rest => exact List.prefix_append _ _
  | take =>
      obtain rfl := Option.some.inj hstep
      rw [← List.drop_one]
      exact List.prefix_refl _

/-- **First in, first out**: of what is in the queue, each take takes one entry, from the
front. -/
theorem taken_take (hrun : run (State.step capacity) s events = some s') :
    (trace (State.step capacity) State.taken s events).take s.queue.length =
      s.queue.take (takes events) := by
  suffices hgeneral : ∀ kept, kept <+: s.queue →
      (trace (State.step capacity) State.taken s events).take kept.length =
        kept.take (takes events) from hgeneral _ (List.prefix_refl _)
  induction events generalizing s with
  | nil =>
      intro kept _
      simp [trace, takes]
  | cons e rest ih =>
      intro kept hkept
      obtain ⟨mid, hmid, hrest⟩ := run_cons_eq_some hrun
      have hmid' : kept.drop (takes [e]) <+: mid.queue :=
        (hkept.drop _).trans (step_queue hmid)
      have hrest' := ih hrest _ hmid'
      rw [trace, hmid, Option.elim_some]
      cases e with
      | call q entries => simpa [takes, State.taken] using hrest'
      | put q => simpa [takes, State.taken] using hrest'
      | take =>
          cases kept with
          | nil => simp
          | cons first kept =>
              obtain ⟨later, hqueue⟩ := hkept
              have htaken : s.taken .take = [first] := by
                rw [State.taken, ← hqueue]
                rfl
              have hcount : takes (.take :: rest : List (Event π α)) = takes rest + 1 := by
                simp [takes]
              rw [htaken, hcount, List.singleton_append, List.length_cons, List.take_succ_cons,
                List.take_succ_cons]
              exact congrArg (List.cons first) hrest'

/-! ## Draining -/

section Draining

variable [Fintype π]

/-- The events that are still needed: two for an entry that waits, one for an entry in the
queue. -/
def State.work (s : State π α) : ℕ := 2 * ∑ p, (s.waiting p).length + s.queue.length

/-- In a round the calls bring nothing, every writer tries, and the reader takes. -/
structure Round (events : List (Event π α)) : Prop where
  quiet : ∀ p entries, .call p entries ∈ events → entries = []
  puts : ∀ p, .put p ∈ events
  takes : .take ∈ events

theorem sum_update {w : π → List α} {p : π} {entry : α} {rest : List α}
    (h : w p = entry :: rest) :
    ∑ q, (Function.update w p rest q).length + 1 = ∑ q, (w q).length := by
  rw [← Finset.add_sum_erase _ _ (Finset.mem_univ p), ← Finset.add_sum_erase _ _
    (Finset.mem_univ p), h, Function.update_self, List.length_cons]
  have hothers : ∑ q ∈ Finset.univ.erase p, (Function.update w p rest q).length =
      ∑ q ∈ Finset.univ.erase p, (w q).length := by
    apply Finset.sum_congr rfl
    intro q hq
    rw [Function.update_of_ne (Finset.ne_of_mem_erase hq)]
  rw [hothers]
  omega

theorem work_put_le (s : State π α) (p : π) : (s.put capacity p).work ≤ s.work := by
  have hput := put_cases capacity s p
  generalize s.put capacity p = s' at hput ⊢
  cases hput with
  | idle => exact le_refl _
  | full => exact le_refl _
  | done entry rest h _ =>
      have hsum := sum_update h
      simp only [State.work, List.length_append, List.length_singleton]
      omega

omit [Fintype π] in
theorem step_call_nil {p : π} (h : s.step capacity (.call p []) = some s') : s' = s := by
  rw [State.step] at h
  split_ifs at h with hidle
  obtain rfl := Option.some.inj h
  have hsame : Function.update s.waiting p [] = s.waiting := by
    rw [← hidle, Function.update_eq_self]
  rw [hsame]

/-- Without new entries there is no more work. -/
theorem work_step_le {e : Event π α} (hquiet : ∀ p entries, e = .call p entries → entries = [])
    (hstep : s.step capacity e = some s') : s'.work ≤ s.work := by
  cases e with
  | call p entries =>
      obtain rfl := hquiet p entries rfl
      rw [step_call_nil hstep]
  | put p =>
      obtain rfl := Option.some.inj hstep
      exact work_put_le s p
  | take =>
      obtain rfl := Option.some.inj hstep
      simp only [State.work, List.length_tail]
      omega

theorem work_run_le (hquiet : ∀ p entries, .call p entries ∈ events → entries = [])
    (hrun : run (State.step capacity) s events = some s') : s'.work ≤ s.work := by
  induction events generalizing s with
  | nil =>
      obtain rfl : s = s' := by simpa using hrun
      exact le_refl _
  | cons e rest ih =>
      obtain ⟨mid, hmid, hrest⟩ := run_cons_eq_some hrun
      have hfirst : mid.work ≤ s.work :=
        work_step_le (fun p entries he => hquiet p entries (by simp [he])) hmid
      exact (ih (fun p entries he => hquiet p entries (List.mem_cons_of_mem _ he)) hrest).trans
        hfirst

/-- A take from a queue that is not empty is progress. -/
theorem work_lt_of_take (hquiet : ∀ p entries, .call p entries ∈ events → entries = [])
    (htake : .take ∈ events) (hqueue : s.queue ≠ [])
    (hrun : run (State.step capacity) s events = some s') : s'.work < s.work := by
  induction events generalizing s with
  | nil => cases htake
  | cons e rest ih =>
      obtain ⟨mid, hmid, hrest⟩ := run_cons_eq_some hrun
      have hquiet' : ∀ p entries, .call p entries ∈ rest → entries = [] :=
        fun p entries he => hquiet p entries (List.mem_cons_of_mem _ he)
      have hlater := work_run_le hquiet' hrest
      cases e with
      | call p entries =>
          obtain rfl := hquiet p entries (List.mem_cons_self ..)
          obtain rfl := step_call_nil hmid
          exact ih hquiet' (by simpa using htake) hqueue hrest
      | put p =>
          obtain rfl := Option.some.inj hmid
          have hkeeps : (s.put capacity p).queue ≠ [] := by
            have hprefix : s.queue <+: (s.put capacity p).queue := step_queue (e := .put p) hmid
            intro hempty
            rw [hempty] at hprefix
            exact hqueue (List.prefix_nil.mp hprefix)
          have htake' : .take ∈ rest := by simpa using htake
          exact (ih hquiet' htake' hkeeps hrest).trans_le (work_put_le s p)
      | take =>
          obtain rfl := Option.some.inj hmid
          have hpos := List.length_pos_iff.mpr hqueue
          simp only [State.work, List.length_tail] at hlater ⊢
          omega

/-- A try of a waiting writer at an empty queue is progress. -/
theorem work_lt_of_put {p : π} (hcapacity : 0 < capacity)
    (hquiet : ∀ p entries, .call p entries ∈ events → entries = []) (hput : .put p ∈ events)
    (hqueue : s.queue = []) (hwaiting : s.waiting p ≠ [])
    (hrun : run (State.step capacity) s events = some s') : s'.work < s.work := by
  induction events with
  | nil => cases hput
  | cons e rest ih =>
      obtain ⟨mid, hmid, hrest⟩ := run_cons_eq_some hrun
      have hquiet' : ∀ p entries, .call p entries ∈ rest → entries = [] :=
        fun p entries he => hquiet p entries (List.mem_cons_of_mem _ he)
      have hlater := work_run_le hquiet' hrest
      cases e with
      | call q entries =>
          obtain rfl := hquiet q entries (List.mem_cons_self ..)
          obtain rfl := step_call_nil hmid
          exact ih hquiet' (by simpa using hput) hrest
      | put q =>
          have htry := put_cases capacity s q
          obtain rfl := Option.some.inj hmid
          generalize s.put capacity q = mid at htry hrest hlater
          cases htry with
          | idle hidle =>
              have hput' : .put p ∈ rest := by
                rcases List.mem_cons.mp hput with heq | hput
                · obtain rfl : p = q := by simpa using heq
                  exact absurd hidle hwaiting
                · exact hput
              exact ih hquiet' hput' hrest
          | full hfull =>
              rw [hqueue, List.length_nil] at hfull
              omega
          | done entry entries h _ =>
              have hsum := sum_update h
              simp only [State.work, List.length_append, List.length_singleton] at hlater ⊢
              omega
      | take =>
          obtain rfl := Option.some.inj hmid
          have hsame : ({ s with queue := s.queue.tail } : State π α) = s := by
            cases s with
            | mk waiting queue =>
                obtain rfl : queue = [] := hqueue
                rfl
          rw [hsame] at hrest
          have hput' : .put p ∈ rest := by simpa using hput
          exact ih hquiet' hput' hrest

omit [DecidableEq π] in
theorem work_eq_zero : s.work = 0 ↔ s.queue = [] ∧ ∀ p, s.waiting p = [] := by
  have hsum : ∑ p, (s.waiting p).length = 0 ↔ ∀ p, s.waiting p = [] := by
    simp only [Finset.sum_eq_zero_iff, Finset.mem_univ, forall_true_left, List.length_eq_zero_iff]
  rw [← hsum, ← List.length_eq_zero_iff, State.work]
  omega

/-- **A round** gets some of the work done. -/
theorem Round.work_lt (h : Round events) (hcapacity : 0 < capacity) (hwork : s.work ≠ 0)
    (hrun : run (State.step capacity) s events = some s') : s'.work < s.work := by
  by_cases hqueue : s.queue = []
  · obtain ⟨p, hp⟩ : ∃ p, s.waiting p ≠ [] := by
      by_contra hnone
      exact hwork (work_eq_zero.mpr ⟨hqueue, by simpa using hnone⟩)
    exact work_lt_of_put hcapacity h.quiet (h.puts p) hqueue hp hrun
  · exact work_lt_of_take h.quiet h.takes hqueue hrun

/-- **Everything comes out**, if there are as many rounds as there is work. -/
theorem drained {rounds : List (List (Event π α))} (hcapacity : 0 < capacity)
    (hrounds : ∀ round ∈ rounds, Round round) (hwork : s.work ≤ rounds.length)
    (hrun : run (State.step capacity) s rounds.flatten = some s') :
    s'.queue = [] ∧ ∀ p, s'.waiting p = [] := by
  induction rounds generalizing s with
  | nil =>
      obtain rfl : s = s' := by simpa using hrun
      exact work_eq_zero.mp (Nat.le_zero.mp hwork)
  | cons round rest ih =>
      obtain ⟨hround, hrest⟩ := List.forall_mem_cons.mp hrounds
      obtain ⟨mid, hmid, hrun'⟩ := run_append_eq_some hrun
      rw [List.length_cons] at hwork
      by_cases hdone : s.work = 0
      · have hle := work_run_le hround.quiet hmid
        exact ih hrest (by omega) hrun'
      · have hlt := hround.work_lt hcapacity hdone hmid
        exact ih hrest (by omega) hrun'

end Draining

end Fifo
