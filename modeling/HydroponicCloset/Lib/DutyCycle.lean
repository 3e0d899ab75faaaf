import Mathlib

/-!
# Duty cycles

A device is switched on and off by a timer.  It remembers when it was switched last;
a pass reads the clock, switches the device off if it has been on for longer than a
limit, and then on if it has been off for longer than another.  Each decision takes a
reading, and each switch one more, which is what is remembered.  The clock is a
stream of readings, so that it may advance between any two of them.

`Switch` records a switch: the reading it was decided on and the one remembered.
`Regular limits log` is the law of such records, and `Kept.pass` says that passes
keep it: switches alternate, each at a reading that is later than the limit after the
time remembered at the one before.  `Regular.spaced` follows: the device is never
switched on twice within the sum of the limits.  What a check preserves is preserved
by a pass (`pass_induction`).
-/

namespace DutyCycle

/-- The readings of a clock, in the order in which they are taken. -/
abbrev Clock := ℕ → ℤ

/-- How long the device may at least stay on, and off. -/
structure Limits where
  on : ℤ
  off : ℤ

/-- The limit for the state that the device is in. -/
def Limits.of (limits : Limits) (on : Bool) : ℤ := if on then limits.on else limits.off

/-- Whether the device is on, and the times remembered when it was last switched on and
off. -/
structure Cycle where
  on : Bool
  onSince : ℤ
  offSince : ℤ

/-- A switch on or off. -/
structure Switch where
  on : Bool
  reading : ℤ
  stored : ℤ

namespace Cycle

/-- The time remembered at the latest switch. -/
def since (c : Cycle) : ℤ := if c.on then c.onSince else c.offSince

/-- At this reading the device has been on, or off, for too long. -/
def Due (limits : Limits) (c : Cycle) (reading : ℤ) : Prop := reading - c.since > limits.of c.on

instance (limits : Limits) (c : Cycle) (reading : ℤ) : Decidable (c.Due limits reading) :=
  inferInstanceAs (Decidable (_ > _))

/-- Switch the device over, and remember the time. -/
def switch (c : Cycle) (time : ℤ) : Cycle :=
  if c.on then { c with on := false, offSince := time } else { c with on := true, onSince := time }

theorem since_of_on {c : Cycle} (h : c.on = true) : c.since = c.onSince := by
  rw [since, if_pos h]

theorem since_of_off {c : Cycle} (h : c.on = false) : c.since = c.offSince := by
  rw [since, h]
  rfl

theorem switch_of_on {c : Cycle} (h : c.on = true) (time : ℤ) :
    c.switch time = { c with on := false, offSince := time } := by
  rw [switch, if_pos h]

theorem switch_of_off {c : Cycle} (h : c.on = false) (time : ℤ) :
    c.switch time = { c with on := true, onSince := time } := by
  rw [switch, h]
  rfl

@[simp] theorem switch_on (c : Cycle) (time : ℤ) : (c.switch time).on = !c.on := by
  unfold switch
  cases c.on <;> rfl

@[simp] theorem switch_since (c : Cycle) (time : ℤ) : (c.switch time).since = time := by
  unfold switch since
  cases c.on <;> rfl

end Cycle

/-! ## Passes -/

/-- A pass under way: the number of readings taken, and the switches made. -/
structure Pass where
  cycle : Cycle
  reads : ℕ
  switches : List Switch

/-- Read the clock, and switch the device if it is due. -/
def check (limits : Limits) (clock : Clock) (p : Pass) : Pass :=
  if p.cycle.Due limits (clock p.reads) then
    { cycle := p.cycle.switch (clock (p.reads + 1))
      reads := p.reads + 2
      switches := p.switches ++ [⟨!p.cycle.on, clock p.reads, clock (p.reads + 1)⟩] }
  else { p with reads := p.reads + 1 }

/-- A check that is made if the device is on. -/
def checkOff (limits : Limits) (clock : Clock) (p : Pass) : Pass :=
  if p.cycle.on then check limits clock p else p

/-- A check that is made if the device is off. -/
def checkOn (limits : Limits) (clock : Clock) (p : Pass) : Pass :=
  if p.cycle.on then p else check limits clock p

/-- Switch off if it is time, and then on if it is time. -/
def pass (limits : Limits) (clock : Clock) (c : Cycle) : Pass :=
  checkOn limits clock (checkOff limits clock ⟨c, 0, []⟩)

/-! ## The law of the switches -/

/-- `b` may come after `a`. -/
def Follows (limits : Limits) (a b : Switch) : Prop :=
  b.on = !a.on ∧ b.reading - a.stored > limits.of a.on

/-- The switches of a device that was off. -/
structure Regular (limits : Limits) (log : List Switch) : Prop where
  chain : log.IsChain (Follows limits)
  first : ∀ s ∈ log.head?, s.on = true

/-- The log of the switches, and the state they lead to. -/
structure Kept (limits : Limits) (log : List Switch) (c : Cycle) : Prop where
  regular : Regular limits log
  latest : ∀ s ∈ log.getLast?, s.on = c.on ∧ s.stored = c.since
  start : log = [] → c.on = false

variable {limits : Limits} {clock : Clock} {log : List Switch} {c : Cycle}

theorem kept_nil (hoff : c.on = false) : Kept limits [] c :=
  ⟨⟨.nil, nofun⟩, nofun, fun _ => hoff⟩

/-- A switch that is due keeps the law. -/
theorem Kept.switch (h : Kept limits log c) {reading : ℤ} (hdue : c.Due limits reading)
    (time : ℤ) : Kept limits (log ++ [⟨!c.on, reading, time⟩]) (c.switch time) where
  regular := by
    refine ⟨?_, ?_⟩
    · rw [List.isChain_append]
      refine ⟨h.regular.chain, .singleton _, ?_⟩
      intro s hs b hb
      obtain rfl : _ = b := Option.some.inj hb
      obtain ⟨hon, hstored⟩ := h.latest s hs
      refine ⟨by rw [hon], ?_⟩
      rw [hon, hstored]
      exact hdue
    · intro s hs
      cases log with
      | nil =>
          obtain rfl : _ = s := Option.some.inj hs
          simp [h.start rfl]
      | cons head rest => exact h.regular.first s hs
  latest := by
    intro s hs
    rw [List.getLast?_concat] at hs
    obtain rfl : _ = s := Option.some.inj hs
    simp
  start := by simp

theorem Kept.check {p : Pass} (h : Kept limits (log ++ p.switches) p.cycle) :
    Kept limits (log ++ (check limits clock p).switches) (check limits clock p).cycle := by
  unfold DutyCycle.check
  split_ifs with hdue
  · have hswitch := h.switch hdue (clock (p.reads + 1))
    rwa [List.append_assoc] at hswitch
  · exact h

/-- What a check preserves, a pass does. -/
theorem pass_induction (P : Pass → Prop) (hstart : P ⟨c, 0, []⟩)
    (hcheck : ∀ p, P p → P (check limits clock p)) : P (pass limits clock c) := by
  have hoff : P (checkOff limits clock ⟨c, 0, []⟩) := by
    unfold checkOff
    split_ifs
    · exact hcheck _ hstart
    · exact hstart
  unfold pass checkOn
  split_ifs
  · exact hoff
  · exact hcheck _ hoff

/-- **A pass** keeps the law. -/
theorem Kept.pass (h : Kept limits log c) :
    Kept limits (log ++ (pass limits clock c).switches) (pass limits clock c).cycle := by
  apply pass_induction (fun p => Kept limits (log ++ p.switches) p.cycle)
  · simpa using h
  · exact fun _ hp => hp.check

/-- A device that is off and is left so was not due. -/
theorem pass_of_no_switch (hoff : c.on = false) (h : (pass limits clock c).switches = []) :
    (pass limits clock c).cycle = c ∧ ¬ c.Due limits (clock 0) := by
  have hpass : pass limits clock c = check limits clock ⟨c, 0, []⟩ := by
    simp only [pass, checkOff, checkOn, hoff, Bool.false_eq_true, if_false]
  rw [hpass] at h ⊢
  unfold check at h ⊢
  split_ifs at h ⊢ with hdue
  · exact absurd h (by simp)
  · exact ⟨rfl, hdue⟩

/-- The latest switch says whether the device is on. -/
theorem pass_latest (limits : Limits) (clock : Clock) (c : Cycle) :
    ((pass limits clock c).switches.map Switch.on).getLastD c.on =
      (pass limits clock c).cycle.on := by
  apply pass_induction (fun p => (p.switches.map Switch.on).getLastD c.on = p.cycle.on)
  · rfl
  · intro p hp
    unfold check
    split_ifs
    · simp
    · exact hp

/-! ## Spacing -/

/-- The times remembered are not before the readings. -/
def Timely (log : List Switch) : Prop := ∀ s ∈ log, s.reading ≤ s.stored

/-- The switches on. -/
def starts (log : List Switch) : List Switch := log.filter Switch.on

/-- More than the sum of the limits lies between any two starts. -/
def Spaced (limits : Limits) (log : List Switch) : Prop :=
  (starts log).Pairwise fun a b => b.reading - a.stored > limits.on + limits.off

/-- Behind a start comes a stop, and the other starts behind that. -/
theorem start_spaced {a : Switch} {rest : List Switch} (ha : a.on = true)
    (hfollows : ∀ b ∈ rest.head?, Follows limits a b) (htimely : Timely rest)
    (hnext : ∀ s ∈ rest.head?, s.on = false →
      ∀ b ∈ starts rest, b.reading - s.stored > limits.off) :
    ∀ b ∈ starts rest, b.reading - a.stored > limits.on + limits.off := by
  intro b hb
  cases rest with
  | nil => cases hb
  | cons stop tail =>
      obtain ⟨hstop, hlate⟩ := hfollows stop rfl
      rw [ha] at hstop hlate
      have hgap := hnext stop rfl hstop b hb
      have hstored := htimely stop (List.mem_cons_self ..)
      simp only [Limits.of, if_true] at hlate
      omega

/-- Behind a stop comes a start, and the other starts are later. -/
theorem stop_spaced {a : Switch} {rest : List Switch} (hon : 0 ≤ limits.on)
    (hoff : 0 ≤ limits.off) (ha : a.on = false) (hfollows : ∀ b ∈ rest.head?, Follows limits a b)
    (htimely : Timely rest) (hspaced : Spaced limits rest) :
    ∀ b ∈ starts rest, b.reading - a.stored > limits.off := by
  intro b hb
  cases rest with
  | nil => cases hb
  | cons start tail =>
      obtain ⟨hstart, hlate⟩ := hfollows start rfl
      rw [ha] at hstart hlate
      have hhead : starts (start :: tail) = start :: starts tail := List.filter_cons_of_pos hstart
      have hstored := htimely start (List.mem_cons_self ..)
      simp only [Limits.of, Bool.false_eq_true, if_false] at hlate
      rw [Spaced, hhead, List.pairwise_cons] at hspaced
      rw [hhead] at hb
      rcases List.mem_cons.mp hb with rfl | hb
      · exact hlate
      · have hgap := hspaced.1 b hb
        omega

theorem spaced_of_chain (hon : 0 ≤ limits.on) (hoff : 0 ≤ limits.off)
    (hchain : log.IsChain (Follows limits)) (htimely : Timely log) :
    Spaced limits log ∧ ∀ s ∈ log.head?, s.on = false →
      ∀ b ∈ starts log, b.reading - s.stored > limits.off := by
  induction log with
  | nil => exact ⟨.nil, nofun⟩
  | cons a rest ih =>
      obtain ⟨hfollows, hrest⟩ := List.isChain_cons.mp hchain
      obtain ⟨-, htimelyRest⟩ := List.forall_mem_cons.mp htimely
      obtain ⟨hspaced, hnext⟩ := ih hrest htimelyRest
      cases ha : a.on with
      | true =>
          have hstarts : starts (a :: rest) = a :: starts rest := List.filter_cons_of_pos ha
          refine ⟨?_, ?_⟩
          · rw [Spaced, hstarts, List.pairwise_cons]
            exact ⟨start_spaced ha hfollows htimelyRest hnext, hspaced⟩
          · intro s hs hfalse
            obtain rfl : a = s := Option.some.inj hs
            rw [ha] at hfalse
            cases hfalse
      | false =>
          have hstarts : starts (a :: rest) = starts rest :=
            List.filter_cons_of_neg (by simp [ha])
          refine ⟨by rw [Spaced, hstarts]; exact hspaced, ?_⟩
          intro s hs _
          obtain rfl : a = s := Option.some.inj hs
          rw [hstarts]
          exact stop_spaced hon hoff ha hfollows htimelyRest hspaced

/-- **Starts are spaced** by more than both limits together. -/
theorem Regular.spaced (h : Regular limits log) (hon : 0 ≤ limits.on) (hoff : 0 ≤ limits.off)
    (htimely : Timely log) : Spaced limits log :=
  (spaced_of_chain hon hoff h.chain htimely).1

/-- The switches of a pass are timely if the clock does not go back. -/
theorem timely_pass (hclock : Monotone clock) : Timely (pass limits clock c).switches := by
  apply pass_induction (fun p => Timely p.switches)
  · exact fun _ hs => absurd hs List.not_mem_nil
  · intro p hp
    unfold check
    split_ifs
    · intro s hs
      rcases List.mem_append.mp hs with hs | hs
      · exact hp s hs
      · rw [List.mem_singleton.mp hs]
        exact hclock (Nat.le_succ _)
    · exact hp

/-- What is remembered is a reading. -/
theorem stored_pass : ∀ s ∈ (pass limits clock c).switches, ∃ k, s.stored = clock k := by
  apply pass_induction (fun p => ∀ s ∈ p.switches, ∃ k, s.stored = clock k)
  · exact fun _ hs => absurd hs List.not_mem_nil
  · intro p hp
    unfold check
    split_ifs
    · intro s hs
      rcases List.mem_append.mp hs with hs | hs
      · exact hp s hs
      · rw [List.mem_singleton.mp hs]
        exact ⟨_, rfl⟩
    · exact hp

/-! ## One pass -/

/-- A device that was off is on after a pass if it was due. -/
theorem pass_of_off (hoff : c.on = false) :
    pass limits clock c = check limits clock ⟨c, 0, []⟩ := by
  simp [pass, checkOff, checkOn, hoff]

/-- A device that was on stays on if it was not due. -/
theorem pass_of_on (hon : c.on = true) (hdue : ¬ c.Due limits (clock 0)) :
    pass limits clock c = ⟨c, 1, []⟩ := by
  simp [pass, checkOff, checkOn, check, hon, hdue]

/-- A device that was on and due is switched off, and then on again if the clock has
advanced by more than the other limit meanwhile. -/
theorem pass_of_due (hon : c.on = true) (hdue : c.Due limits (clock 0)) :
    pass limits clock c =
      check limits clock ⟨c.switch (clock 1), 2, [⟨false, clock 0, clock 1⟩]⟩ := by
  simp [pass, checkOff, checkOn, check, hon, hdue]

theorem check_on (p : Pass) : (check limits clock p).cycle.on =
    if p.cycle.Due limits (clock p.reads) then !p.cycle.on else p.cycle.on := by
  unfold check
  split_ifs <;> simp

theorem switches_subset_check (p : Pass) : p.switches ⊆ (check limits clock p).switches := by
  unfold check
  split_ifs
  · exact List.subset_append_left ..
  · exact List.Subset.refl _

/-- **Passes keep the deadlines**: if the clock stands still during a pass, the device
is not due after it. -/
theorem not_due_pass (hon : 0 ≤ limits.on) (hoff : 0 ≤ limits.off) (t : ℤ) :
    ¬ (pass limits (fun _ => t) c).cycle.Due limits t := by
  have hfresh : ∀ c : Cycle, ¬ (c.switch t).Due limits t := by
    intro c
    unfold Cycle.Due Limits.of
    rw [Cycle.switch_since]
    split_ifs <;> omega
  have hcheck : ∀ p : Pass, ¬ (check limits (fun _ => t) p).cycle.Due limits t := by
    intro p
    unfold check
    split_ifs with hdue
    · exact hfresh p.cycle
    · exact hdue
  cases hc : c.on with
  | false =>
      rw [pass_of_off hc]
      exact hcheck _
  | true =>
      by_cases hdue : c.Due limits t
      · rw [pass_of_due hc hdue]
        exact hcheck _
      · rw [pass_of_on hc hdue]
        exact hdue

end DutyCycle
