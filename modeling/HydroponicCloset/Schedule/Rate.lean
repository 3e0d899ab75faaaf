import HydroponicCloset.Lib.DutyBounds
import HydroponicCloset.Schedule.Restarts

/-!
# How often the plants are watered

The main loop calls `comprobar_rutinas` after it has read the sensors and sent what they
read, so a call may be late.  If the calls are at most `d` seconds apart, each watering
ends within `d` seconds of its 30, and the next begins within `d` seconds of its 60
(`watering_punctual`); so the number of waterings is known up to the delays from the
time that has passed since the first (`watering_rate`).
-/

namespace HydroponicCloset.Schedule

open Runs DutyCycle App

/-- Calls that begin at most `d` apart, and take no longer, on a clock that does not go
back. -/
structure Prompt (d : ℤ) (calls : List Clock) : Prop where
  within : ∀ clock ∈ calls, Monotone clock
  span : ∀ clock ∈ calls, ∀ k, clock k ≤ clock 0 + d
  between : calls.IsChain fun clock clock' => (∀ k, clock k ≤ clock' 0) ∧ clock' 0 ≤ clock 0 + d

variable {time d : ℤ} {before : List Clock} {clock : Clock} {v : Rutinas}

theorem Prompt.init (h : Prompt d (before ++ [clock])) : Prompt d before where
  within := fun clock' hmem => h.within clock' (List.mem_append_left _ hmem)
  span := fun clock' hmem => h.span clock' (List.mem_append_left _ hmem)
  between := (List.isChain_append.mp h.between).1

/-- The latest call's first reading. -/
def latestReading (calls : List Clock) : ℤ := (calls.getLast?.map fun clock => clock 0).getD 0

@[simp] theorem latestReading_concat (before : List Clock) (clock : Clock) :
    latestReading (before ++ [clock]) = clock 0 := by
  simp [latestReading]

/-- The call after some others is not before the latest of them, nor much later. -/
theorem Prompt.next (h : Prompt d (before ++ [clock])) (hne : before ≠ []) :
    latestReading before ≤ clock 0 ∧ clock 0 ≤ latestReading before + d := by
  rcases List.eq_nil_or_concat before with hnil | ⟨rest, last, rfl⟩
  · exact absurd hnil hne
  · obtain ⟨-, -, hnext⟩ := List.isChain_append.mp h.between
    obtain ⟨hforward, hsoon⟩ := hnext last (by simp) clock (by simp)
    rw [List.concat_eq_append, latestReading_concat]
    exact ⟨hforward 0, hsoon⟩

theorem pumpLog_concat (hrun : run Rutinas.step (.start time) before = some v) (clock : Clock) :
    pumpLog time (before ++ [clock]) =
      pumpLog time before ++ (DutyCycle.pass bombaLimits clock v.bomba).switches := by
  rw [pumpLog, trace_append hrun, trace_singleton, List.filterMap_append, filterMap_issued]
  rfl

/-- The latest call was a pass of the pump. -/
theorem latest_pass (hrun : run Rutinas.step (.start time) (before ++ [clock]) = some v) :
    ∃ mid, run Rutinas.step (.start time) before = some mid ∧
      v.bomba = (DutyCycle.pass bombaLimits clock mid.bomba).cycle := by
  obtain ⟨mid, hmid⟩ := run_rutinas (.start time) before
  have hlast : mid.step clock = some v := by rwa [run_concat, hmid, Option.bind_some] at hrun
  refine ⟨mid, hmid, ?_⟩
  rw [← Option.some.inj hlast, (comprobarRutinas_bomba clock mid).cycle]

theorem bombaLimits_nonneg : bombaLimits.Nonneg := fun on => by cases on <;> decide

/-- After each call: the pump has been looked after, and no switch is later than the
call. -/
theorem punctual_pumpLog {calls : List Clock} (hprompt : Prompt d calls)
    (hrun : run Rutinas.step (.start time) calls = some v) :
    Punctual bombaLimits d (pumpLog time calls) v.bomba (latestReading calls) ∧
      ∀ s ∈ pumpLog time calls, s.stored ≤ latestReading calls + d := by
  induction calls using List.reverseRecOn generalizing v with
  | nil => exact ⟨punctual_nil, by simp [pumpLog, trace]⟩
  | append_singleton before clock ih =>
      obtain ⟨mid, hmid, hcycle⟩ := latest_pass hrun
      obtain ⟨hpunctual, hstored⟩ := ih hprompt.init hmid
      have hclock := hprompt.within clock (by simp)
      have hspan := hprompt.span clock (by simp)
      have hnonempty : pumpLog time before ≠ [] → before ≠ [] := by
        rintro hlog rfl
        exact hlog rfl
      rw [pumpLog_concat hmid, latestReading_concat, hcycle]
      refine ⟨hpunctual.pass bombaLimits_nonneg (kept_pumpLog hmid) hclock hspan fun hlog =>
        (hprompt.next (hnonempty hlog)).2, ?_⟩
      intro s hs
      rcases List.mem_append.mp hs with hold | hnew
      · have hne := hnonempty (List.ne_nil_of_mem hold)
        have hlate := hstored s hold
        have hforward := (hprompt.next hne).1
        omega
      · obtain ⟨k, hk⟩ := stored_pass s hnew
        rw [hk]
        exact hspan k

/-- After each call the pump has been on, or off, for no longer than its limit. -/
theorem not_due_latest (hprompt : Prompt d (before ++ [clock]))
    (hrun : run Rutinas.step (.start time) (before ++ [clock]) = some v) :
    clock 0 - v.bomba.since ≤ bombaLimits.of v.bomba.on := by
  by_cases hlog : pumpLog time (before ++ [clock]) = []
  · -- the pump has never been switched, and was not due just now
    obtain ⟨mid, hmid, hcycle⟩ := latest_pass hrun
    rw [pumpLog_concat hmid, List.append_eq_nil_iff] at hlog
    have hoff : mid.bomba.on = false := (kept_pumpLog hmid).start hlog.1
    obtain ⟨hsame, hdue⟩ := pass_of_no_switch hoff hlog.2
    rw [hcycle, hsame]
    exact not_lt.mp hdue
  · obtain ⟨hpunctual, -⟩ := punctual_pumpLog hprompt hrun
    rw [latestReading_concat] at hpunctual
    exact hpunctual.fresh hlog

/-- **Waterings are punctual.**  Between two switches of the pump lies at most the limit
and `d`, and after a call the pump has been on, or off, for no longer than the limit at
the call's first reading. -/
theorem watering_punctual (hprompt : Prompt d (before ++ [clock]))
    (hrun : run Rutinas.step (.start time) (before ++ [clock]) = some v) :
    (pumpLog time (before ++ [clock])).IsChain
        (fun a b => b.reading - a.stored ≤ (if a.on then 30 else 60) + d) ∧
      if v.flagBomba then clock 0 - v.timeBomba ≤ 30 else clock 0 - v.timeAnt ≤ 60 := by
  refine ⟨(punctual_pumpLog hprompt hrun).1.chain, ?_⟩
  have hfresh := not_due_latest hprompt hrun
  cases hflag : v.flagBomba with
  | true =>
      have hon : v.bomba.on = true := hflag
      rw [Cycle.since_of_on hon, hon] at hfresh
      exact hfresh
  | false =>
      have hoff : v.bomba.on = false := hflag
      rw [Cycle.since_of_off hoff, hoff] at hfresh
      exact hfresh

/-- **The rate of watering.**  With `n` starts of the pump, the time since the first is at
most `n` times ninety seconds and four delays, and at least `n - 1` times ninety seconds. -/
theorem watering_rate (hd : 0 ≤ d) (hprompt : Prompt d (before ++ [clock]))
    (hrun : run Rutinas.step (.start time) (before ++ [clock]) = some v) {first : Switch}
    (hfirst : (pumpLog time (before ++ [clock])).head? = some first) :
    clock 0 - first.stored ≤
        (starts (pumpLog time (before ++ [clock]))).length * (90 + 4 * d) ∧
      ((starts (pumpLog time (before ++ [clock]))).length - 1) * 90 ≤
        clock 0 + d - first.stored := by
  obtain ⟨hpunctual, hstored⟩ := punctual_pumpLog hprompt hrun
  have hkept := kept_pumpLog hrun
  have htimely := timely_pumpLog hprompt.within hrun
  have hspaced := hkept.regular.spaced (by decide) (by decide) htimely
  rw [latestReading_concat] at hpunctual hstored
  refine ⟨hpunctual.span bombaLimits_nonneg hd hkept hfirst, ?_⟩
  have hon := hkept.regular.first first hfirst
  cases hlog : pumpLog time (before ++ [clock]) with
  | nil => rw [hlog] at hfirst; cases hfirst
  | cons a rest =>
      obtain rfl : a = first := by simpa [hlog] using hfirst
      have hhead : starts (a :: rest) = a :: starts rest := List.filter_cons_of_pos hon
      rw [Spaced, hlog, hhead] at hspaced
      rw [hlog] at htimely hstored
      have hmem : ∀ s ∈ a :: starts rest, s ∈ a :: rest := by
        intro s hs
        rw [← hhead] at hs
        exact List.mem_of_mem_filter hs
      have hapart := pairwise_span a (starts rest) (fun s hs => htimely s (hmem s hs)) hspaced
        fun s hs => hstored s (hmem s hs)
      rw [hhead, List.length_cons, Nat.cast_add, Nat.cast_one, add_sub_cancel_right]
      exact hapart

/-- Calls two seconds apart, from the first that waters. -/
def everyTwo (k : ℕ) : Clock := fun _ => 61 + 2 * k

theorem prompt_everyTwo (n : ℕ) : Prompt 2 ((List.range n).map everyTwo) where
  within := by
    intro clock hclock
    obtain ⟨k, -, rfl⟩ := List.mem_map.mp hclock
    exact monotone_const
  span := by
    intro clock hclock k
    obtain ⟨j, -, rfl⟩ := List.mem_map.mp hclock
    unfold everyTwo
    omega
  between := by
    rw [List.isChain_map]
    refine (List.isChain_range _ _).mpr fun k _ => ?_
    unfold everyTwo
    push_cast
    exact ⟨fun _ => by omega, by omega⟩

/-- Fifty of them, which take from the first start of the pump into the second. -/
def fifty : List Clock := (List.range 49).map everyTwo ++ [everyTwo 49]

theorem prompt_fifty : Prompt 2 fifty := by
  have hprompt := prompt_everyTwo 50
  rwa [List.range_succ, List.map_append] at hprompt

theorem watering_punctual_everyTwo :
    ∃ v, run Rutinas.step (.start 0) fifty = some v ∧
      (pumpLog 0 fifty).IsChain
        (fun a b => b.reading - a.stored ≤ (if a.on then 30 else 60) + 2) ∧
      if v.flagBomba then everyTwo 49 0 - v.timeBomba ≤ 30
      else everyTwo 49 0 - v.timeAnt ≤ 60 := by
  obtain ⟨v, hrun⟩ := run_rutinas (.start 0) fifty
  exact ⟨v, hrun, watering_punctual prompt_fifty hrun⟩

theorem watering_rate_everyTwo :
    ∃ v, run Rutinas.step (.start 0) fifty = some v ∧
      everyTwo 49 0 - 61 ≤ (starts (pumpLog 0 fifty)).length * (90 + 4 * 2) ∧
      ((starts (pumpLog 0 fifty)).length - 1) * 90 ≤ everyTwo 49 0 + 2 - 61 := by
  obtain ⟨v, hrun⟩ := run_rutinas (.start 0) fifty
  have hfirst : (pumpLog 0 fifty).head? = some ⟨true, 61, 61⟩ := rfl
  exact ⟨v, hrun, watering_rate (by decide) prompt_fifty hrun hfirst⟩

end HydroponicCloset.Schedule
