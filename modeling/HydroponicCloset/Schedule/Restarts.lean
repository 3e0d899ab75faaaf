import HydroponicCloset.Schedule.Irrigation

/-!
# Watering after a restart

A restart resets the variables of `main.cpp` and leaves the clock.  `app_main` reads the
clock into `time_off_modem`, but `time_ant` stays zero, as if the pump had been
switched off when the clock was.  The first call at a reading above 60 starts the pump,
however long ago the restart was (`first_start`).

So the first watering after a start at `t₀` is later than `t₀ + 60` exactly when no call
reads the clock between 60 and `t₀ + 60`, and as long as this is so waterings keep their
distance over any number of restarts (`no_early_watering_iff`).
-/

namespace HydroponicCloset.Schedule

open Runs DutyCycle App

/-- A start of `app_main`: the reading it takes, and the calls of `comprobar_rutinas`
until the next restart. -/
structure Boot where
  time : ℤ
  calls : List Clock

/-- The starts of the pump between two restarts. -/
def Boot.waterings (b : Boot) : List Switch := starts (pumpLog b.time b.calls)

/-- The clock does not go back. -/
structure Boot.Steady (b : Boot) : Prop where
  within : ∀ clock ∈ b.calls, Monotone clock
  started : ∀ clock ∈ b.calls, ∀ k, b.time ≤ clock k
  between : b.calls.Pairwise fun clock clock' => ∀ j k, clock j ≤ clock' k

/-- Nor does it over restarts. -/
structure Steady (boots : List Boot) : Prop where
  boot : ∀ b ∈ boots, b.Steady
  between : boots.Pairwise fun b b' => ∀ clock ∈ b.calls, ∀ k, clock k ≤ b'.time

theorem run_rutinas (v : Rutinas) (calls : List Clock) :
    ∃ v', run Rutinas.step v calls = some v' := by
  induction calls generalizing v with
  | nil => exact ⟨v, rfl⟩
  | cons clock rest ih => exact ih (comprobarRutinas clock v).vars

/-! ## The first start -/

/-- A call before the first start. -/
theorem pumpLog_cons {v : Rutinas} (hoff : v.flagBomba = false) (hant : v.timeAnt = 0)
    (clock : Clock) :
    (60 < clock 0 → (v.issued clock).filterMap Issued.bomba? = [⟨true, clock 0, clock 1⟩]) ∧
      (¬ 60 < clock 0 → (v.issued clock).filterMap Issued.bomba? = [] ∧
        (comprobarRutinas clock v).vars.flagBomba = false ∧
        (comprobarRutinas clock v).vars.timeAnt = 0) := by
  have hcall := comprobarRutinas_bomba clock v
  have hcycle : v.bomba.on = false := hoff
  have hdue : v.bomba.Due bombaLimits (clock 0) ↔ 60 < clock 0 := by
    rw [Cycle.Due, Cycle.since_of_off hcycle, hcycle]
    show clock 0 - v.timeAnt > 60 ↔ 60 < clock 0
    omega
  have hswitches : (v.issued clock).filterMap Issued.bomba? =
      (check bombaLimits clock ⟨v.bomba, 0, []⟩).switches := by
    rw [filterMap_issued, pass_of_off hcycle]
  refine ⟨fun hpast => ?_, fun hearly => ?_⟩
  · rw [hswitches, check, if_pos (hdue.mpr hpast)]
    show [_] = [_]
    rw [hcycle]
    rfl
  · have hkept : (comprobarRutinas clock v).vars.bomba = v.bomba := by
      rw [hcall.cycle, pass_of_off hcycle, check, if_neg (fun h => hearly (hdue.mp h))]
    refine ⟨?_, (congrArg Cycle.on hkept).trans hoff, (congrArg Cycle.offSince hkept).trans hant⟩
    rw [hswitches, check, if_neg (fun h => hearly (hdue.mp h))]

/-- **The first start** comes at the first call whose check reads more than 60. -/
theorem first_start (calls : List Clock) {v : Rutinas} (hoff : v.flagBomba = false)
    (hant : v.timeAnt = 0) :
    (((trace Rutinas.step Rutinas.issued v calls).filterMap Issued.bomba?).head?).map
        Switch.reading =
      (calls.find? fun clock => 60 < clock 0).map fun clock => clock 0 := by
  induction calls generalizing v with
  | nil => rfl
  | cons clock rest ih =>
      obtain ⟨hpast, hearly⟩ := pumpLog_cons hoff hant clock
      rw [trace, List.filterMap_append]
      by_cases h : 60 < clock 0
      · rw [hpast h, List.find?_cons_of_pos (by simpa using h)]
        rfl
      · obtain ⟨hnone, hoff', hant'⟩ := hearly h
        rw [hnone, List.find?_cons_of_neg (by simpa using h), List.nil_append]
        exact ih hoff' hant'

theorem head?_waterings (b : Boot) : b.waterings.head? = (pumpLog b.time b.calls).head? := by
  obtain ⟨v, hrun⟩ := run_rutinas (.start b.time) b.calls
  have hfirst := (kept_pumpLog hrun).regular.first
  unfold Boot.waterings starts
  cases hlog : pumpLog b.time b.calls with
  | nil => rfl
  | cons s rest =>
      have hon : s.on = true := hfirst s (by rw [hlog]; rfl)
      rw [List.filter_cons_of_pos hon]
      rfl

theorem mem_head?_waterings {b : Boot} {s : Switch} (h : s ∈ b.waterings.head?) :
    ∃ clock ∈ b.calls, 60 < clock 0 ∧ s.reading = clock 0 := by
  have hfirst := first_start b.calls (v := .start b.time) rfl rfl
  have hhead : (pumpLog b.time b.calls).head? = some s := by
    rw [← head?_waterings]
    exact h
  unfold pumpLog at hhead
  rw [hhead, Option.map_some] at hfirst
  obtain ⟨clock, hfind, hreading⟩ := Option.map_eq_some_iff.mp hfirst.symm
  have hpast : 60 < clock 0 := by simpa using List.find?_some hfind
  exact ⟨clock, List.mem_of_find?_eq_some hfind, hpast, hreading.symm⟩

/-- Any call at a reading above 60 bounds the first start. -/
theorem exists_head?_waterings {b : Boot} (h : b.Steady) {clock : Clock} (hclock : clock ∈ b.calls)
    (hpast : 60 < clock 0) : ∃ s ∈ b.waterings.head?, s.reading ≤ clock 0 := by
  have hfirst := first_start b.calls (v := .start b.time) rfl rfl
  obtain ⟨found, hfound⟩ : ∃ found, (b.calls.find? fun clock => 60 < clock 0) = some found := by
    rw [← Option.isSome_iff_exists, List.find?_isSome]
    exact ⟨clock, hclock, by simpa using hpast⟩
  rw [hfound, Option.map_some] at hfirst
  obtain ⟨s, hs, hreading⟩ := Option.map_eq_some_iff.mp hfirst
  refine ⟨s, by rw [head?_waterings]; exact hs, ?_⟩
  rw [hreading]
  obtain ⟨-, first, second, hsplit, hnone⟩ := List.find?_eq_some_iff_append.mp hfound
  rw [hsplit] at hclock
  rcases List.mem_append.mp hclock with hbefore | hafter
  · have hearly := hnone clock hbefore
    simp [hpast] at hearly
  · rcases List.mem_cons.mp hafter with rfl | hafter
    · exact le_refl _
    · have hbetween := h.between
      rw [hsplit, List.pairwise_append] at hbetween
      exact (List.pairwise_cons.mp hbetween.2.1).1 clock hafter 0 0

/-- A call too early for a watering, though the clock reads more than 60. -/
def Boot.Early (b : Boot) (clock : Clock) : Prop := 60 < clock 0 ∧ clock 0 ≤ b.time + 60

/-- **Between two restarts** the first watering is late enough if and only if no call is
early. -/
theorem first_watering_iff {b : Boot} (h : b.Steady) :
    (∀ s ∈ b.waterings.head?, s.reading > b.time + 60) ↔ ∀ clock ∈ b.calls, ¬ b.Early clock := by
  constructor
  · rintro hlate clock hclock ⟨hpast, hearly⟩
    obtain ⟨s, hs, hle⟩ := exists_head?_waterings h hclock hpast
    have hs := hlate s hs
    omega
  · intro hnever s hs
    obtain ⟨clock, hclock, hpast, hreading⟩ := mem_head?_waterings hs
    have hlate := hnever clock hclock
    unfold Boot.Early at hlate
    omega

/-! ## Over restarts -/

theorem spaced_waterings {b : Boot} (h : b.Steady) :
    b.waterings.Pairwise fun a b => b.reading - a.stored > 90 := by
  obtain ⟨v, hrun⟩ := run_rutinas (.start b.time) b.calls
  exact spaced_pumpLog h.within hrun

theorem timely_waterings {b : Boot} (h : b.Steady) : Timely b.waterings := by
  obtain ⟨v, hrun⟩ := run_rutinas (.start b.time) b.calls
  exact fun s hs => timely_pumpLog h.within hrun s (List.mem_of_mem_filter hs)

/-- No watering comes before the first. -/
theorem reading_of_first {b : Boot} (h : b.Steady) {t : ℤ}
    (hfirst : ∀ s ∈ b.waterings.head?, s.reading > t) : ∀ s ∈ b.waterings, s.reading > t := by
  have hspaced := spaced_waterings h
  have htimely := timely_waterings h
  cases hlog : b.waterings with
  | nil => exact nofun
  | cons first rest =>
      rw [hlog] at hspaced htimely hfirst
      have hhead := hfirst first rfl
      intro s hs
      rcases List.mem_cons.mp hs with rfl | hs
      · exact hhead
      · have hgap := (List.pairwise_cons.mp hspaced).1 s hs
        have hstored := htimely first (List.mem_cons_self ..)
        omega

/-- What is stored is a reading of one of the calls. -/
theorem stored_waterings (b : Boot) : ∀ s ∈ b.waterings, ∃ clock ∈ b.calls, ∃ k,
    s.stored = clock k := by
  obtain ⟨v, hrun⟩ := run_rutinas (.start b.time) b.calls
  have hstep : ∀ os (v : Rutinas) clock v', clock ∈ b.calls →
      (∀ s ∈ os.filterMap Issued.bomba?, ∃ clock ∈ b.calls, ∃ k, s.stored = clock k) →
        v.step clock = some v' →
          ∀ s ∈ (os ++ v.issued clock).filterMap Issued.bomba?, ∃ clock ∈ b.calls, ∃ k,
            s.stored = clock k := by
    intro os v clock v' hclock hold _ s hs
    rw [List.filterMap_append, filterMap_issued] at hs
    rcases List.mem_append.mp hs with hs | hs
    · exact hold s hs
    · exact ⟨clock, hclock, stored_pass s hs⟩
  intro s hs
  exact run_outputs (fun os _ => ∀ s ∈ os.filterMap Issued.bomba?, ∃ clock ∈ b.calls, ∃ k,
    s.stored = clock k) hstep nofun hrun s (List.mem_of_mem_filter hs)

/-- **Waterings over restarts.**  The first watering after each start comes more than
60 s after it, and no two waterings are closer than that, if and only if no call is
early. -/
theorem no_early_watering_iff {boots : List Boot} (h : Steady boots) :
    ((∀ b ∈ boots, ∀ s ∈ b.waterings.head?, s.reading > b.time + 60) ∧
        (boots.flatMap Boot.waterings).Pairwise fun a b => b.reading - a.stored > 60) ↔
      ∀ b ∈ boots, ∀ clock ∈ b.calls, ¬ (60 < clock 0 ∧ clock 0 ≤ b.time + 60) := by
  have hfirst : (∀ b ∈ boots, ∀ s ∈ b.waterings.head?, s.reading > b.time + 60) ↔
      ∀ b ∈ boots, ∀ clock ∈ b.calls, ¬ (60 < clock 0 ∧ clock 0 ≤ b.time + 60) :=
    forall₂_congr fun b hb => first_watering_iff (h.boot b hb)
  rw [← hfirst]
  refine ⟨And.left, fun hlate => ⟨hlate, ?_⟩⟩
  rw [List.pairwise_flatMap]
  refine ⟨fun b hb => (spaced_waterings (h.boot b hb)).imp fun hgap => by omega, ?_⟩
  refine h.between.imp_of_mem fun {b b'} hb hb' hbefore a ha a' ha' => ?_
  -- `a` was over before the restart at `b'.time`
  obtain ⟨clock, hclock, k, hstored⟩ := stored_waterings b a ha
  have hover := hbefore clock hclock k
  have hnext := reading_of_first (h.boot b' hb') (hlate b' hb') a' ha'
  omega

/-- A boot during whose calls the clock stands still. -/
def bootAt (time : ℤ) (readings : List ℤ) : Boot := ⟨time, readings.map fun t _ => t⟩

theorem bootAt_steady {time : ℤ} {readings : List ℤ} (hstart : ∀ t ∈ readings, time ≤ t)
    (hsorted : readings.Pairwise (· ≤ ·)) : (bootAt time readings).Steady where
  within := by
    intro clock hclock
    obtain ⟨t, -, rfl⟩ := List.mem_map.mp hclock
    exact monotone_const
  started := by
    intro clock hclock _
    obtain ⟨t, ht, rfl⟩ := List.mem_map.mp hclock
    exact hstart t ht
  between := List.pairwise_map.mpr (hsorted.imp fun h _ _ => h)

/-- The clock has passed 60 when the first start lets the pump run, and the second start
is long before its only call. -/
theorem no_early_watering_calm :
    (∀ b ∈ [bootAt 0 [30, 61], bootAt 70 [131]], ∀ s ∈ b.waterings.head?,
        s.reading > b.time + 60) ∧
      ([bootAt 0 [30, 61], bootAt 70 [131]].flatMap Boot.waterings).Pairwise
        fun a b => b.reading - a.stored > 60 := by
  have hsteady : Steady [bootAt 0 [30, 61], bootAt 70 [131]] := by
    refine ⟨?_, by simp [bootAt]⟩
    intro b hb
    rcases List.mem_pair.mp hb with rfl | rfl
    · exact bootAt_steady (by simp) (by simp)
    · exact bootAt_steady (by simp) (by simp)
  apply (no_early_watering_iff hsteady).mpr
  simp [bootAt]

/-- A watering at 61, a restart at 62, and a watering at 63. -/
theorem watering_after_restart :
    Steady [bootAt 0 [61], bootAt 62 [63]] ∧
      (bootAt 0 [61]).waterings = [⟨true, 61, 61⟩] ∧
      (bootAt 62 [63]).waterings = [⟨true, 63, 63⟩] ∧
      ¬ ∀ s ∈ (bootAt 62 [63]).waterings.head?, s.reading > 62 + 60 := by
  refine ⟨⟨?_, by simp [bootAt]⟩, rfl, rfl, fun h => ?_⟩
  · intro b hb
    rcases List.mem_pair.mp hb with rfl | rfl
    · exact bootAt_steady (by simp) (by simp)
    · exact bootAt_steady (by simp) (by simp)
  · have hlate : (63 : ℤ) > 62 + 60 := h ⟨true, 63, 63⟩ rfl
    omega

end HydroponicCloset.Schedule
