import HydroponicCloset.App.Routines

/-!
# The modem schedule

By itself the modem would keep its deadlines: a call that reaches its blocks leaves it
neither on for more than 15 s nor off for more than 60.  But the blocks are nested in
a block of the pump, and a call that finds the pump on and leaves it on does not reach
them.  `modem_onTime_iff` says that these calls, when a deadline has passed, are exactly
the ones that miss it.

The modem's times are of type `int`.  As long as the clock stays within that type, so do
they (`fitsInt_after`), and the integers of the model are those of the source.
-/

namespace HydroponicCloset.Schedule

open Runs DutyCycle App

/-- A call during which the clock reads `t`. -/
def still (t : ℤ) : Clock := fun _ => t

/-- The modem is neither on for more than 15 s nor off for more than 60. -/
def OnTime (v : Rutinas) (t : ℤ) : Prop :=
  ¬ (v.flagModem = true ∧ t - v.timeOnModem > 15) ∧
    ¬ (v.flagModem = false ∧ t - v.timeOffModem > 60)

theorem onTime_iff (v : Rutinas) (t : ℤ) : OnTime v t ↔ ¬ v.modem.Due modemLimits t := by
  have hon : v.modem.on = v.flagModem := rfl
  cases hflag : v.flagModem with
  | true =>
      have hdue : v.modem.Due modemLimits t ↔ t - v.timeOnModem > 15 := by
        rw [Cycle.Due, Cycle.since_of_on (hon.trans hflag), hon, hflag]
        rfl
      rw [hdue]
      simp [OnTime, hflag]
  | false =>
      have hdue : v.modem.Due modemLimits t ↔ t - v.timeOffModem > 60 := by
        rw [Cycle.Due, Cycle.since_of_off (hon.trans hflag), hon, hflag]
        rfl
      rw [hdue]
      simp [OnTime, hflag]

/-- **One call** misses a deadline if it passed before, and the pump stays on. -/
theorem onTime_comprobarRutinas (v : Rutinas) (t : ℤ) :
    OnTime (comprobarRutinas (still t) v).vars t ↔ ¬ (v.Shut (still t) ∧ ¬ OnTime v t) := by
  by_cases hshut : v.Shut (still t)
  · have hkept : OnTime (comprobarRutinas (still t) v).vars t ↔ OnTime v t := by
      rw [onTime_iff, onTime_iff, comprobarRutinas_shut hshut]
    rw [hkept]
    tauto
  · obtain ⟨n, hpass⟩ := comprobarRutinas_modem hshut
    have honTime : OnTime (comprobarRutinas (still t) v).vars t := by
      rw [onTime_iff, hpass.cycle]
      exact not_due_pass (by decide) (by decide) t
    exact iff_of_true honTime fun h => hshut h.1

/-- A run of calls, the clock reading one value during each. -/
def after (time : ℤ) (readings : List ℤ) : Option Rutinas :=
  run Rutinas.step (.start time) (readings.map still)

theorem after_concat (time : ℤ) (readings : List ℤ) (t : ℤ) :
    after time (readings ++ [t]) =
      (after time readings).map fun v => (comprobarRutinas (still t) v).vars := by
  unfold after
  rw [List.map_append, List.map_singleton, run_concat]
  cases run Rutinas.step (.start time) (readings.map still) <;> rfl

/-! ## The modem's times -/

/-- A pass stores nothing but readings. -/
theorem fitsInt_pass {t : ℤ} {c : Cycle} (ht : FitsInt t) (hon : FitsInt c.onSince)
    (hoff : FitsInt c.offSince) :
    FitsInt (pass modemLimits (still t) c).cycle.onSince ∧
      FitsInt (pass modemLimits (still t) c).cycle.offSince := by
  apply pass_induction (fun p => FitsInt p.cycle.onSince ∧ FitsInt p.cycle.offSince) ⟨hon, hoff⟩
  rintro p ⟨hpon, hpoff⟩
  unfold check
  split_ifs with hdue
  · cases hflag : p.cycle.on with
    | true =>
        rw [Cycle.switch_of_on hflag]
        exact ⟨hpon, ht⟩
    | false =>
        rw [Cycle.switch_of_off hflag]
        exact ⟨ht, hpoff⟩
  · exact ⟨hpon, hpoff⟩

/-- **One call** keeps the modem's times within the type `int`. -/
theorem fitsInt_comprobarRutinas {v : Rutinas} {t : ℤ} (ht : FitsInt t)
    (hon : FitsInt v.timeOnModem) (hoff : FitsInt v.timeOffModem) :
    FitsInt (comprobarRutinas (still t) v).vars.timeOnModem ∧
      FitsInt (comprobarRutinas (still t) v).vars.timeOffModem := by
  show FitsInt (comprobarRutinas (still t) v).vars.modem.onSince ∧
    FitsInt (comprobarRutinas (still t) v).vars.modem.offSince
  by_cases hshut : v.Shut (still t)
  · rw [comprobarRutinas_shut hshut]
    exact ⟨hon, hoff⟩
  · obtain ⟨n, hpass⟩ := comprobarRutinas_modem hshut
    rw [hpass.cycle]
    exact fitsInt_pass ht hon hoff

/-- **A run** keeps them there. -/
theorem fitsInt_after {time : ℤ} {readings : List ℤ} {v : Rutinas} (htime : FitsInt time)
    (hreadings : ∀ t ∈ readings, FitsInt t) (hrun : after time readings = some v) :
    FitsInt v.timeOnModem ∧ FitsInt v.timeOffModem := by
  induction readings using List.reverseRecOn generalizing v with
  | nil =>
      obtain rfl : Rutinas.start time = v := Option.some.inj hrun
      exact ⟨(by decide : FitsInt 0), htime⟩
  | append_singleton readings t ih =>
      rw [after_concat] at hrun
      obtain ⟨w, hw, rfl⟩ := Option.map_eq_some_iff.mp hrun
      obtain ⟨hon, hoff⟩ := ih (fun t ht => hreadings t (List.mem_append_left _ ht)) hw
      exact fitsInt_comprobarRutinas (hreadings t (by simp)) hon hoff

/-- **The modem schedule.**  While the clock stays within the type `int`, so do the modem's
times; and the schedule is kept in a run exactly when no call of the run, at a time when the
modem has passed a deadline, finds the pump on for at most 30 s. -/
theorem modem_onTime_iff {time : ℤ} {readings : List ℤ} (htime : FitsInt time)
    (hreadings : ∀ t ∈ readings, FitsInt t) :
    (∀ first v, first <+: readings → after time first = some v →
        FitsInt v.timeOnModem ∧ FitsInt v.timeOffModem) ∧
      ((∀ first t second v, readings = first ++ t :: second →
          after time (first ++ [t]) = some v → OnTime v t) ↔
        ∀ first t second v, readings = first ++ t :: second → after time first = some v →
          ¬ (v.Shut (still t) ∧ ¬ OnTime v t)) := by
  refine ⟨?_, ?_, ?_⟩
  · intro first v hfirst hrun
    exact fitsInt_after htime (fun t ht => hreadings t (hfirst.subset ht)) hrun
  · intro h first t second v hsplit hrun
    have hnext : after time (first ++ [t]) = some (comprobarRutinas (still t) v).vars := by
      rw [after_concat, hrun]
      rfl
    exact (onTime_comprobarRutinas v t).mp (h first t second _ hsplit hnext)
  · intro h first t second v hsplit hrun
    rw [after_concat] at hrun
    obtain ⟨w, hw, rfl⟩ := Option.map_eq_some_iff.mp hrun
    exact (onTime_comprobarRutinas w t).mpr (h first t second w hsplit hw)

/-- Calls that switch the pump and the modem on, off and on again. -/
def modemCalls : List ℤ := [61, 77, 92, 130, 168]

theorem modem_onTime_calls :
    (∀ first v, first <+: modemCalls → after 0 first = some v →
        FitsInt v.timeOnModem ∧ FitsInt v.timeOffModem) ∧
      ((∀ first t second v, modemCalls = first ++ t :: second →
          after 0 (first ++ [t]) = some v → OnTime v t) ↔
        ∀ first t second v, modemCalls = first ++ t :: second → after 0 first = some v →
          ¬ (v.Shut (still t) ∧ ¬ OnTime v t)) :=
  modem_onTime_iff (by decide) (by decide)

/-- The pump and the modem are both switched on after 61 s, and the modem is still on
16 s later. -/
theorem modem_left_on :
    ∃ v, after 0 [61, 77] = some v ∧ v.flagModem = true ∧ 77 - v.timeOnModem > 15 :=
  ⟨_, rfl, by decide, by decide⟩

end HydroponicCloset.Schedule
