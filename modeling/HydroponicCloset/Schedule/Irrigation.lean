import HydroponicCloset.App.Routines

/-!
# The irrigation schedule

Whatever the modem does, a call of `comprobar_rutinas` is a pass of the pump's duty
cycle.  So the law of duty cycles holds of the commands that a run issues
(`irrigation_schedule`): they alternate, the pump runs for more than 30 s and rests for
more than 60, and starts are more than 90 s apart.

A call whose check finds that the pump has run long enough switches it off.  It does
not always leave it off: if the clock has advanced by more than 60 s by the time of the
second check, the same call switches the pump on again (`on_again`).
-/

namespace HydroponicCloset.Schedule

open Runs DutyCycle App

/-- The switches of the pump in a run from the start of `app_main`. -/
def pumpLog (time : ℤ) (calls : List Clock) : List Switch :=
  (trace Rutinas.step Rutinas.issued (.start time) calls).filterMap Issued.bomba?

/-! ## The commands of the pump -/

theorem kept_pumpLog {time : ℤ} {calls : List Clock} {v : Rutinas}
    (hrun : run Rutinas.step (.start time) calls = some v) :
    Kept bombaLimits (pumpLog time calls) v.bomba := by
  have hstep : ∀ os (s : Rutinas) clock s', clock ∈ calls →
      Kept bombaLimits (os.filterMap Issued.bomba?) s.bomba → s.step clock = some s' →
        Kept bombaLimits ((os ++ s.issued clock).filterMap Issued.bomba?) s'.bomba := by
    intro os s clock s' _ hkept hs'
    have hcall := comprobarRutinas_bomba clock s
    have hcycle : s'.bomba = (DutyCycle.pass bombaLimits clock s.bomba).cycle := by
      rw [← Option.some.inj hs', hcall.cycle]
    rw [List.filterMap_append, filterMap_issued, hcycle]
    exact hkept.pass
  exact run_outputs (fun os s => Kept bombaLimits (os.filterMap Issued.bomba?) s.bomba) hstep
    (kept_nil rfl) hrun

theorem timely_pumpLog {time : ℤ} {calls : List Clock} {v : Rutinas}
    (hcalls : ∀ clock ∈ calls, Monotone clock)
    (hrun : run Rutinas.step (.start time) calls = some v) : Timely (pumpLog time calls) := by
  have hstep : ∀ os (s : Rutinas) clock s', clock ∈ calls →
      Timely (os.filterMap Issued.bomba?) → s.step clock = some s' →
        Timely ((os ++ s.issued clock).filterMap Issued.bomba?) := by
    intro os s clock s' hclock htimely _
    rw [List.filterMap_append, filterMap_issued]
    intro switch hswitch
    rcases List.mem_append.mp hswitch with hold | hnew
    · exact htimely switch hold
    · exact timely_pass (hcalls clock hclock) switch hnew
  have hinit : Timely (([] : List Issued).filterMap Issued.bomba?) :=
    fun _ hs => absurd hs List.not_mem_nil
  exact run_outputs (fun os _ => Timely (os.filterMap Issued.bomba?)) hstep hinit hrun

theorem spaced_pumpLog {time : ℤ} {calls : List Clock} {v : Rutinas}
    (hcalls : ∀ clock ∈ calls, Monotone clock)
    (hrun : run Rutinas.step (.start time) calls = some v) :
    (starts (pumpLog time calls)).Pairwise fun a b => b.reading - a.stored > 90 :=
  (kept_pumpLog hrun).regular.spaced (by decide) (by decide) (timely_pumpLog hcalls hrun)

/-! ## The lights -/

/-- How often the pump has been switched on. -/
def enables (issued : List Issued) : ℕ := issued.countP fun i => i.command = .enableWaterFlow

/-- `flag_leds` tells the parity. -/
def Lit (issued : List Issued) (v : Rutinas) : Prop := v.flagLeds = true ↔ Even (enables issued)

section Lit

variable {clock : Clock} {ant limit : ℤ} {command : Command} {store : ℤ → Rutinas} {e : Call}
  {before : List Issued}

/-- A block that does not start the pump keeps it. -/
theorem lit_timed (h : Lit (before ++ e.issued) e.vars)
    (hstore : ∀ time, (store time).flagLeds = e.vars.flagLeds)
    (hcommand : command ≠ .enableWaterFlow) :
    Lit (before ++ (timed clock ant limit command store e).issued)
      (timed clock ant limit command store e).vars := by
  unfold timed
  split_ifs
  · show (store _).flagLeds = true ↔ _
    have hcount : enables (before ++ (e.issued ++
        [⟨command, clock e.reads, clock (e.reads + 1)⟩])) =
          enables (before ++ e.issued) := by
      rw [enables, ← List.append_assoc, List.countP_append, List.countP_singleton,
        if_neg (by simpa using hcommand)]
      rfl
    rw [hstore, hcount]
    exact h
  · exact h

theorem lit_bombaOn (h : Lit (before ++ e.issued) e.vars) :
    Lit (before ++ (bombaOn clock e).issued) (bombaOn clock e).vars := by
  unfold bombaOn timed
  split_ifs
  · show (!e.vars.flagLeds) = true ↔ _
    have hcount : enables (before ++ (e.issued ++
        [⟨.enableWaterFlow, clock e.reads, clock (e.reads + 1)⟩])) =
          enables (before ++ e.issued) + 1 := by
      rw [enables, ← List.append_assoc, List.countP_append, List.countP_singleton, if_pos (by simp)]
      rfl
    have hlit : e.vars.flagLeds = true ↔ Even (enables (before ++ e.issued)) := h
    rw [hcount, Nat.even_add_one, ← hlit, Bool.not_eq_true', Bool.not_eq_true]
  · exact h

/-- **A call** keeps it: the lights change with each start of the pump. -/
theorem lit_comprobarRutinas {v : Rutinas} (h : Lit before v) :
    Lit (before ++ (comprobarRutinas clock v).issued) (comprobarRutinas clock v).vars := by
  have hstart : Lit (before ++ (⟨v, 0, []⟩ : Call).issued) (⟨v, 0, []⟩ : Call).vars := by
    simpa using h
  have hoff : Lit (before ++ (bombaOff clock ⟨v, 0, []⟩).issued)
      (bombaOff clock ⟨v, 0, []⟩).vars := by
    unfold bombaOff
    split_ifs
    · exact lit_timed hstart (fun _ => rfl) nofun
    · exact hstart
  have hmodemOff : ∀ e, Lit (before ++ e.issued) e.vars →
      Lit (before ++ (modemOff clock e).issued) (modemOff clock e).vars := by
    intro e he
    unfold modemOff
    split_ifs
    · exact lit_timed he (fun _ => rfl) nofun
    · exact he
  have hmodemOn : ∀ e, Lit (before ++ e.issued) e.vars →
      Lit (before ++ (modemOn clock e).issued) (modemOn clock e).vars := by
    intro e he
    unfold modemOn
    split_ifs
    · exact he
    · exact lit_timed he (fun _ => rfl) nofun
  unfold comprobarRutinas
  dsimp only
  split_ifs
  · exact hoff
  · exact hmodemOn _ (hmodemOff _ (lit_bombaOn hoff))

end Lit

theorem lit_run {time : ℤ} {calls : List Clock} {v : Rutinas}
    (hrun : run Rutinas.step (.start time) calls = some v) :
    Lit (trace Rutinas.step Rutinas.issued (.start time) calls) v := by
  have hstep : ∀ os (s : Rutinas) clock s', clock ∈ calls → Lit os s → s.step clock = some s' →
      Lit (os ++ s.issued clock) s' := by
    intro os s clock s' _ hlit hs'
    rw [← Option.some.inj hs']
    exact lit_comprobarRutinas hlit
  exact run_outputs Lit hstep (iff_of_true rfl Even.zero) hrun

/-! ## One call -/

/-- What a call does about the pump: it acts on what its checks read. -/
structure Acts (v : Rutinas) (clock : Clock) : Prop where
  /-- If the pump has run for more than 30 s it is switched off.  It is on after the call
  only if the second check reads more than 60 s since the time just stored. -/
  long_on : v.flagBomba = true → clock 0 - v.timeBomba > 30 →
    ⟨.disableWaterFlow, clock 0, clock 1⟩ ∈ v.issued clock ∧
      ((comprobarRutinas clock v).vars.flagBomba = true ↔ clock 2 - clock 1 > 60)
  /-- If it has been off for more than 60 s it is on after the call. -/
  long_off : v.flagBomba = false → clock 0 - v.timeAnt > 60 →
    (comprobarRutinas clock v).vars.flagBomba = true

theorem acts (v : Rutinas) (clock : Clock) : Acts v clock := by
  have hcall := comprobarRutinas_bomba clock v
  have hflag : (comprobarRutinas clock v).vars.flagBomba =
      (DutyCycle.pass bombaLimits clock v.bomba).cycle.on := congrArg Cycle.on hcall.cycle
  constructor
  · intro hon hlong
    have hcycle : v.bomba.on = true := hon
    have hdue : v.bomba.Due bombaLimits (clock 0) := by
      rw [Cycle.Due, Cycle.since_of_on hcycle, hcycle]
      exact hlong
    rw [hflag, pass_of_due hcycle hdue]
    refine ⟨?_, ?_⟩
    · have hswitch : ⟨false, clock 0, clock 1⟩ ∈ (v.issued clock).filterMap Issued.bomba? := by
        rw [filterMap_issued, pass_of_due hcycle hdue]
        exact switches_subset_check _ (List.mem_singleton.mpr rfl)
      obtain ⟨issued, hissued, hbomba⟩ := List.mem_filterMap.mp hswitch
      rwa [← Issued.eq_of_bomba? hbomba]
    · have hsecond : ((v.bomba.switch (clock 1)).Due bombaLimits (clock 2)) ↔
          clock 2 - clock 1 > 60 := by
        rw [Cycle.Due, Cycle.switch_since, Cycle.switch_on, hcycle]
        rfl
      rw [check_on, ← hsecond]
      simp [hcycle]
  · intro hoff hlong
    have hcycle : v.bomba.on = false := hoff
    have hdue : v.bomba.Due bombaLimits (clock 0) := by
      rw [Cycle.Due, Cycle.since_of_off hcycle, hcycle]
      exact hlong
    rw [hflag, pass_of_off hcycle, check_on, if_pos hdue, hcycle]
    rfl

/-! ## The schedule -/

/-- **The irrigation schedule.**  In every run from the start of `app_main`, with a clock
that does not go back within a call, the commands of the pump alternate and keep to
the limits, starts are more than 90 s apart, the lights tell the parity of the starts,
and every call acts on what its checks read. -/
theorem irrigation_schedule {time : ℤ} {calls : List Clock} {v : Rutinas}
    (hcalls : ∀ clock ∈ calls, Monotone clock)
    (hrun : run Rutinas.step (.start time) calls = some v) :
    Regular ⟨30, 60⟩ (pumpLog time calls) ∧
      (starts (pumpLog time calls)).Pairwise (fun a b => b.stored - a.stored > 90) ∧
      (v.flagLeds = true ↔
        Even (enables (trace Rutinas.step Rutinas.issued (.start time) calls))) ∧
      ∀ before clock after w, calls = before ++ clock :: after →
        run Rutinas.step (.start time) before = some w → Acts w clock := by
  have hregular := (kept_pumpLog hrun).regular
  have hspaced := spaced_pumpLog hcalls hrun
  refine ⟨hregular, hspaced.imp_of_mem fun _ hb hab => ?_, lit_run hrun, ?_⟩
  · have hstored := timely_pumpLog hcalls hrun _ (List.mem_of_mem_filter hb)
    omega
  intro before clock after w _ _
  exact acts w clock

/-- A clock that reads `first`, and `later` from the third reading on. -/
def jump (first later : ℤ) : Clock := fun k => if k < 2 then first else later

theorem jump_monotone {first later : ℤ} (h : first ≤ later) : Monotone (jump first later) := by
  intro j k hjk
  unfold jump
  split_ifs <;> omega

/-- A start after 61 s, a stop 31 s later, and a call in which the clock jumps. -/
def jumpingCalls : List Clock := [jump 61 61, jump 92 153]

theorem irrigation_schedule_jumping :
    ∃ v, run Rutinas.step (.start 0) jumpingCalls = some v ∧
      Regular ⟨30, 60⟩ (pumpLog 0 jumpingCalls) ∧
      (starts (pumpLog 0 jumpingCalls)).Pairwise (fun a b => b.stored - a.stored > 90) ∧
      (v.flagLeds = true ↔
        Even (enables (trace Rutinas.step Rutinas.issued (.start 0) jumpingCalls))) ∧
      ∀ before clock after w, jumpingCalls = before ++ clock :: after →
        run Rutinas.step (.start 0) before = some w → Acts w clock := by
  have hcalls : ∀ clock ∈ jumpingCalls, Monotone clock := by
    intro clock hclock
    rcases List.mem_cons.mp hclock with rfl | hclock
    · exact jump_monotone (le_refl _)
    · rw [List.mem_singleton.mp hclock]
      exact jump_monotone (by omega)
  exact ⟨_, rfl, irrigation_schedule hcalls rfl⟩

/-- The last of these calls finds the pump on for 31 s, and leaves it on. -/
theorem on_again :
    Monotone (jump 61 61) ∧ Monotone (jump 92 153) ∧
      ∃ w, run Rutinas.step (.start 0) [jump 61 61] = some w ∧ w.flagBomba = true ∧
        jump 92 153 0 - w.timeBomba > 30 ∧
        (comprobarRutinas (jump 92 153) w).vars.flagBomba = true :=
  ⟨jump_monotone (le_refl _), jump_monotone (by omega), _, rfl, by decide, by decide, by decide⟩

end HydroponicCloset.Schedule
