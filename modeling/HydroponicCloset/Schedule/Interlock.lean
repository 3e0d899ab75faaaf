import HydroponicCloset.Actuators.WaterFlow
import HydroponicCloset.Lib.Runs

/-!
# The interlock of pump and valves

The pump must not run against a closed valve.  The routines see to it by the order of their
writes: the valves are opened before the pump is started, and closed after it is stopped.
So the interlock holds after every single write of any sequence of calls, and if only
`comprobar_rutinas` is called, the pump runs exactly while `flag_bomba` says so
(`interlock`).
-/

namespace HydroponicCloset.Schedule

open Runs DutyCycle App Actuators

/-- The pump only runs while both valves are open. -/
def Interlock (l : Levels) : Prop := l.wp = true → l.evEn = true ∧ l.evSw = true

instance (l : Levels) : Decidable (Interlock l) := inferInstanceAs (Decidable (_ → _))

/-! ## Every single write -/

theorem throughout_enable : Throughout gpioSetLevel Interlock enableWaterFlow := by
  rintro ⟨wp, evEn, evSw⟩ hl first hfirst
  rw [← List.mem_inits] at hfirst
  revert first
  cases wp <;> cases evEn <;> cases evSw <;> first | exact absurd hl (by decide) | decide

theorem throughout_disable : Throughout gpioSetLevel Interlock disableWaterFlow := by
  rintro ⟨wp, evEn, evSw⟩ hl first hfirst
  rw [← List.mem_inits] at hfirst
  revert first
  cases wp <;> cases evEn <;> cases evSw <;> first | exact absurd hl (by decide) | decide

theorem throughout_writes (v : Rutinas) (call : WaterCall) :
    Throughout gpioSetLevel Interlock (writes v call) := by
  cases call with
  | comprobarRutinas clock =>
      show Throughout _ _ ((v.issued clock).flatMap fun issued => writesOf issued.command)
      induction v.issued clock with
      | nil => exact throughout_nil
      | cons issued rest ih =>
          rw [List.flatMap_cons]
          apply Throughout.append _ ih
          cases issued.command with
          | enableWaterFlow => exact throughout_enable
          | disableWaterFlow => exact throughout_disable
          | _ => exact throughout_nil
  | enableWaterFlow => exact throughout_enable
  | disableWaterFlow => exact throughout_disable
  | manageWaterFlowRutine => exact throughout_enable.append throughout_disable

/-! ## The pump and its flag -/

/-- The latest switch of the pump among some commands says whether it runs. -/
theorem wp_issued (issued : List Issued) (l : Levels) :
    ((issued.flatMap fun i => writesOf i.command).foldl gpioSetLevel l).wp =
      ((issued.filterMap Issued.bomba?).map Switch.on).getLastD l.wp := by
  induction issued generalizing l with
  | nil => rfl
  | cons i rest ih =>
      rw [List.flatMap_cons, List.foldl_append, ih]
      obtain ⟨command, reading, stored⟩ := i
      cases command with
      | enableWaterFlow =>
          have hswitch : Issued.bomba? ⟨.enableWaterFlow, reading, stored⟩ =
              some ⟨true, reading, stored⟩ := rfl
          rw [List.filterMap_cons_some hswitch, List.map_cons, List.getLastD_cons]
          rfl
      | disableWaterFlow =>
          have hswitch : Issued.bomba? ⟨.disableWaterFlow, reading, stored⟩ =
              some ⟨false, reading, stored⟩ := rfl
          rw [List.filterMap_cons_some hswitch, List.map_cons, List.getLastD_cons]
          rfl
      | _ => rfl

theorem wp_run {time : ℤ} {clocks : List Clock} {v : Rutinas}
    (hrun : run step (.start time) (clocks.map .comprobarRutinas) = some v) :
    ((trace step writes (.start time) (clocks.map .comprobarRutinas)).foldl gpioSetLevel low).wp =
      v.flagBomba := by
  have hstep : ∀ os (v : Rutinas) call v', call ∈ clocks.map WaterCall.comprobarRutinas →
      (os.foldl gpioSetLevel low).wp = v.flagBomba → step v call = some v' →
        ((os ++ writes v call).foldl gpioSetLevel low).wp = v'.flagBomba := by
    intro os v call v' hmem hflag hv'
    obtain ⟨clock, -, rfl⟩ := List.mem_map.mp hmem
    have hcycle : v'.bomba = (DutyCycle.pass bombaLimits clock v.bomba).cycle := by
      rw [← Option.some.inj hv', (comprobarRutinas_bomba clock v).cycle]
    have hon : v'.flagBomba = (DutyCycle.pass bombaLimits clock v.bomba).cycle.on :=
      congrArg Cycle.on hcycle
    have hold : v.bomba.on = v.flagBomba := rfl
    rw [List.foldl_append, hon, ← pass_latest, hold, ← hflag, ← filterMap_issued]
    exact wp_issued (v.issued clock) _
  exact run_outputs (fun os v => (os.foldl gpioSetLevel low).wp = v.flagBomba) hstep rfl hrun

/-- **The interlock of pump and valves.** -/
theorem interlock (time : ℤ) (calls : List WaterCall) :
    (∀ first, first <+: trace step writes (.start time) calls →
        Interlock (first.foldl gpioSetLevel low)) ∧
      ∀ (clocks : List Clock) v, run step (.start time) (clocks.map .comprobarRutinas) = some v →
        ((trace step writes (.start time) (clocks.map .comprobarRutinas)).foldl
          gpioSetLevel low).wp = v.flagBomba := by
  refine ⟨fun first hfirst => ?_, fun clocks v hrun => wp_run hrun⟩
  exact throughout_trace throughout_writes (.start time) calls low nofun first hfirst

end HydroponicCloset.Schedule
