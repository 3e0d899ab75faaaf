import HydroponicCloset.App.Routines

/-!
# The water flow

`water_flow.c`: the pump and two valves, each on an output of its own.  The routines set
the outputs one after the other, and wait in between; so a routine is a list of writes.

`comprobar_rutinas` issues two of the commands, and the other routines can be called by
themselves.
-/

namespace HydroponicCloset.Actuators

open DutyCycle App

/-- `GPIO_CHANNEL_WP`, `GPIO_CHANNEL_EV_EN` and `GPIO_CHANNEL_EV_SW`. -/
inductive Channel
  | wp
  | evEn
  | evSw
  deriving DecidableEq

/-- A call of `gpio_set_level`. -/
structure Write where
  channel : Channel
  level : Bool

/-- The levels of the outputs. -/
structure Levels where
  wp : Bool
  evEn : Bool
  evSw : Bool

/-- The levels after `config_water_flow_channel`. -/
def low : Levels := ⟨false, false, false⟩

/-- `gpio_set_level(channel, level)` -/
def gpioSetLevel (l : Levels) (w : Write) : Levels :=
  match w.channel with
  | .wp => { l with wp := w.level }
  | .evEn => { l with evEn := w.level }
  | .evSw => { l with evSw := w.level }

/-- `enable_water_flow()` -/
def enableWaterFlow : List Write := [⟨.evEn, true⟩, ⟨.evSw, true⟩, ⟨.wp, true⟩]

/-- `disable_water_flow()` -/
def disableWaterFlow : List Write := [⟨.wp, false⟩, ⟨.evEn, true⟩, ⟨.evSw, false⟩]

/-- `manage_water_flow_rutine()`, without its delays. -/
def manageWaterFlowRutine : List Write := enableWaterFlow ++ disableWaterFlow

/-- What a command that `comprobar_rutinas` issues sets. -/
def writesOf : Command → List Write
  | .enableWaterFlow => enableWaterFlow
  | .disableWaterFlow => disableWaterFlow
  | .enableWifiWakeup => []
  | .disableWifiWakeup => []

/-- The calls that reach the outputs. -/
inductive WaterCall
  | comprobarRutinas (clock : Clock)
  | enableWaterFlow
  | disableWaterFlow
  | manageWaterFlowRutine

/-- The variables of the routines after a call. -/
def step (v : Rutinas) : WaterCall → Option Rutinas
  | .comprobarRutinas clock => v.step clock
  | _ => some v

/-- The outputs that a call sets, in order. -/
def writes (v : Rutinas) : WaterCall → List Write
  | .comprobarRutinas clock => (v.issued clock).flatMap fun issued => writesOf issued.command
  | .enableWaterFlow => enableWaterFlow
  | .disableWaterFlow => disableWaterFlow
  | .manageWaterFlowRutine => manageWaterFlowRutine

end HydroponicCloset.Actuators
