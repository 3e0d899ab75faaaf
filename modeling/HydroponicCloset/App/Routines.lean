import HydroponicCloset.Lib.DutyCycle
import HydroponicCloset.Lib.Runs

/-!
# The routines of the main loop

`comprobar_rutinas` of `main.cpp`, with `get_time` and `duration` of `contador.c`.  A
call takes one reading of the clock for each `get_time`; readings are whole seconds.
The two times of the pump are doubles in the source, and hold them exactly.  The two times
of the modem are of type `int`, and hold those that fit (`FitsInt`); the conversion of any
other is undefined in C, and not modelled.

The pump and the modem are timed in the same way, each by a block that switches it off
and one that switches it on.  `timed` is the body that the four blocks share.  The
blocks of the modem stand inside the second block of the pump, so they are only
reached while the pump is off, or has just been switched on.
-/

namespace HydroponicCloset.App

open DutyCycle

/-- The values of the type `int`, which has 32 bits. -/
def FitsInt (t : ℤ) : Prop := -2147483648 ≤ t ∧ t ≤ 2147483647

instance (t : ℤ) : Decidable (FitsInt t) := inferInstanceAs (Decidable (_ ∧ _))

/-- The calls by which the routines switch the pump and the modem. -/
inductive Command
  | enableWaterFlow
  | disableWaterFlow
  | enableWifiWakeup
  | disableWifiWakeup
  deriving DecidableEq

/-- A command, the reading that it was issued on, and the time stored after it. -/
structure Issued where
  command : Command
  reading : ℤ
  stored : ℤ
  deriving DecidableEq

/-- The file-scope variables of `main.cpp` that the routines use.  Those of the modem are of
type `int`. -/
structure Rutinas where
  flagLeds : Bool := true
  flagBomba : Bool := false
  timeAnt : ℤ := 0
  timeBomba : ℤ := 0
  flagModem : Bool := false
  timeOffModem : ℤ := 0
  timeOnModem : ℤ := 0

/-- The variables when `app_main` has read the clock at its start. -/
def Rutinas.start (time : ℤ) : Rutinas := { timeOffModem := time }

/-- A call of `comprobar_rutinas` under way. -/
structure Call where
  vars : Rutinas
  reads : ℕ
  issued : List Issued

/-- `if (duration(ant) > limit) { command(); … = get_time(); }` -/
def timed (clock : Clock) (ant limit : ℤ) (command : Command) (store : ℤ → Rutinas) (e : Call) :
    Call :=
  if clock e.reads - ant > limit then
    { vars := store (clock (e.reads + 1))
      reads := e.reads + 2
      issued := e.issued ++ [⟨command, clock e.reads, clock (e.reads + 1)⟩] }
  else { e with reads := e.reads + 1 }

/-- The block `if(flag_bomba)`. -/
def bombaOff (clock : Clock) (e : Call) : Call :=
  if e.vars.flagBomba then
    timed clock e.vars.timeBomba 30 .disableWaterFlow
      (fun time => { e.vars with flagBomba := false, timeAnt := time }) e
  else e

/-- The body of `if(!flag_bomba)` that concerns the pump. -/
def bombaOn (clock : Clock) (e : Call) : Call :=
  timed clock e.vars.timeAnt 60 .enableWaterFlow
    (fun time => { e.vars with
      flagBomba := true, timeBomba := time, flagLeds := !e.vars.flagLeds }) e

/-- The block `if(flag_modem)`. -/
def modemOff (clock : Clock) (e : Call) : Call :=
  if e.vars.flagModem then
    timed clock e.vars.timeOnModem 15 .disableWifiWakeup
      (fun time => { e.vars with flagModem := false, timeOffModem := time }) e
  else e

/-- The block `if(!flag_modem)`. -/
def modemOn (clock : Clock) (e : Call) : Call :=
  if e.vars.flagModem then e
  else
    timed clock e.vars.timeOffModem 60 .enableWifiWakeup
      (fun time => { e.vars with flagModem := true, timeOnModem := time }) e

/-- `comprobar_rutinas()` -/
def comprobarRutinas (clock : Clock) (v : Rutinas) : Call :=
  let e := bombaOff clock ⟨v, 0, []⟩
  if e.vars.flagBomba then e else modemOn clock (modemOff clock (bombaOn clock e))

/-- The routines as a machine that takes the readings of each call. -/
def Rutinas.step (v : Rutinas) (clock : Clock) : Option Rutinas :=
  some (comprobarRutinas clock v).vars

/-- The commands of a call. -/
def Rutinas.issued (v : Rutinas) (clock : Clock) : List Issued :=
  (comprobarRutinas clock v).issued

/-! ## Two duty cycles -/

/-- The pump is switched off after 30 s, and on after 60. -/
def bombaLimits : Limits := ⟨30, 60⟩

/-- The modem is switched off after 15 s, and on after 60. -/
def modemLimits : Limits := ⟨15, 60⟩

/-- The variables of the pump. -/
def Rutinas.bomba (v : Rutinas) : Cycle := ⟨v.flagBomba, v.timeBomba, v.timeAnt⟩

/-- The variables of the modem. -/
def Rutinas.modem (v : Rutinas) : Cycle := ⟨v.flagModem, v.timeOnModem, v.timeOffModem⟩

/-- The switch of the pump that a command is. -/
def Issued.bomba? (issued : Issued) : Option Switch :=
  match issued.command with
  | .enableWaterFlow => some ⟨true, issued.reading, issued.stored⟩
  | .disableWaterFlow => some ⟨false, issued.reading, issued.stored⟩
  | _ => none

/-- The switch of the modem that a command is. -/
def Issued.modem? (issued : Issued) : Option Switch :=
  match issued.command with
  | .enableWifiWakeup => some ⟨true, issued.reading, issued.stored⟩
  | .disableWifiWakeup => some ⟨false, issued.reading, issued.stored⟩
  | _ => none

theorem Issued.eq_of_bomba? {issued : Issued} {reading stored : ℤ}
    (h : issued.bomba? = some ⟨false, reading, stored⟩) :
    issued = ⟨.disableWaterFlow, reading, stored⟩ := by
  obtain ⟨command, reading', stored'⟩ := issued
  cases command <;> cases h
  rfl

/-- A call and a pass agree on a device: its cycle, and its switches. -/
structure Agrees (device : Rutinas → Cycle) (switch? : Issued → Option Switch) (e : Call)
    (p : Pass) : Prop where
  cycle : device e.vars = p.cycle
  switches : e.issued.filterMap switch? = p.switches

/-- A call and a pass have the same readings ahead. -/
def Ahead (clock clock' : Clock) (e : Call) (p : Pass) : Prop :=
  ∀ k, clock (e.reads + k) = clock' (p.reads + k)

section Agrees

variable {device : Rutinas → Cycle} {switch? : Issued → Option Switch} {e : Call} {p : Pass}
  {clock clock' : Clock} {limits : Limits} {ant limit : ℤ} {command : Command}
  {store : ℤ → Rutinas}

/-- A block of the device is a check. -/
theorem Agrees.timed (h : Agrees device switch? e p) (hahead : Ahead clock clock' e p)
    (hant : ant = p.cycle.since) (hlimit : limit = limits.of p.cycle.on)
    (hstore : ∀ time, device (store time) = p.cycle.switch time)
    (hcommand : ∀ reading stored,
      switch? ⟨command, reading, stored⟩ = some ⟨!p.cycle.on, reading, stored⟩) :
    Agrees device switch? (timed clock ant limit command store e) (check limits clock' p) ∧
      Ahead clock clock' (App.timed clock ant limit command store e)
        (check limits clock' p) := by
  have hnow : clock e.reads = clock' p.reads := hahead 0
  have hnext : clock (e.reads + 1) = clock' (p.reads + 1) := hahead 1
  by_cases hdue : p.cycle.Due limits (clock' p.reads)
  · have hpast : clock e.reads - ant > limit := by
      rw [hant, hlimit, hnow]
      exact hdue
    rw [App.timed, if_pos hpast, check, if_pos hdue]
    refine ⟨⟨?_, ?_⟩, ?_⟩
    · show device (store _) = _
      rw [hstore, hnext]
    · show (e.issued ++ _).filterMap switch? = _
      rw [List.filterMap_append, h.switches, List.filterMap_cons_some (hcommand _ _), hnow, hnext]
      rfl
    · intro k
      show clock (e.reads + 2 + k) = clock' (p.reads + 2 + k)
      rw [Nat.add_assoc, Nat.add_assoc, hahead]
  · have hearly : ¬ clock e.reads - ant > limit := by
      rw [hant, hlimit, hnow]
      exact hdue
    rw [App.timed, if_neg hearly, check, if_neg hdue]
    refine ⟨⟨h.cycle, h.switches⟩, ?_⟩
    intro k
    show clock (e.reads + 1 + k) = clock' (p.reads + 1 + k)
    rw [Nat.add_assoc, Nat.add_assoc, hahead]

/-- A block that switches the device off. -/
theorem Agrees.timed_off (h : Agrees device switch? e p) (hahead : Ahead clock clock' e p)
    (hon : (device e.vars).on = true) (hant : ant = (device e.vars).onSince)
    (hlimit : limit = limits.on)
    (hstore : ∀ time, device (store time) = { device e.vars with on := false, offSince := time })
    (hcommand : ∀ reading stored,
      switch? ⟨command, reading, stored⟩ = some ⟨false, reading, stored⟩) :
    Agrees device switch? (App.timed clock ant limit command store e) (check limits clock' p) ∧
      Ahead clock clock' (App.timed clock ant limit command store e)
        (check limits clock' p) := by
  apply h.timed hahead
  · rw [hant, ← h.cycle, Cycle.since_of_on hon]
  · rw [hlimit, ← h.cycle, hon]
    rfl
  · intro time
    rw [hstore, ← h.cycle, Cycle.switch_of_on hon]
  · intro reading stored
    rw [hcommand, ← h.cycle, hon]
    rfl

/-- A block that switches it on. -/
theorem Agrees.timed_on (h : Agrees device switch? e p) (hahead : Ahead clock clock' e p)
    (hoff : (device e.vars).on = false) (hant : ant = (device e.vars).offSince)
    (hlimit : limit = limits.off)
    (hstore : ∀ time, device (store time) = { device e.vars with on := true, onSince := time })
    (hcommand : ∀ reading stored,
      switch? ⟨command, reading, stored⟩ = some ⟨true, reading, stored⟩) :
    Agrees device switch? (App.timed clock ant limit command store e) (check limits clock' p) ∧
      Ahead clock clock' (App.timed clock ant limit command store e)
        (check limits clock' p) := by
  apply h.timed hahead
  · rw [hant, ← h.cycle, Cycle.since_of_off hoff]
  · rw [hlimit, ← h.cycle, hoff]
    rfl
  · intro time
    rw [hstore, ← h.cycle, Cycle.switch_of_off hoff]
  · intro reading stored
    rw [hcommand, ← h.cycle, hoff]
    rfl

/-- A block of the other device. -/
theorem Agrees.timed_other (h : Agrees device switch? e p)
    (hstore : ∀ time, device (store time) = device e.vars)
    (hcommand : ∀ reading stored, switch? ⟨command, reading, stored⟩ = none) :
    Agrees device switch? (App.timed clock ant limit command store e) p := by
  unfold App.timed
  split_ifs
  · refine ⟨(hstore _).trans h.cycle, ?_⟩
    rw [List.filterMap_append, h.switches, List.filterMap_cons_none (hcommand _ _)]
    exact List.append_nil _
  · exact ⟨h.cycle, h.switches⟩

end Agrees

variable {clock clock' : Clock} {e : Call} {p : Pass}

/-! ### The pump -/

theorem bombaOff_agrees (h : Agrees Rutinas.bomba Issued.bomba? e p)
    (hahead : Ahead clock clock' e p) :
    Agrees Rutinas.bomba Issued.bomba? (bombaOff clock e) (checkOff bombaLimits clock' p) ∧
      Ahead clock clock' (bombaOff clock e) (checkOff bombaLimits clock' p) := by
  have hon : e.vars.flagBomba = p.cycle.on := congrArg Cycle.on h.cycle
  unfold bombaOff checkOff
  rw [hon]
  split_ifs with hflag
  · exact h.timed_off hahead (hon.trans hflag) rfl rfl (fun _ => rfl) fun _ _ => rfl
  · exact ⟨h, hahead⟩

theorem bombaOn_agrees (h : Agrees Rutinas.bomba Issued.bomba? e p)
    (hahead : Ahead clock clock' e p) (hoff : e.vars.flagBomba = false) :
    Agrees Rutinas.bomba Issued.bomba? (bombaOn clock e) (check bombaLimits clock' p) ∧
      Ahead clock clock' (bombaOn clock e) (check bombaLimits clock' p) :=
  h.timed_on hahead hoff rfl rfl (fun _ => rfl) fun _ _ => rfl

/-- The blocks of the modem leave the pump. -/
theorem modem_keeps_bomba (h : Agrees Rutinas.bomba Issued.bomba? e p) :
    Agrees Rutinas.bomba Issued.bomba? (modemOn clock (modemOff clock e)) p := by
  have hoff : Agrees Rutinas.bomba Issued.bomba? (modemOff clock e) p := by
    unfold modemOff
    split_ifs
    · exact h.timed_other (fun _ => rfl) fun _ _ => rfl
    · exact h
  unfold modemOn
  split_ifs
  · exact hoff
  · exact hoff.timed_other (fun _ => rfl) fun _ _ => rfl

/-- **A call is a pass of the pump**, whatever the modem does. -/
theorem comprobarRutinas_bomba (clock : Clock) (v : Rutinas) :
    Agrees Rutinas.bomba Issued.bomba? (comprobarRutinas clock v)
      (DutyCycle.pass bombaLimits clock v.bomba) := by
  have hstart : Agrees Rutinas.bomba Issued.bomba? ⟨v, 0, []⟩ ⟨v.bomba, 0, []⟩ := ⟨rfl, rfl⟩
  obtain ⟨hoff, hahead⟩ := bombaOff_agrees hstart (fun _ => rfl : Ahead clock clock _ _)
  have hflag : (bombaOff clock ⟨v, 0, []⟩).vars.flagBomba =
      (checkOff bombaLimits clock ⟨v.bomba, 0, []⟩).cycle.on := congrArg Cycle.on hoff.cycle
  unfold comprobarRutinas DutyCycle.pass checkOn
  dsimp only
  rw [← hflag]
  split_ifs with hon
  · exact hoff
  · exact modem_keeps_bomba (bombaOn_agrees hoff hahead (Bool.eq_false_iff.mpr hon)).1

theorem filterMap_issued (v : Rutinas) (clock : Clock) :
    (v.issued clock).filterMap Issued.bomba? =
      (DutyCycle.pass bombaLimits clock v.bomba).switches :=
  (comprobarRutinas_bomba clock v).switches

/-! ### The modem -/

theorem modemOff_agrees (h : Agrees Rutinas.modem Issued.modem? e p)
    (hahead : Ahead clock clock' e p) :
    Agrees Rutinas.modem Issued.modem? (modemOff clock e) (checkOff modemLimits clock' p) ∧
      Ahead clock clock' (modemOff clock e) (checkOff modemLimits clock' p) := by
  have hon : e.vars.flagModem = p.cycle.on := congrArg Cycle.on h.cycle
  unfold modemOff checkOff
  rw [hon]
  split_ifs with hflag
  · exact h.timed_off hahead (hon.trans hflag) rfl rfl (fun _ => rfl) fun _ _ => rfl
  · exact ⟨h, hahead⟩

theorem modemOn_agrees (h : Agrees Rutinas.modem Issued.modem? e p)
    (hahead : Ahead clock clock' e p) :
    Agrees Rutinas.modem Issued.modem? (modemOn clock e) (checkOn modemLimits clock' p) := by
  have hon : e.vars.flagModem = p.cycle.on := congrArg Cycle.on h.cycle
  unfold modemOn checkOn
  rw [hon]
  split_ifs with hflag
  · exact h
  · have hoff : e.vars.modem.on = false := hon.trans (Bool.eq_false_iff.mpr hflag)
    exact And.left (h.timed_on hahead hoff rfl rfl (fun _ => rfl) fun _ _ => rfl)

/-- The pump is on, and stays on: the blocks of the modem are not reached. -/
def Rutinas.Shut (v : Rutinas) (clock : Clock) : Prop :=
  v.flagBomba = true ∧ ¬ v.bomba.Due bombaLimits (clock 0)

instance (v : Rutinas) (clock : Clock) : Decidable (v.Shut clock) :=
  inferInstanceAs (Decidable (_ ∧ _))

theorem bombaOff_flagBomba (clock : Clock) (v : Rutinas) :
    (bombaOff clock ⟨v, 0, []⟩).vars.flagBomba = true ↔ v.Shut clock := by
  have hstart : Agrees Rutinas.bomba Issued.bomba? ⟨v, 0, []⟩ ⟨v.bomba, 0, []⟩ := ⟨rfl, rfl⟩
  obtain ⟨hoff, -⟩ := bombaOff_agrees hstart (fun _ => rfl : Ahead clock clock _ _)
  have hflag : (bombaOff clock ⟨v, 0, []⟩).vars.flagBomba =
      (checkOff bombaLimits clock ⟨v.bomba, 0, []⟩).cycle.on := congrArg Cycle.on hoff.cycle
  have hon : v.bomba.on = v.flagBomba := rfl
  rw [hflag, checkOff, Rutinas.Shut]
  cases hbomba : v.flagBomba with
  | false => simp [hon, hbomba]
  | true => simp [check_on, hon, hbomba]

/-- The blocks before those of the modem leave it. -/
theorem bomba_keeps_modem (clock : Clock) (v : Rutinas) :
    Agrees Rutinas.modem Issued.modem? (bombaOff clock ⟨v, 0, []⟩) ⟨v.modem, 0, []⟩ ∧
      Agrees Rutinas.modem Issued.modem? (bombaOn clock (bombaOff clock ⟨v, 0, []⟩))
        ⟨v.modem, 0, []⟩ := by
  have hstart : Agrees Rutinas.modem Issued.modem? ⟨v, 0, []⟩ ⟨v.modem, 0, []⟩ := ⟨rfl, rfl⟩
  have hoff : Agrees Rutinas.modem Issued.modem? (bombaOff clock ⟨v, 0, []⟩)
      ⟨v.modem, 0, []⟩ := by
    unfold bombaOff
    split_ifs
    · exact hstart.timed_other (fun _ => rfl) fun _ _ => rfl
    · exact hstart
  exact ⟨hoff, hoff.timed_other (fun _ => rfl) fun _ _ => rfl⟩

/-- **While the pump stays on** a call leaves the modem. -/
theorem comprobarRutinas_shut {clock : Clock} {v : Rutinas} (h : v.Shut clock) :
    (comprobarRutinas clock v).vars.modem = v.modem := by
  unfold comprobarRutinas
  dsimp only
  rw [if_pos ((bombaOff_flagBomba clock v).mpr h)]
  exact (bomba_keeps_modem clock v).1.cycle

/-- **Otherwise a call is a pass of the modem**, on the readings that the pump leaves. -/
theorem comprobarRutinas_modem {clock : Clock} {v : Rutinas} (h : ¬ v.Shut clock) :
    ∃ n, Agrees Rutinas.modem Issued.modem? (comprobarRutinas clock v)
      (DutyCycle.pass modemLimits (fun k => clock (n + k)) v.modem) := by
  refine ⟨(bombaOn clock (bombaOff clock ⟨v, 0, []⟩)).reads, ?_⟩
  have hopen : ¬ (bombaOff clock ⟨v, 0, []⟩).vars.flagBomba = true :=
    fun hflag => h ((bombaOff_flagBomba clock v).mp hflag)
  obtain ⟨hoff, hahead⟩ := modemOff_agrees (bomba_keeps_modem clock v).2
    (show Ahead clock (fun k => clock ((bombaOn clock (bombaOff clock ⟨v, 0, []⟩)).reads + k))
      _ ⟨v.modem, 0, []⟩ from fun k => by rw [Nat.zero_add])
  unfold comprobarRutinas
  dsimp only
  rw [if_neg hopen]
  exact modemOn_agrees hoff hahead

end HydroponicCloset.App
