import HydroponicCloset.App.OuterLoop
import HydroponicCloset.App.Routines
import HydroponicCloset.Provisioning.Inbox
import HydroponicCloset.Channels.Routing
import HydroponicCloset.Wifi.Station

/-!
# The whole program

The parts of the program run side by side.  The main task goes through `app_main`: passes
of the outer loop, iterations of the waiting loop, the wait in `wifi_init_sta`, and calls
of `comprobar_rutinas` in the endless loop.  The Bluetooth controller calls `host_rcv_pkt`
in a task of its own once `init_bt` has registered it, and the event task calls
`wifi_sta_event_handler` once `wifi_init_sta` has registered that.  They share `fi` and
`content`, and `*wifi_ok`.

An occurrence is a step of one of them, or a restart of the chip: by the event handler, by
a failed check, or because the power was off.  Then everything begins again, on the same
clock; after the event handler has called `esp_restart` nothing else happens.

Steps are whole here.  A packet is handled between two iterations of the waiting loop, not
within one.  And a call of `host_rcv_pkt` returns: a PUT that keeps the header loop for ever,
as a header of length zero does, is no occurrence.  In the program it holds up the task of the
controller only, and its Name and Body have been stored by then.  What is said of runs is
therefore said of those in which there is no such PUT, and iterations are atomic.

`next_of_step` lists what an occurrence can do.
-/

namespace HydroponicCloset.System

open CMemory DutyCycle Runs Bluetooth App Provisioning Channels Wifi

/-- Where the main task is: at the start of `while(1)`, in `while(salir)`, in
`xEventGroupWaitBits`, or in `for(;;)`. -/
inductive Phase
  | outer
  | waiting
  | connecting
  | endless
  deriving DecidableEq

/-- The variables of all the parts; `*wifi_ok` is the station's. -/
structure Closet where
  phase : Phase
  device : Device
  tasks : Tasks
  registered : Bool
  station : Station
  rutinas : Rutinas

/-- A restart of the chip, a packet, a station event, or a step of the main task. -/
inductive Occurrence
  | restart (time : ℤ)
  | packet (packet : Packet)
  | station (event : StationEvent)
  | pass (startBt : Bool) (file : ConfigFile)
  | iteration
  | wakeUp
  | rutinas (clock : Clock)

namespace Closet

/-- `app_main` has read the clock. -/
def start (time : ℤ) : Closet := ⟨.outer, App.waiting, {}, false, {}, .start time⟩

/-- `if(!credentials_recived)`, with what is at `wifi_conf`. -/
def provision (s : Closet) (startBt : Bool) (file : ConfigFile) : Closet :=
  { s with
    tasks := initBt startBt s.tasks
    device := checkConfig s.device file
    phase := match file with
      | .missing => .waiting
      | _ => .outer }

/-- A pass of `while(1)`, up to where it waits. -/
def pass (s : Closet) (startBt : Bool) (file : ConfigFile) : Option Closet :=
  if s.device.credentialsRecived then
    (s.station.step .wifiInitSta).map fun station =>
      { s with station := station, registered := true, phase := .connecting }
  else if s.station.wifiOk then some { s with phase := .endless }
  else some (s.provision startBt file)

/-- `wifi_init_sta` returns, and the pass goes on. -/
def wakeUp (s : Closet) : Option Closet :=
  (s.station.step .wakeUp).map fun station =>
    { s with station := station, phase := if station.wifiOk then .endless else .outer }

/-- An iteration of `while(salir)`. -/
def iteration (s : Closet) : Closet :=
  { s with
    device := loopIteration s.device
    phase := if (loopIteration s.device).salir then .waiting else .outer }

/-- What happens while the chip runs; `none` for what cannot happen now, and for a call
that never returns. -/
def running (s : Closet) : Occurrence → Option Closet
  | .restart _ => none
  | .packet packet =>
      if 0 < s.tasks.send then
        (hostRcvPkt s.device.globals packet).next.map fun g =>
          { s with device := { s.device with globals := g } }
      else none
  | .station event =>
      if s.registered then
        (s.station.step (.station event)).map fun station => { s with station := station }
      else none
  | .pass startBt file => if s.phase = .outer then s.pass startBt file else none
  | .iteration => if s.phase = .waiting then some s.iteration else none
  | .wakeUp => if s.phase = .connecting then s.wakeUp else none
  | .rutinas clock =>
      if s.phase = .endless then
        some { s with rutinas := (comprobarRutinas clock s.rutinas).vars }
      else none

/-- One occurrence.  After `esp_restart` only the restart itself can follow. -/
def step (s : Closet) : Occurrence → Option Closet
  | .restart time => some (start time)
  | o => if s.station.restarted then none else s.running o

/-! ## What an occurrence can do -/

/-- The occurrences, with what they ask of the state. -/
inductive Next (s : Closet) : Occurrence → Closet → Prop
  | restart (time : ℤ) : Next s (.restart time) (start time)
  | packet (packet : Packet) (g : Globals) (hstarted : 0 < s.tasks.send)
      (hreturns : (hostRcvPkt s.device.globals packet).next = some g) :
      Next s (.packet packet) { s with device := { s.device with globals := g } }
  | station (event : StationEvent) (station : Station) (hregistered : s.registered = true)
      (hevent : s.station.step (.station event) = some station) :
      Next s (.station event) { s with station := station }
  | connect (startBt : Bool) (file : ConfigFile) (hphase : s.phase = .outer)
      (hrecived : s.device.credentialsRecived = true) (station : Station)
      (hcall : s.station.step .wifiInitSta = some station) :
      Next s (.pass startBt file)
        { s with station := station, registered := true, phase := .connecting }
  | skip (startBt : Bool) (file : ConfigFile) (hphase : s.phase = .outer)
      (hnone : s.device.credentialsRecived = false) (hok : s.station.wifiOk = true) :
      Next s (.pass startBt file) { s with phase := .endless }
  | provision (startBt : Bool) (file : ConfigFile) (hphase : s.phase = .outer)
      (hnone : s.device.credentialsRecived = false) (hok : s.station.wifiOk = false) :
      Next s (.pass startBt file) (s.provision startBt file)
  | iteration (hphase : s.phase = .waiting) : Next s .iteration s.iteration
  | wakeUp (hphase : s.phase = .connecting) (station : Station)
      (hwake : s.station.step .wakeUp = some station) :
      Next s .wakeUp
        { s with station := station, phase := if station.wifiOk then .endless else .outer }
  | rutinas (clock : Clock) (hphase : s.phase = .endless) :
      Next s (.rutinas clock) { s with rutinas := (comprobarRutinas clock s.rutinas).vars }

theorem next_of_pass {s s' : Closet} {startBt : Bool} {file : ConfigFile}
    (hphase : s.phase = .outer) (h : s.pass startBt file = some s') :
    Next s (.pass startBt file) s' := by
  unfold pass at h
  split_ifs at h with hrecived hok
  · obtain ⟨station, hcall, rfl⟩ := Option.map_eq_some_iff.mp h
    exact .connect startBt file hphase hrecived station hcall
  · obtain rfl := Option.some.inj h
    exact .skip startBt file hphase (Bool.eq_false_iff.mpr hrecived) hok
  · obtain rfl := Option.some.inj h
    exact .provision startBt file hphase (Bool.eq_false_iff.mpr hrecived)
      (Bool.eq_false_iff.mpr hok)

/-- **What an occurrence can do.** -/
theorem next_of_step {s s' : Closet} {o : Occurrence} (h : s.step o = some s') :
    Next s o s' := by
  cases o with
  | restart time =>
      obtain rfl := Option.some.inj h
      exact .restart time
  | packet packet =>
      simp only [step, running] at h
      split_ifs at h with _ hstarted
      obtain ⟨g, hreturns, rfl⟩ := Option.map_eq_some_iff.mp h
      exact .packet packet g hstarted hreturns
  | station event =>
      simp only [step, running] at h
      split_ifs at h with _ hregistered
      obtain ⟨station, hevent, rfl⟩ := Option.map_eq_some_iff.mp h
      exact .station event station hregistered hevent
  | pass startBt file =>
      simp only [step, running] at h
      split_ifs at h with _ hphase
      exact next_of_pass hphase h
  | iteration =>
      simp only [step, running] at h
      split_ifs at h with _ hphase
      obtain rfl := Option.some.inj h
      exact .iteration hphase
  | wakeUp =>
      simp only [step, running] at h
      split_ifs at h with _ hphase
      obtain ⟨station, hwake, rfl⟩ := Option.map_eq_some_iff.mp h
      exact .wakeUp hphase station hwake
  | rutinas clock =>
      simp only [step, running] at h
      split_ifs at h with _ hphase
      obtain rfl := Option.some.inj h
      exact .rutinas clock hphase

end Closet

/-! ## Packets that are not for OBEX -/

/-- The packet goes to `obex_ftp`. -/
def ForObex (g : Globals) (packet : Packet) : Prop :=
  packet 0 = 0x02 ∧ multiplex g packet = .obex

instance (g : Globals) (packet : Packet) : Decidable (ForObex g packet) :=
  inferInstanceAs (Decidable (_ ∧ _))

theorem hostRcvPkt_obex {g : Globals} {packet : Packet} (h : ForObex g packet) :
    hostRcvPkt g packet = obexFtp g packet := by
  obtain ⟨hacl, hobex⟩ := h
  rw [hostRcvPkt_acl g hacl, l2capCmdHandler, hobex]

/-- The globals that hold files are the same. -/
structure SameFiles (g g' : Globals) : Prop where
  buffer1 : g'.buffer1 = g.buffer1
  buffer2 : g'.buffer2 = g.buffer2
  fileLen : g'.fileLen = g.fileLen

theorem SameFiles.refl (g : Globals) : SameFiles g g := ⟨rfl, rfl, rfl⟩

theorem signalling_files (g : Globals) (packet : Packet) :
    SameFiles g (signalling g packet).1 := by
  have hanswer := Framing.signalling_answer g packet
  generalize signalling g packet = answer at hanswer ⊢
  cases hanswer with
  | confReq =>
      unfold confReq
      split_ifs <;> exact ⟨rfl, rfl, rfl⟩
  | _ => exact ⟨rfl, rfl, rfl⟩

/-- **Any other packet** is answered, and changes nothing about the files. -/
theorem hostRcvPkt_other {g : Globals} {packet : Packet} (h : ¬ ForObex g packet) :
    ∃ g', (hostRcvPkt g packet).next = some g' ∧ SameFiles g g' := by
  unfold hostRcvPkt
  split_ifs with hevent hacl
  · exact ⟨g, rfl, .refl g⟩
  · unfold l2capCmdHandler
    cases hmultiplex : multiplex g packet with
    | signalling => exact ⟨_, rfl, signalling_files g packet⟩
    | obex => exact absurd ⟨hacl, hmultiplex⟩ h
    | sdp => exact ⟨g, rfl, .refl g⟩
  · exact ⟨g, rfl, .refl g⟩

end HydroponicCloset.System
