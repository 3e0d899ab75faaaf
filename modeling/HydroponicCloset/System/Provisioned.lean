import HydroponicCloset.System.Closet

/-!
# From a file to the pump

What the parts do together, whatever else happens between their steps.

* `accepted_iff`: the credentials are those that some iteration of the waiting loop found
  in the packets for OBEX and the iterations before it.  Events of the controller,
  signalling, service discovery, passes that find a stored file, and the station have no
  part in it.
* `watering_provisioned`: since the latest restart, every call of `comprobar_rutinas` was
  preceded by such an iteration, then a call of `wifi_init_sta`, then a got-IP event, and
  then the return of the call.  The credentials are kept in memory only, so after a
  restart the closet is not watered until they have been sent again.

As in all of `Closet`, every call of `host_rcv_pkt` returns, and an iteration is one step.
-/

namespace HydroponicCloset.System

open CMemory DutyCycle Runs Bluetooth App Provisioning Channels Wifi
open scoped List

variable {time : ℤ} {os : List Occurrence} {s s' : Closet}

/-! ## The inbox of the closet -/

/-- What an occurrence is for the shared buffers. -/
def Closet.fileEvents (s : Closet) : Occurrence → List App.Event
  | .packet packet => if ForObex s.device.globals packet then [.packet packet] else []
  | .iteration => [.iteration]
  | _ => []

/-- The packets for OBEX and the iterations of a run. -/
def fileLog (time : ℤ) (os : List Occurrence) : List App.Event :=
  trace Closet.step Closet.fileEvents (.start time) os

/-- The device shows the inbox of the file events so far, and the waiting loop runs only
while `salir` is set. -/
def Follows (log : List App.Event) (s : Closet) : Prop :=
  ∃ b, run Inbox.step {} log = some b ∧ Shows s.device b ∧
    (s.phase = .waiting → s.device.salir = true)

theorem Shows.sameFiles {d : Device} {b : Inbox} {g : Globals} (h : Shows d b)
    (hsame : SameFiles d.globals g) : Shows { d with globals := g } b := by
  refine ⟨?_, ?_, h.salir, h.recived, h.stored⟩
  · show g.buffer1.Holds _
    rw [hsame.buffer1]
    exact h.name
  · show g.buffer2.Holds _
    rw [hsame.buffer2]
    exact h.content

/-- The Bluetooth stack has no part in it. -/
theorem checkConfig_globals (d : Device) (file : ConfigFile) :
    (checkConfig d file).globals = d.globals := by
  unfold checkConfig
  split_ifs
  · rfl
  · cases file with
    | missing => rfl
    | directory => rfl
    | regular content =>
        simp only [readConfig]
        split_ifs <;> rfl

theorem checkConfig_salir {d : Device} (hsalir : d.salir = true) (file : ConfigFile) :
    (checkConfig d file).salir = true := by
  unfold checkConfig
  split_ifs
  · exact hsalir
  · cases file with
    | missing => rfl
    | directory => exact hsalir
    | regular content =>
        simp only [readConfig]
        split_ifs <;> exact hsalir

/-- A stored file is scanned into `ssid` and `pass`, and not accepted. -/
theorem Shows.checkConfig {d : Device} {b : Inbox} (h : Shows d b)
    (hnone : d.credentialsRecived = false) (file : ConfigFile) : Shows (checkConfig d file) b := by
  have hempty : b.credentials = none := by
    have hrecived := h.recived
    rw [hnone] at hrecived
    exact Option.isSome_eq_false_iff.mp hrecived.symm |> Option.isNone_iff_eq_none.mp
  have hsalir : d.salir = true := by
    rw [h.salir, hempty]
    rfl
  refine ⟨?_, ?_, ?_, ?_, ?_⟩
  · rw [checkConfig_globals]
    exact h.name
  · rw [checkConfig_globals]
    exact h.content
  · rw [checkConfig_salir hsalir, hempty]
    rfl
  · rw [checkConfig_credentialsRecived]
    exact h.recived
  · intro ssid pass hc
    rw [hempty] at hc
    cases hc

/-- **One occurrence**, unless the chip restarts. -/
theorem Follows.next {log : List App.Event} {o : Occurrence} (h : Follows log s)
    (hnext : s.Next o s') (hrestart : ∀ time, o ≠ .restart time) :
    Follows (log ++ s.fileEvents o) s' := by
  obtain ⟨b, hb, hshows, hsalir⟩ := h
  cases hnext with
  | restart time => exact absurd rfl (hrestart time)
  | packet packet g _ hreturns =>
      by_cases hobex : ForObex s.device.globals packet
      · rw [hostRcvPkt_obex hobex] at hreturns
        have hdevice : s.device.step (.packet packet) = some { s.device with globals := g } := by
          rw [Device.step, hreturns]
          rfl
        obtain ⟨b', hb', hshows'⟩ := shows_step hshows hdevice
        refine ⟨b', ?_, hshows', hsalir⟩
        rw [Closet.fileEvents, if_pos hobex, run_concat, hb]
        exact hb'
      · obtain ⟨g', hg', hsame⟩ := hostRcvPkt_other hobex
        rw [hreturns] at hg'
        obtain rfl := Option.some.inj hg'
        refine ⟨b, ?_, Shows.sameFiles hshows hsame, hsalir⟩
        rw [Closet.fileEvents, if_neg hobex, List.append_nil, hb]
  | station event station _ _ => exact ⟨b, by simpa [Closet.fileEvents] using hb, hshows, hsalir⟩
  | connect startBt file _ _ station _ =>
      exact ⟨b, by simpa [Closet.fileEvents] using hb, hshows, by simp⟩
  | skip startBt file _ _ _ => exact ⟨b, by simpa [Closet.fileEvents] using hb, hshows, by simp⟩
  | provision startBt file hphase hnone _ =>
      refine ⟨b, by simpa [Closet.fileEvents] using hb, Shows.checkConfig hshows hnone file, ?_⟩
      intro hwaiting
      cases file with
      | missing =>
          show (App.checkConfig s.device .missing).salir = true
          rw [App.checkConfig, if_neg (by simp [hnone])]
      | directory => cases hwaiting
      | regular content => cases hwaiting
  | iteration hphase =>
      have hdevice : s.device.step .iteration = some (loopIteration s.device) := by
        rw [Device.step, if_pos (hsalir hphase)]
      obtain ⟨b', hb', hshows'⟩ := shows_step hshows hdevice
      refine ⟨b', ?_, hshows', ?_⟩
      · rw [Closet.fileEvents, run_concat, hb]
        exact hb'
      · intro hwaiting
        have hphase' : s.iteration.phase =
            if (loopIteration s.device).salir then .waiting else .outer := rfl
        rw [hphase'] at hwaiting
        split_ifs at hwaiting with hloop
        exact hloop
  | wakeUp hphase station _ =>
      refine ⟨b, by simpa [Closet.fileEvents] using hb, hshows, ?_⟩
      intro hwaiting
      dsimp only at hwaiting
      split_ifs at hwaiting
  | rutinas clock _ => exact ⟨b, by simpa [Closet.fileEvents] using hb, hshows, hsalir⟩

/-- The chip does not restart. -/
def OneBoot (os : List Occurrence) : Prop := ∀ time, .restart time ∉ os

theorem OneBoot.append {first second : List Occurrence} (h : OneBoot first) (h' : OneBoot second) :
    OneBoot (first ++ second) := by
  intro time hmem
  rcases List.mem_append.mp hmem with hfirst | hsecond
  · exact h time hfirst
  · exact h' time hsecond

theorem OneBoot.cons {o : Occurrence} (h : OneBoot os) (ho : ∀ time, o ≠ .restart time) :
    OneBoot (o :: os) := by
  intro time hmem
  rcases List.mem_cons.mp hmem with heq | hmem
  · exact ho time heq.symm
  · exact h time hmem

theorem follows_run (hboot : OneBoot os) (hrun : run Closet.step (.start time) os = some s) :
    Follows (fileLog time os) s := by
  refine run_outputs Follows ?_ ?_ hrun
  · intro log s o s' ho hlog hstep
    refine hlog.next (Closet.next_of_step hstep) fun time heq => ?_
    exact hboot time (heq ▸ ho)
  · refine ⟨{}, rfl, ⟨?_, ?_, rfl, rfl, nofun⟩, nofun⟩
    · exact (by decide : zeroed.Holds [])
    · exact (by decide : zeroed.Holds [])

/-- A phone sends the file on its OBEX channel, and the station connects. -/
def phoneSession : List Occurrence :=
  [.pass true .missing, .packet (connectPacket 0x1009 0x50),
    .packet (Obex.putPacket phoneHeaders), .iteration, .pass true .missing, .station .started,
    .station .gotIp, .wakeUp]

theorem run_phoneSession :
    (run Closet.step (.start 0) phoneSession).map (fun s => (s.phase, s.station.restarted)) =
      some (.endless, false) := by
  decide +kernel

/-- **Where credentials come from**, between two restarts. -/
theorem accepted_iff {ssid pass : List UInt8} (hboot : OneBoot os) (hssid : 0 ∉ ssid)
    (hpass : 0 ∉ pass) (hrun : run Closet.step (.start time) os = some s) :
    Provisioned s.device ssid pass ↔ Found (fileLog time os) (ssid, pass) := by
  obtain ⟨b, hb, hshows, -⟩ := follows_run hboot hrun
  exact hshows.provisioned_iff_found hssid hpass hb

theorem accepted_iff_phone :
    ∃ s, run Closet.step (.start 0) phoneSession = some s ∧
      (Provisioned s.device (ascii "net") (ascii "key") ↔
        Found (fileLog 0 phoneSession) (ascii "net", ascii "key")) := by
  obtain ⟨s, hrun, -⟩ := Option.map_eq_some_iff.mp run_phoneSession
  have hboot : OneBoot phoneSession := by
    intro time hmem
    simp [phoneSession] at hmem
  exact ⟨s, hrun, accepted_iff hboot (by decide) (by decide) hrun⟩

/-! ## What comes before what -/

/-- The milestones on the way to the endless loop; a call of `wifi_init_sta` with its
arguments. -/
inductive Milestone
  | accepted
  | wifiInitSta (ssid pass : Buffer)
  | gotIp
  | connected

/-- The milestones that an occurrence is. -/
def Closet.milestones (s : Closet) : Occurrence → List Milestone
  | .iteration => if (loopIteration s.device).credentialsRecived then [.accepted] else []
  | .pass _ _ =>
      if s.device.credentialsRecived then [.wifiInitSta s.device.ssid s.device.pass] else []
  | .station .gotIp => [.gotIp]
  | .wakeUp => if s.station.eventGroup.connectedBit then [.connected] else []
  | _ => []

/-- The milestones of a run. -/
def milestoneLog (time : ℤ) (os : List Occurrence) : List Milestone :=
  trace Closet.step Closet.milestones (.start time) os

/-- The milestones up to the call of `wifi_init_sta`, with the credentials of the device. -/
def uptoCall (s : Closet) : List Milestone :=
  [.accepted, .wifiInitSta s.device.ssid s.device.pass]

/-- What a stage takes: the milestones before it, in this order.  The waiting loop runs
before the first of them. -/
structure Stages (log : List Milestone) (s : Closet) : Prop where
  waiting : s.phase = .waiting → s.device.credentialsRecived = false
  recived : s.device.credentialsRecived = true → [.accepted] <+ log
  registered : s.registered = true → s.device.credentialsRecived = true ∧ uptoCall s <+ log
  connected : s.station.eventGroup.connectedBit = true →
    s.registered = true ∧ uptoCall s ++ [.gotIp] <+ log
  ok : s.station.wifiOk = true →
    s.registered = true ∧ uptoCall s ++ [.gotIp] ++ [.connected] <+ log
  endless : s.phase = .endless → s.station.wifiOk = true

variable {log : List Milestone}

/-- What has occurred has occurred later on. -/
theorem sublist_later {before log : List Milestone} (h : before <+ log) (new : List Milestone) :
    before <+ log ++ new :=
  h.trans (List.sublist_append_left log new)

theorem concat_sublist {before log : List Milestone} (h : before <+ log) (m : Milestone) :
    before ++ [m] <+ log ++ [m] :=
  h.append (List.Sublist.refl [m])

/-- An occurrence that leads to no new stage. -/
theorem Stages.later (h : Stages log s) (new : List Milestone)
    (hwaiting : s'.phase = .waiting → s'.device.credentialsRecived = false)
    (hrecived : s'.device.credentialsRecived = s.device.credentialsRecived)
    (hcredentials : s.registered = true →
      s'.device.ssid = s.device.ssid ∧ s'.device.pass = s.device.pass)
    (hregistered : s'.registered = s.registered) (hstation : s'.station = s.station)
    (hendless : s'.phase = .endless → s.station.wifiOk = true) : Stages (log ++ new) s' := by
  have hupto : s.registered = true → uptoCall s' = uptoCall s := by
    intro hs
    obtain ⟨hssid, hpass⟩ := hcredentials hs
    rw [uptoCall, hssid, hpass, uptoCall]
  refine ⟨hwaiting, ?_, ?_, ?_, ?_, ?_⟩
  · rw [hrecived]
    exact fun hs => sublist_later (h.recived hs) new
  · rw [hregistered, hrecived]
    intro hs
    obtain ⟨hbefore, hlog⟩ := h.registered hs
    exact ⟨hbefore, hupto hs ▸ sublist_later hlog new⟩
  · rw [hstation, hregistered]
    intro hs
    obtain ⟨hbefore, hlog⟩ := h.connected hs
    exact ⟨hbefore, hupto hbefore ▸ sublist_later hlog new⟩
  · rw [hstation, hregistered]
    intro hs
    obtain ⟨hbefore, hlog⟩ := h.ok hs
    exact ⟨hbefore, hupto hbefore ▸ sublist_later hlog new⟩
  · rw [hstation]
    exact hendless

/-- A station event; got-IP is the next stage. -/
theorem Stages.station {event : StationEvent} {station : Station} (h : Stages log s)
    (hregistered : s.registered = true)
    (hevent : s.station.step (.station event) = some station) :
    Stages (log ++ s.milestones (.station event)) { s with station := station } := by
  obtain ⟨hrecived, hlog⟩ := h.registered hregistered
  have hlater : ∀ new, uptoCall s <+ log ++ new := sublist_later hlog
  have hquiet : station.wifiOk = s.station.wifiOk →
      station.eventGroup.connectedBit = s.station.eventGroup.connectedBit →
      ∀ new, Stages (log ++ new) { s with station := station } := by
    intro hok hbit new
    refine ⟨h.waiting, fun hs => sublist_later (h.recived hs) new,
      fun _ => ⟨hrecived, hlater new⟩, ?_, ?_, fun hs => hok.trans (h.endless hs)⟩
    · intro hs
      exact ⟨hregistered, sublist_later (h.connected (hbit.symm.trans hs)).2 new⟩
    · intro hs
      exact ⟨hregistered, sublist_later (h.ok (hok.symm.trans hs)).2 new⟩
  obtain ⟨-, hnext⟩ := Station.next_of_step hevent
  cases hnext with
  | started => exact hquiet rfl rfl _
  | retry => exact hquiet rfl rfl _
  | fail => exact hquiet rfl rfl _
  | gotIp =>
      refine ⟨h.waiting, fun hs => sublist_later (h.recived hs) _,
        fun _ => ⟨hrecived, hlater _⟩, ?_, ?_, h.endless⟩
      · exact fun _ => ⟨hregistered, concat_sublist hlog _⟩
      · exact fun hs => ⟨hregistered, sublist_later (h.ok hs).2 _⟩

/-- The call of `wifi_init_sta`. -/
theorem Stages.connect {startBt : Bool} {file : ConfigFile} {station : Station} (h : Stages log s)
    (hrecived : s.device.credentialsRecived = true)
    (hcall : s.station.step .wifiInitSta = some station) :
    Stages (log ++ s.milestones (.pass startBt file))
      { s with station := station, registered := true, phase := .connecting } := by
  obtain ⟨-, hnext⟩ := Station.next_of_step hcall
  rw [Closet.milestones, if_pos hrecived]
  cases hnext with
  | wifiInitSta =>
      refine ⟨by simp, fun _ => sublist_later (h.recived hrecived) _, ?_,
        by simp [Station.wifiInitSta], ?_, by simp⟩
      · exact fun _ => ⟨hrecived, concat_sublist (h.recived hrecived) _⟩
      · exact fun hs => ⟨rfl, sublist_later (h.ok hs).2 _⟩

/-- The return of `wifi_init_sta`. -/
theorem Stages.wakeUp {station : Station} (h : Stages log s)
    (hwake : s.station.step .wakeUp = some station) :
    Stages (log ++ s.milestones .wakeUp)
      { s with station := station, phase := if station.wifiOk then .endless else .outer } := by
  obtain ⟨-, hnext⟩ := Station.next_of_step hwake
  cases hnext with
  | wakeUp =>
      refine ⟨?_, fun hs => sublist_later (h.recived hs) _, ?_, ?_, ?_, ?_⟩
      · intro hs
        dsimp only at hs
        split_ifs at hs
      · intro hs
        obtain ⟨hrecived, hlog⟩ := h.registered hs
        exact ⟨hrecived, sublist_later hlog _⟩
      · intro hs
        obtain ⟨hregistered, hlog⟩ := h.connected hs
        exact ⟨hregistered, sublist_later hlog _⟩
      · intro hs
        rcases Bool.or_eq_true_iff.mp hs with hok | hbit
        · obtain ⟨hregistered, hlog⟩ := h.ok hok
          exact ⟨hregistered, sublist_later hlog _⟩
        · obtain ⟨hregistered, hlog⟩ := h.connected hbit
          rw [Closet.milestones, if_pos hbit]
          exact ⟨hregistered, concat_sublist hlog _⟩
      · intro hs
        dsimp only at hs ⊢
        split_ifs at hs with hok
        exact hok

/-- The iteration that leaves the waiting loop is the one that accepts. -/
theorem loopIteration_waiting {d : Device} (hnone : d.credentialsRecived = false)
    (hsalir : (loopIteration d).salir = true) : (loopIteration d).credentialsRecived = false := by
  have hsame : (loopIteration d).salir = (tryCredentials d).salir := rfl
  show (tryCredentials d).credentialsRecived = false
  rw [hsame] at hsalir
  unfold tryCredentials at hsalir ⊢
  dsimp only at hsalir ⊢
  split_ifs at hsalir ⊢ <;> exact hnone

/-- An iteration of the waiting loop. -/
theorem Stages.iteration (h : Stages log s) (hphase : s.phase = .waiting) :
    Stages (log ++ s.milestones .iteration) s.iteration := by
  have hnone := h.waiting hphase
  have hphase' : s.iteration.phase =
      if (loopIteration s.device).salir then .waiting else .outer := rfl
  -- nothing has been registered yet
  have hearly : s.registered = true → False := by
    intro hs
    rw [(h.registered hs).1] at hnone
    cases hnone
  refine ⟨?_, ?_, fun hs => (hearly hs).elim, fun hs => (hearly (h.connected hs).1).elim,
    fun hs => (hearly (h.ok hs).1).elim, ?_⟩
  · rw [hphase']
    intro hs
    split_ifs at hs with hsalir
    exact loopIteration_waiting hnone hsalir
  · intro hs
    have haccepted : (loopIteration s.device).credentialsRecived = true := hs
    rw [Closet.milestones, if_pos haccepted]
    exact concat_sublist (List.nil_sublist log) _
  · rw [hphase']
    intro hs
    split_ifs at hs

/-- A pass that finds no credentials. -/
theorem Stages.provision {startBt : Bool} {file : ConfigFile} (h : Stages log s)
    (hnone : s.device.credentialsRecived = false) (new : List Milestone) :
    Stages (log ++ new) (s.provision startBt file) := by
  have hkept : (s.provision startBt file).device.credentialsRecived = false :=
    (checkConfig_credentialsRecived _ _).trans hnone
  refine h.later new (fun _ => hkept) (hkept.trans hnone.symm) ?_ rfl rfl fun hs => ?_
  · intro hs
    rw [(h.registered hs).1] at hnone
    cases hnone
  · cases file <;> cases hs

/-- **One occurrence**, unless the chip restarts. -/
theorem Stages.next {o : Occurrence} (h : Stages log s) (hnext : s.Next o s')
    (hrestart : ∀ time, o ≠ .restart time) : Stages (log ++ s.milestones o) s' := by
  cases hnext with
  | restart time => exact absurd rfl (hrestart time)
  | packet packet g => exact h.later _ h.waiting rfl (fun _ => ⟨rfl, rfl⟩) rfl rfl h.endless
  | station event station hregistered hevent => exact h.station hregistered hevent
  | connect startBt file _ hrecived station hcall => exact h.connect hrecived hcall
  | skip startBt file _ _ hok =>
      exact h.later _ (by simp) rfl (fun _ => ⟨rfl, rfl⟩) rfl rfl fun _ => hok
  | provision startBt file _ hnone _ => exact h.provision hnone _
  | iteration hphase => exact h.iteration hphase
  | wakeUp _ station hwake => exact h.wakeUp hwake
  | rutinas clock hphase => exact h.later _ h.waiting rfl (fun _ => ⟨rfl, rfl⟩) rfl rfl h.endless

theorem stages_run (hboot : OneBoot os) (hrun : run Closet.step (.start time) os = some s) :
    Stages (milestoneLog time os) s := by
  refine run_outputs Stages ?_ ?_ hrun
  · intro log s o s' ho hlog hstep
    refine hlog.next (Closet.next_of_step hstep) fun time heq => ?_
    exact hboot time (heq ▸ ho)
  · exact ⟨by simp [Closet.start], by simp [Closet.start, App.waiting], by simp [Closet.start],
      by simp [Closet.start], by simp [Closet.start], by simp [Closet.start]⟩

/-! ## Restarts -/

/-- The chip restarts. -/
def Occurrence.isRestart : Occurrence → Bool
  | .restart _ => true
  | _ => false

/-- What has occurred since the latest restart. -/
def sinceRestart (os : List Occurrence) : List Occurrence :=
  (os.reverse.takeWhile fun o => !o.isRestart).reverse

theorem sinceRestart_concat (os : List Occurrence) (o : Occurrence) :
    sinceRestart (os ++ [o]) = if o.isRestart then [] else sinceRestart os ++ [o] := by
  unfold sinceRestart
  rw [List.reverse_append, List.reverse_singleton, List.singleton_append, List.takeWhile_cons]
  cases o.isRestart <;> simp

theorem oneBoot_sinceRestart (os : List Occurrence) : OneBoot (sinceRestart os) := by
  intro time hmem
  have hkept := List.mem_takeWhile_imp (List.mem_reverse.mp hmem)
  simp [Occurrence.isRestart] at hkept

/-- **A run over restarts** is, since the latest of them, a run from a start. -/
theorem run_sinceRestart (hrun : run Closet.step (.start time) os = some s) :
    ∃ time', run Closet.step (.start time') (sinceRestart os) = some s := by
  refine run_history
    (fun os s => ∃ time', run Closet.step (.start time') (sinceRestart os) = some s)
    ⟨time, rfl⟩ ?_ hrun
  rintro os s o s' ⟨time', hbefore⟩ hstep
  rw [sinceRestart_concat]
  cases hrestart : o.isRestart with
  | true =>
      cases Closet.next_of_step hstep with
      | restart time => exact ⟨time, rfl⟩
      | _ => cases hrestart
  | false =>
      refine ⟨time', ?_⟩
      rw [if_neg (by simp), run_concat, hbefore]
      exact hstep

/-- **Watering needs a file.**  Before each call of `comprobar_rutinas`, and since the
latest restart, the waiting loop has found credentials in the buffers and accepted them,
`wifi_init_sta` has been called with them, the station has got an IP, and the call has
returned with `*wifi_ok` set. -/
theorem watering_provisioned (hrun : run Closet.step (.start time) os = some s)
    {first rest : List Occurrence} {clock : Clock} (hos : os = first ++ .rutinas clock :: rest) :
    ∃ time' mid ssid pass,
      run Closet.step (.start time') (sinceRestart first) = some mid ∧
      Found (fileLog time' (sinceRestart first)) (ssid, pass) ∧
      mid.device.ssid.Holds ssid ∧ mid.device.pass.Holds pass ∧
      [.accepted, .wifiInitSta mid.device.ssid mid.device.pass, .gotIp, .connected] <+
        milestoneLog time' (sinceRestart first) := by
  rw [hos] at hrun
  obtain ⟨mid, hfirst, hrest⟩ := run_append_eq_some hrun
  obtain ⟨next, hcall, -⟩ := run_cons_eq_some hrest
  obtain ⟨time', hmid⟩ := run_sinceRestart hfirst
  have hboot := oneBoot_sinceRestart first
  have hstages := stages_run hboot hmid
  cases Closet.next_of_step hcall with
  | rutinas clock hphase =>
      obtain ⟨hregistered, hlog⟩ := hstages.ok (hstages.endless hphase)
      obtain ⟨hrecived, -⟩ := hstages.registered hregistered
      obtain ⟨b, hb, hshows, -⟩ := follows_run hboot hmid
      obtain ⟨-, hfound⟩ := credentials_eq_some_iff hb
      rw [hshows.recived, Option.isSome_iff_exists] at hrecived
      obtain ⟨⟨ssid, pass⟩, hc⟩ := hrecived
      obtain ⟨hssid, hpass⟩ := hshows.stored ssid pass hc
      exact ⟨time', mid, ssid, pass, hmid, (hfound _).mp hc, hssid, hpass, hlog⟩

theorem watering_provisioned_phone :
    ∃ time' mid ssid pass,
      run Closet.step (.start time') (sinceRestart phoneSession) = some mid ∧
      Found (fileLog time' (sinceRestart phoneSession)) (ssid, pass) ∧
      mid.device.ssid.Holds ssid ∧ mid.device.pass.Holds pass ∧
      [.accepted, .wifiInitSta mid.device.ssid mid.device.pass, .gotIp, .connected] <+
        milestoneLog time' (sinceRestart phoneSession) := by
  obtain ⟨s, hrun, hpair⟩ := Option.map_eq_some_iff.mp run_phoneSession
  obtain ⟨hphase, hrestarted⟩ := Prod.mk.inj hpair
  obtain ⟨s', hs'⟩ : ∃ s', s.step (.rutinas fun _ => 100) = some s' := by
    simp [Closet.step, Closet.running, hphase, hrestarted]
  have hwhole : run Closet.step (.start 0) (phoneSession ++ [.rutinas fun _ => 100]) = some s' := by
    rw [run_concat, hrun]
    exact hs'
  exact watering_provisioned hwhole rfl

end HydroponicCloset.System
