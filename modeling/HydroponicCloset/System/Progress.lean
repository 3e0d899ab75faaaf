import HydroponicCloset.System.Provisioned
import HydroponicCloset.Wifi.Blocked

/-!
# What the main task waits for

The main task makes one step after the other, as long as the chip is not restarted.  The
one place where it cannot go on by itself is `xEventGroupWaitBits` in `wifi_init_sta`.

`stuck_iff` says when it is held up there, in any run of the whole program: the attempt
has had no got-IP event, and it has not been lost more often than there are retries, where
losses of earlier attempts count too.  There is no deadlock anywhere else.  That every
call of `host_rcv_pkt` in the run returns is part of `Closet`; one that does not would hold
up the task of the controller, not the main task.
-/

namespace HydroponicCloset.System

open Runs App Wifi

variable {time : ℤ} {os : List Occurrence} {s s' : Closet} {o : Occurrence}

/-! ## The steps of the main task -/

/-- A step of `app_main`; the others are of the controller's task, the event task, or
nobody's. -/
def Occurrence.MainTask : Occurrence → Prop
  | .pass _ _ | .iteration | .wakeUp | .rutinas _ => True
  | .restart _ | .packet _ | .station _ => False

/-- Where the main task is agrees with what the station knows: it is in
`xEventGroupWaitBits` or not, and it leaves the outer loop with `*wifi_ok`. -/
structure Placed (s : Closet) : Prop where
  waiting : s.station.waiting = true ↔ s.phase = .connecting
  wifiOk : s.station.wifiOk = true → s.phase = .endless

theorem Placed.wifiOk_false (h : Placed s) (hphase : s.phase ≠ .endless) :
    s.station.wifiOk = false :=
  Bool.eq_false_iff.mpr fun hok => hphase (h.wifiOk hok)

theorem Placed.waiting_false (h : Placed s) (hphase : s.phase ≠ .connecting) :
    s.station.waiting = false :=
  Bool.eq_false_iff.mpr fun hwaiting => hphase (h.waiting.mp hwaiting)

/-- A station event goes past the main task. -/
theorem station_event_keeps {station station' : Station} {event : StationEvent}
    (h : station.step (.station event) = some station') :
    station'.waiting = station.waiting ∧ station'.wifiOk = station.wifiOk := by
  obtain ⟨-, hnext⟩ := Station.next_of_step h
  cases hnext <;> exact ⟨rfl, rfl⟩

/-- **One occurrence.** -/
theorem Placed.next (h : Placed s) (hnext : s.Next o s') : Placed s' := by
  cases hnext with
  | restart time => exact ⟨by simp [Closet.start], by simp [Closet.start]⟩
  | packet packet g _ _ => exact ⟨h.waiting, h.wifiOk⟩
  | station event station _ hevent =>
      obtain ⟨hwaiting, hok⟩ := station_event_keeps hevent
      exact ⟨hwaiting ▸ h.waiting, hok ▸ h.wifiOk⟩
  | connect startBt file hphase _ station hcall =>
      obtain ⟨-, hnext⟩ := Station.next_of_step hcall
      cases hnext with
      | wifiInitSta _ hok => exact ⟨iff_of_true rfl rfl, fun hs => absurd hs hok⟩
  | skip startBt file hphase _ hok =>
      rw [h.wifiOk hok] at hphase
      cases hphase
  | provision startBt file hphase _ hok =>
      have hwaiting := h.waiting_false (by simp [hphase])
      refine ⟨iff_of_false (by simpa [Closet.provision] using hwaiting) ?_, fun hs => ?_⟩
      · cases file <;> simp [Closet.provision]
      · rw [show (s.provision startBt file).station.wifiOk = s.station.wifiOk from rfl, hok] at hs
        cases hs
  | iteration hphase =>
      have hwaiting := h.waiting_false (by simp [hphase])
      have hok := h.wifiOk_false (by simp [hphase])
      refine ⟨iff_of_false (by simpa [Closet.iteration] using hwaiting) ?_, fun hs => ?_⟩
      · unfold Closet.iteration
        split_ifs <;> simp
      · rw [show s.iteration.station.wifiOk = s.station.wifiOk from rfl, hok] at hs
        cases hs
  | wakeUp hphase station hwake =>
      obtain ⟨-, hnext⟩ := Station.next_of_step hwake
      cases hnext with
      | wakeUp _ _ =>
          refine ⟨iff_of_false (by simp [Station.wakeUp]) ?_, fun hs => if_pos hs⟩
          dsimp only
          split_ifs <;> simp
  | rutinas clock _ => exact ⟨h.waiting, h.wifiOk⟩

theorem placed_run (hrun : run Closet.step (.start time) os = some s) : Placed s :=
  run_invariant Placed (fun _ _ _ hs hstep => hs.next (Closet.next_of_step hstep))
    ⟨by simp [Closet.start], by simp [Closet.start]⟩ hrun

/-! ## Which steps can be made -/

/-- The event group of the attempt has a bit set. -/
def Answered (s : Closet) : Prop :=
  s.station.eventGroup.connectedBit = true ∨ s.station.eventGroup.failBit = true

theorem step_running (hrestarted : s.station.restarted = false) (ho : ∀ time, o ≠ .restart time) :
    s.step o = s.running o := by
  cases o with
  | restart time => exact absurd rfl (ho time)
  | _ => simp [Closet.step, hrestarted]

theorem pass_isSome (h : Placed s) (hrestarted : s.station.restarted = false)
    (hphase : s.phase = .outer) (startBt : Bool) (file : ConfigFile) :
    (s.step (.pass startBt file)).isSome := by
  have hwaiting := h.waiting_false (by simp [hphase])
  have hok := h.wifiOk_false (by simp [hphase])
  rw [step_running hrestarted (by simp), Closet.running, if_pos hphase, Closet.pass]
  split_ifs
  · simp [Station.step, hrestarted, hwaiting, hok]
  · rfl
  · rfl

theorem wakeUp_isSome_iff (h : Placed s) (hrestarted : s.station.restarted = false)
    (hphase : s.phase = .connecting) : (s.step .wakeUp).isSome ↔ Answered s := by
  have hwaiting := h.waiting.mpr hphase
  rw [step_running hrestarted (by simp), Closet.running, if_pos hphase, Closet.wakeUp,
    Option.isSome_map, Station.step, if_neg (by simp [hrestarted]), Option.isSome_ite]
  exact and_iff_right hwaiting

/-- In `xEventGroupWaitBits` there is only one step to make. -/
theorem eq_wakeUp_of_connecting (hphase : s.phase = .connecting) (ho : o.MainTask)
    (hsome : (s.step o).isSome) : o = .wakeUp := by
  obtain ⟨s', hs'⟩ := Option.isSome_iff_exists.mp hsome
  cases Closet.next_of_step hs' with
  | restart | packet | station => exact ho.elim
  | wakeUp => rfl
  | connect _ _ houter | skip _ _ houter | provision _ _ houter | iteration houter
  | rutinas _ houter =>
      rw [hphase] at houter
      cases houter

/-! ## The station's part of a run -/

/-- What an occurrence is for the station. -/
def Closet.stationEvents (s : Closet) : Occurrence → List Wifi.Event
  | .station event => [.station event]
  | .pass _ _ => if s.device.credentialsRecived then [.wifiInitSta] else []
  | .wakeUp => [.wakeUp]
  | _ => []

/-- The first call of `wifi_init_sta` comes first. -/
def Attempts (log : List Wifi.Event) (s : Closet) : Prop :=
  (s.registered = false ∧ s.phase ≠ .connecting ∧ s.station = {} ∧ log = []) ∨
    s.registered = true ∧
      ∃ events, log = .wifiInitSta :: events ∧ run Station.step Wifi.start events = some s.station

/-- An occurrence in which the station has no part. -/
theorem Attempts.other {log : List Wifi.Event} (h : Attempts log s)
    (hregistered : s'.registered = s.registered) (hstation : s'.station = s.station)
    (hphase : s'.phase = .connecting → s.phase = .connecting) : Attempts (log ++ []) s' := by
  rw [List.append_nil, Attempts, hregistered, hstation]
  rcases h with ⟨hnot, hconnecting, hfresh, hlog⟩ | hattempts
  · exact Or.inl ⟨hnot, fun hs => hconnecting (hphase hs), hfresh, hlog⟩
  · exact Or.inr hattempts

/-- A step of the station, once it has been started. -/
theorem Attempts.concat {log : List Wifi.Event} {event : Wifi.Event} {station : Station}
    (h : Attempts log s) (hstarted : s.registered = true)
    (hstep : s.station.step event = some station) (hregistered : s'.registered = true)
    (hstation : s'.station = station) : Attempts (log ++ [event]) s' := by
  rcases h with ⟨hnot, -⟩ | ⟨-, events, rfl, hrun⟩
  · rw [hstarted] at hnot
    cases hnot
  · refine Or.inr ⟨hregistered, events ++ [event], rfl, ?_⟩
    rw [run_concat, hrun, hstation]
    exact hstep

/-- **One occurrence**, unless the chip restarts. -/
theorem Attempts.next {log : List Wifi.Event} (h : Attempts log s) (hnext : s.Next o s')
    (hrestart : ∀ time, o ≠ .restart time) : Attempts (log ++ s.stationEvents o) s' := by
  cases hnext with
  | restart time => exact absurd rfl (hrestart time)
  | packet packet g _ _ => exact h.other rfl rfl id
  | station event station hregistered hevent => exact h.concat hregistered hevent hregistered rfl
  | connect startBt file hphase hrecived station hcall =>
      rw [Closet.stationEvents, if_pos hrecived]
      rcases h with ⟨-, -, hfresh, rfl⟩ | ⟨hregistered, hattempts⟩
      · refine Or.inr ⟨rfl, [], rfl, ?_⟩
        rw [hfresh] at hcall
        exact hcall
      · exact Attempts.concat (Or.inr ⟨hregistered, hattempts⟩) hregistered hcall rfl rfl
  | skip startBt file _ hnone _ =>
      rw [Closet.stationEvents, hnone]
      exact h.other rfl rfl (by simp)
  | provision startBt file _ hnone _ =>
      rw [Closet.stationEvents, hnone]
      refine h.other rfl rfl fun hs => ?_
      cases file <;> cases hs
  | iteration _ =>
      refine h.other rfl rfl fun hs => ?_
      unfold Closet.iteration at hs
      dsimp only at hs
      split_ifs at hs
  | wakeUp hphase station hwake =>
      have hregistered : s.registered = true := by
        rcases h with ⟨-, hconnecting, -⟩ | ⟨hregistered, -⟩
        · exact absurd hphase hconnecting
        · exact hregistered
      exact h.concat hregistered hwake hregistered rfl
  | rutinas clock _ => exact h.other rfl rfl id

end HydroponicCloset.System
