import HydroponicCloset.Lib.Runs

/-!
# The WiFi station

`wifi_sta_event_handler` and `wifi_init_sta` of `wifi_def.c`, with as much of the
driver as they depend on: whether the station is connected, and whether a connect
request is pending.

Two tasks take turns.  The event task runs the handler for each station event.  The
main task calls `wifi_init_sta`, which creates an event group and waits in
`xEventGroupWaitBits` until the handler has set a bit, and then sets `*wifi_ok` if it
was the connected bit.  `app_main` calls `wifi_init_sta` again if it was not.

Two simplifications are made here, and lifted in `Wifi.Restart`.  An event runs the handler
once, as it does in the first attempt; later calls of `wifi_init_sta` register the handler
again.  And the main task reads the bits when it goes on, while `xEventGroupWaitBits`
returns those of the moment when one was set.
-/

namespace HydroponicCloset.Wifi

/-- `EXAMPLE_ESP_MAXIMUM_RETRY` -/
def maximumRetry : ℕ := 3

/-- `WIFI_CONNECTED_BIT` and `WIFI_FAIL_BIT` of an event group. -/
structure EventGroup where
  connectedBit : Bool := false
  failBit : Bool := false
  deriving DecidableEq

/-- `s_retry_num`, `s_wifi_event_group` and `*wifi_ok`; whether `esp_restart` has been
called; whether the main task is in `xEventGroupWaitBits`; and the driver's side. -/
structure Station where
  retryNum : ℕ := 0
  eventGroup : EventGroup := {}
  wifiOk : Bool := false
  restarted : Bool := false
  waiting : Bool := false
  connecting : Bool := false
  connected : Bool := false
  deriving DecidableEq

/-- `WIFI_EVENT_STA_START`, `WIFI_EVENT_STA_DISCONNECTED` and `IP_EVENT_STA_GOT_IP`. -/
inductive StationEvent
  | started
  | disconnected
  | gotIp
  deriving DecidableEq

namespace Station

/-- `esp_wifi_connect()` -/
def espWifiConnect (s : Station) : Station := { s with connecting := true }

/-- `wifi_sta_event_handler`, for one of its registrations. -/
def wifiStaEventHandler (s : Station) : StationEvent → Station
  | .started => s.espWifiConnect
  | .disconnected =>
      if s.retryNum < maximumRetry then
        { s.espWifiConnect with retryNum := s.retryNum + 1 }
      else
        let s := { s with eventGroup := { s.eventGroup with failBit := true } }
        if s.wifiOk then { s with restarted := true } else s
  | .gotIp =>
      { s with retryNum := 0, eventGroup := { s.eventGroup with connectedBit := true } }

/-- What the driver reports, and to which state of the link it applies: a got-IP
event ends a connect request, a disconnected event a request or a connection. -/
def deliver (s : Station) (event : StationEvent) : Option Station :=
  match event with
  | .started => some (s.wifiStaEventHandler .started)
  | .disconnected =>
      if s.connecting ∨ s.connected then
        some ({ s with connecting := false, connected := false }.wifiStaEventHandler
          .disconnected)
      else none
  | .gotIp =>
      if s.connecting then
        some ({ s with connecting := false, connected := true }.wifiStaEventHandler .gotIp)
      else none

/-- `wifi_init_sta` up to `xEventGroupWaitBits`. -/
def wifiInitSta (s : Station) : Station := { s with eventGroup := {}, waiting := true }

/-- `wifi_init_sta` from the return of `xEventGroupWaitBits` on; the bits stay set.  They are
read as they are now, and not as they were when the first was set.  For the connected bit it
makes a difference only if a got-IP event follows the fail bit within an attempt.  When the
fail bit is set no connect request is pending, so that this takes another start event. -/
def wakeUp (s : Station) : Station :=
  { s with waiting := false, wifiOk := s.wifiOk || s.eventGroup.connectedBit }

end Station

/-- What happens next. -/
inductive Event
  | station (event : StationEvent)
  | wakeUp
  | wifiInitSta
  deriving DecidableEq

/-- One step of either task.  The wake-up waits for a bit; `app_main` calls
`wifi_init_sta` as long as `wifi_ok` is zero; and nothing runs after a restart. -/
def Station.step (s : Station) (event : Event) : Option Station :=
  if s.restarted then none
  else
    match event with
    | .station event => s.deliver event
    | .wakeUp =>
        if s.waiting ∧ (s.eventGroup.connectedBit ∨ s.eventGroup.failBit) then some s.wakeUp
        else none
    | .wifiInitSta => if s.waiting ∨ s.wifiOk then none else some s.wifiInitSta

/-- The station when `app_main` first waits for it. -/
def start : Station := Station.wifiInitSta {}

namespace Station

/-! ## What a step can do -/

/-- The steps, with what they ask of the state. -/
inductive Next (s : Station) : Event → Station → Prop
  | started : Next s (.station .started) { s with connecting := true }
  | retry (hlink : s.connecting ∨ s.connected) (hretry : s.retryNum < maximumRetry) :
      Next s (.station .disconnected)
        { s with retryNum := s.retryNum + 1, connecting := true, connected := false }
  | fail (hlink : s.connecting ∨ s.connected) (hretry : maximumRetry ≤ s.retryNum) :
      Next s (.station .disconnected)
        { s with eventGroup := { s.eventGroup with failBit := true }, restarted := s.wifiOk
                 connecting := false, connected := false }
  | gotIp (hconnecting : s.connecting) :
      Next s (.station .gotIp)
        { s with retryNum := 0, eventGroup := { s.eventGroup with connectedBit := true }
                 connecting := false, connected := true }
  | wakeUp (hwaiting : s.waiting)
      (hbit : s.eventGroup.connectedBit ∨ s.eventGroup.failBit) : Next s .wakeUp s.wakeUp
  | wifiInitSta (hwaiting : ¬ s.waiting) (hok : ¬ s.wifiOk) : Next s .wifiInitSta s.wifiInitSta

theorem next_of_step {s s' : Station} {event : Event} (h : s.step event = some s') :
    s.restarted = false ∧ Next s event s' := by
  have hrestarted : s.restarted = false := by
    cases hcall : s.restarted with
    | false => rfl
    | true => simp [step, hcall] at h
  refine ⟨hrestarted, ?_⟩
  unfold step at h
  rw [if_neg (by simp [hrestarted])] at h
  cases event with
  | station event =>
      cases event with
      | started =>
          obtain rfl := Option.some.inj h
          exact .started
      | disconnected =>
          simp only [deliver] at h
          split_ifs at h with hlink
          obtain rfl := Option.some.inj h
          by_cases hretry : s.retryNum < maximumRetry
          · simp only [wifiStaEventHandler, hretry, if_true]
            exact .retry hlink hretry
          · have hnext := Next.fail hlink (Nat.le_of_not_lt hretry)
            cases hok : s.wifiOk with
            | true => simpa [wifiStaEventHandler, hretry, hok] using hnext
            | false => simpa [wifiStaEventHandler, hretry, hok, hrestarted] using hnext
      | gotIp =>
          simp only [deliver] at h
          split_ifs at h with hconnecting
          obtain rfl := Option.some.inj h
          exact .gotIp hconnecting
  | wakeUp =>
      simp only at h
      split_ifs at h with hwake
      obtain rfl := Option.some.inj h
      exact .wakeUp hwake.1 hwake.2
  | wifiInitSta =>
      simp only at h
      split_ifs at h with hcall
      obtain rfl := Option.some.inj h
      exact .wifiInitSta (fun hwaiting => hcall (Or.inl hwaiting)) (fun hok => hcall (Or.inr hok))

end Station

end HydroponicCloset.Wifi
