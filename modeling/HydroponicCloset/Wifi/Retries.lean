import HydroponicCloset.Wifi.Stranded

/-!
# Retries

`wifi_init_sta` takes the fail bit to mean that the connection failed for the maximum
number of retries.  The event group of an attempt is its own, but `s_retry_num` is
static and only a got-IP event resets it, so that an attempt begins with the retries the
attempts before it have used up.

The steps here are those of the handler and of `wifi_init_sta` in any order, with nothing
asked of the driver; the runs that it allows are among them (`run_handle`).  `recent`
counts the reconnects that an attempt has had, and `carried` the disconnected events of
earlier attempts that still count: the two make up the retry counter (`Tally`).
-/

namespace HydroponicCloset.Wifi

open Runs

/-- What the history of a station consists of: an attempt begins with a call of
`wifi_init_sta`, a reconnect is a call of `esp_wifi_connect` on a disconnection, and
`failBit` is set in the event group of the attempt. -/
inductive Action
  | attempt
  | reconnect
  | gotIp
  | failBit
  deriving DecidableEq

namespace Station

/-- One call of the handler or of `wifi_init_sta`, or the end of its wait. -/
def handle (s : Station) (event : Event) : Option Station :=
  if s.restarted then none
  else
    match event with
    | .station event => some (s.wifiStaEventHandler event)
    | .wakeUp => some s.wakeUp
    | .wifiInitSta => some s.wifiInitSta

/-- The actions in such a call. -/
def actions (s : Station) : Event → List Action
  | .station .started => []
  | .station .disconnected =>
      if s.retryNum < maximumRetry then [.reconnect] else [.failBit]
  | .station .gotIp => [.gotIp]
  | .wakeUp => []
  | .wifiInitSta => [.attempt]

/-- The calls, with the actions in each. -/
inductive Call (s : Station) : Event → List Action → Station → Prop
  | started : Call s (.station .started) [] s.espWifiConnect
  | retry (hretry : s.retryNum < maximumRetry) :
      Call s (.station .disconnected) [.reconnect]
        { s.espWifiConnect with retryNum := s.retryNum + 1 }
  | fail (hretry : maximumRetry ≤ s.retryNum) :
      Call s (.station .disconnected) [.failBit]
        { s with eventGroup := { s.eventGroup with failBit := true }, restarted := s.wifiOk }
  | gotIp :
      Call s (.station .gotIp) [.gotIp]
        { s with retryNum := 0, eventGroup := { s.eventGroup with connectedBit := true } }
  | wakeUp : Call s .wakeUp [] s.wakeUp
  | wifiInitSta : Call s .wifiInitSta [.attempt] s.wifiInitSta

theorem call_of_handle {s s' : Station} {event : Event} (h : s.handle event = some s') :
    Call s event (s.actions event) s' := by
  have hrestarted : s.restarted = false := by
    cases hcall : s.restarted with
    | false => rfl
    | true => simp [handle, hcall] at h
  unfold handle at h
  rw [if_neg (by simp [hrestarted])] at h
  cases event with
  | station event =>
      obtain rfl := Option.some.inj h
      cases event with
      | started => exact .started
      | disconnected =>
          by_cases hretry : s.retryNum < maximumRetry
          · simp only [wifiStaEventHandler, actions, hretry, if_true]
            exact .retry hretry
          · have hcall := Call.fail (Nat.le_of_not_lt hretry)
            cases hok : s.wifiOk with
            | true => simpa [wifiStaEventHandler, actions, hretry, hok] using hcall
            | false => simpa [wifiStaEventHandler, actions, hretry, hok, hrestarted] using hcall
      | gotIp => exact .gotIp
  | wakeUp =>
      obtain rfl := Option.some.inj h
      exact .wakeUp
  | wifiInitSta =>
      obtain rfl := Option.some.inj h
      exact .wifiInitSta

/-- The two states differ at most in what the driver knows of the link. -/
structure SameCalls (s t : Station) : Prop where
  retryNum : t.retryNum = s.retryNum
  eventGroup : t.eventGroup = s.eventGroup
  wifiOk : t.wifiOk = s.wifiOk
  restarted : t.restarted = s.restarted

theorem SameCalls.handle {s s' t : Station} {event : Event} (h : SameCalls s t)
    (hstep : s.step event = some s') : ∃ t', t.handle event = some t' ∧ SameCalls s' t' := by
  obtain ⟨hrestarted, hnext⟩ := next_of_step hstep
  obtain ⟨hretryNum, heventGroup, hwifiOk, hsame⟩ := h
  unfold Station.handle
  rw [if_neg (by simp [hsame, hrestarted])]
  cases hnext with
  | started => exact ⟨_, rfl, hretryNum, heventGroup, hwifiOk, hsame⟩
  | retry _ hretry =>
      refine ⟨_, rfl, ?_⟩
      simp only [wifiStaEventHandler, hretryNum, hretry, if_true]
      exact ⟨rfl, heventGroup, hwifiOk, hsame⟩
  | fail _ hretry =>
      have hspent : ¬ t.retryNum < maximumRetry := by omega
      have hhandler : t.wifiStaEventHandler .disconnected =
          { t with
            eventGroup := { t.eventGroup with failBit := true }
            restarted := s.wifiOk } := by
        cases hok : s.wifiOk with
        | true => simp [wifiStaEventHandler, hspent, hwifiOk, hok]
        | false => simp [wifiStaEventHandler, hspent, hwifiOk, hok, hsame, hrestarted]
      refine ⟨_, rfl, ?_⟩
      rw [hhandler]
      exact ⟨hretryNum, by rw [heventGroup], hwifiOk, rfl⟩
  | gotIp _ =>
      refine ⟨_, rfl, rfl, ?_, hwifiOk, hsame⟩
      simp only [wifiStaEventHandler, heventGroup]
  | wakeUp _ _ =>
      refine ⟨_, rfl, hretryNum, heventGroup, ?_, hsame⟩
      simp only [Station.wakeUp, heventGroup, hwifiOk]
  | wifiInitSta _ _ => exact ⟨_, rfl, hretryNum, rfl, hwifiOk, hsame⟩

/-- **The runs that the driver allows** are among the runs of these calls. -/
theorem run_handle {events : List Event} {s : Station}
    (hrun : run Station.step start events = some s) :
    ∃ t, run Station.handle start events = some t ∧ SameCalls s t := by
  have hstep : ∀ s t i s', SameCalls s t → Station.step s i = some s' →
      ∃ t', Station.handle t i = some t' ∧ SameCalls s' t' := fun _ _ _ _ h hi => h.handle hi
  exact run_simulation SameCalls hstep ⟨rfl, rfl, rfl, rfl⟩ hrun

end Station

/-! ## Counting the reconnects -/

/-- The reconnects since the attempt began or since its last got-IP event. -/
def recent (log : List Action) : ℕ :=
  (log.reverse.takeWhile fun a => a ≠ .attempt ∧ a ≠ .gotIp).count .reconnect

/-- Every fail bit comes after the maximum number of reconnects. -/
def EveryRetry (log : List Action) : Prop :=
  ∀ before after, log = before ++ .failBit :: after → maximumRetry ≤ recent before

/-- The disconnected events of earlier attempts that no got-IP event has made up for. -/
def carried (events : List Event) : ℕ :=
  ((since (.station .gotIp) events).dropWhile (· ≠ .wifiInitSta)).count (.station .disconnected)

theorem recent_concat (log : List Action) (action : Action) :
    recent (log ++ [action]) =
      if action = .attempt ∨ action = .gotIp then 0
      else if action = .reconnect then recent log + 1
      else recent log := by
  unfold recent
  rw [List.reverse_append, List.reverse_singleton, List.singleton_append, List.takeWhile_cons]
  cases action <;> simp

theorem carried_le_losses (events : List Event) : carried events ≤ losses events :=
  (List.dropWhile_sublist _).count_le _

theorem carried_gotIp (events : List Event) : carried (events ++ [.station .gotIp]) = 0 := by
  unfold carried
  rw [since_concat, if_pos rfl]
  rfl

/-- A new attempt takes over all the losses. -/
theorem carried_wifiInitSta (events : List Event) :
    carried (events ++ [.wifiInitSta]) = losses events := by
  unfold carried losses
  rw [since_concat, if_neg (by simp), List.dropWhile_cons_of_neg (by simp),
    List.count_cons_of_ne (by simp)]

theorem carried_other {event : Event} (hgotIp : event ≠ .station .gotIp)
    (hcall : event ≠ .wifiInitSta) (events : List Event) :
    carried (events ++ [event]) = carried events := by
  unfold carried
  rw [since_concat, if_neg hgotIp, List.dropWhile_cons_of_pos (by simpa using hcall)]

/-- The retry counter: the losses up to the maximum, which are the losses carried over
and the reconnects of the attempt itself. -/
structure Tally (events : List Event) (log : List Action) (s : Station) : Prop where
  retryNum : s.retryNum = min maximumRetry (losses events)
  recent : recent log + min maximumRetry (carried events) = s.retryNum

/-- **One call** keeps the tally. -/
theorem Tally.call {events : List Event} {log actions : List Action} {s s' : Station}
    {event : Event} (h : Tally events log s) (hcall : s.Call event actions s') :
    Tally (events ++ [event]) (log ++ actions) s' := by
  obtain ⟨hretryNum, hrecent⟩ := h
  have hcarried := carried_le_losses events
  cases hcall with
  | started =>
      rw [List.append_nil]
      refine ⟨?_, ?_⟩
      · rw [losses_other (by simp) (by simp)]
        exact hretryNum
      · rw [carried_other (by simp) (by simp)]
        exact hrecent
  | retry hretry =>
      refine ⟨?_, ?_⟩
      · rw [losses_disconnected]
        show s.retryNum + 1 = _
        omega
      · rw [carried_other (by simp) (by simp), recent_concat, if_neg (by simp), if_pos rfl]
        show _ = s.retryNum + 1
        omega
  | fail hretry =>
      refine ⟨?_, ?_⟩
      · rw [losses_disconnected]
        show s.retryNum = _
        omega
      · rw [carried_other (by simp) (by simp), recent_concat, if_neg (by simp),
          if_neg (by simp)]
        exact hrecent
  | gotIp =>
      refine ⟨?_, ?_⟩
      · rw [losses_gotIp]
        rfl
      · rw [carried_gotIp, recent_concat, if_pos (Or.inr rfl)]
        rfl
  | wakeUp =>
      rw [List.append_nil]
      refine ⟨?_, ?_⟩
      · rw [losses_other (by simp) (by simp)]
        exact hretryNum
      · rw [carried_other (by simp) (by simp)]
        exact hrecent
  | wifiInitSta =>
      refine ⟨?_, ?_⟩
      · rw [losses_other (by simp) (by simp)]
        exact hretryNum
      · rw [carried_wifiInitSta, recent_concat, if_pos (Or.inl rfl), Nat.zero_add]
        exact hretryNum.symm

/-- The tally after a run. -/
theorem tally_run {events : List Event} {s : Station}
    (hrun : run Station.handle start events = some s) :
    Tally events (trace Station.handle Station.actions start events) s := by
  have hinit : run Station.handle start [] = some start ∧ Tally [] [] start := ⟨rfl, rfl, rfl⟩
  refine (run_history (fun is s => run Station.handle start is = some s ∧
    Tally is (trace Station.handle Station.actions start is) s) hinit ?_ hrun).2
  rintro is s i s' ⟨hbefore, htally⟩ hstep
  refine ⟨?_, ?_⟩
  · rw [run_concat, hbefore]
    exact hstep
  · rw [trace_append hbefore]
    have hlast : trace Station.handle Station.actions s [i] = s.actions i := by
      rw [trace, hstep, Option.elim_some, trace, List.append_nil]
    rw [hlast]
    exact htally.call (Station.call_of_handle hstep)

/-! ## Retries that an attempt does not get -/

/-- The fail bit is what a disconnected event leads to when the counter is used up. -/
theorem actions_failBit {s : Station} {event : Event} {b a : List Action}
    (h : s.actions event = b ++ .failBit :: a) :
    event = .station .disconnected ∧ maximumRetry ≤ s.retryNum ∧ b = [] := by
  cases event with
  | station event =>
      cases event with
      | disconnected =>
          simp only [Station.actions] at h
          split_ifs at h with hretry
          · cases b <;> simp at h
          · refine ⟨rfl, Nat.le_of_not_lt hretry, ?_⟩
            cases b with
            | nil => rfl
            | cons _ b => simp at h
      | _ => cases b <;> simp [Station.actions] at h
  | _ => cases b <;> simp [Station.actions] at h

/-- **Every attempt gets its retries** in a run exactly when no disconnected event comes,
with the losses at the maximum, while some of them are carried over from an earlier
attempt. -/
theorem every_retry_iff {events : List Event} {s : Station}
    (hrun : run Station.handle start events = some s) :
    EveryRetry (trace Station.handle Station.actions start events) ↔
      ∀ first rest, events = first ++ .station .disconnected :: rest →
        maximumRetry ≤ losses first → carried first = 0 := by
  constructor
  · intro hevery first rest heq hlosses
    rw [heq] at hrun
    obtain ⟨mid, hfirst, -⟩ := run_append_eq_some hrun
    obtain ⟨hretryNum, hrecent⟩ := tally_run hfirst
    have hused : ¬ mid.retryNum < maximumRetry := by omega
    have hactions : mid.actions (.station .disconnected) = [] ++ .failBit :: [] := by
      rw [Station.actions, if_neg hused]
      rfl
    obtain ⟨after, htrace⟩ := trace_eq_append_iff.mpr
      ⟨first, _, rest, mid, [], [], heq, hfirst, hactions, rfl⟩
    have hmax := hevery _ after htrace
    rw [List.append_nil] at hmax
    have hpositive : 0 < maximumRetry := by decide
    omega
  · intro hfresh before after htrace
    obtain ⟨first, event, rest, mid, b, a, heq, hfirst, hactions, rfl⟩ :=
      trace_eq_append_iff.mp ⟨after, htrace⟩
    obtain ⟨rfl, hused, rfl⟩ := actions_failBit hactions
    obtain ⟨hretryNum, hrecent⟩ := tally_run hfirst
    have hnone := hfresh first rest heq (by omega)
    rw [List.append_nil]
    omega

/-- An attempt that uses up its retries. -/
def outOfRange : List Event :=
  [.station .started, .station .disconnected, .station .disconnected, .station .disconnected,
    .station .disconnected]

theorem every_retry_outOfRange :
    ∃ s, run Station.handle start outOfRange = some s ∧
      (EveryRetry (trace Station.handle Station.actions start outOfRange) ↔
        ∀ first rest, outOfRange = first ++ .station .disconnected :: rest →
          maximumRetry ≤ losses first → carried first = 0) := by
  obtain ⟨s, hrun⟩ := Option.isSome_iff_exists.mp
    (show (run Station.handle start outOfRange).isSome = true by decide)
  exact ⟨s, hrun, every_retry_iff hrun⟩

/-- A second attempt, and one more disconnection. -/
def secondAttempt : List Event :=
  outOfRange ++ [.wakeUp, .wifiInitSta, .station .started, .station .disconnected]

/-- The driver may report these events, and the second attempt fails without a retry. -/
theorem no_retry_secondAttempt :
    (run Station.step start secondAttempt).isSome = true ∧
      (run Station.handle start secondAttempt).isSome = true ∧
      ¬ EveryRetry (trace Station.handle Station.actions start secondAttempt) := by
  refine ⟨by decide, by decide, ?_⟩
  intro hevery
  have hlast := hevery [.reconnect, .reconnect, .reconnect, .failBit, .attempt] [] (by decide)
  exact absurd hlast (by decide)

end HydroponicCloset.Wifi
