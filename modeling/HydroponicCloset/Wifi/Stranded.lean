import HydroponicCloset.Wifi.History

/-!
# Stranded offline

The device is stranded when `*wifi_ok` is set, so that `app_main` is in its endless
loop, and the station neither is connected nor tries to be.  While `*wifi_ok` is set the
handler keeps out of such states: it reconnects, or restarts the device.  But it is
the main task that sets `*wifi_ok`, from bits that stay set.  When it wakes up after the
connection has been lost and the retries are used up, it finds the connected bit of
the connection that was lost.

`TooLate` says so of the events before the wake-up, and `never_stranded_iff` that
this is the only way.  The proof follows the state through the events:
`Tracks` reads the bit, the retry counter and the link off them.
-/

namespace HydroponicCloset.Wifi

open Runs

/-- `app_main` believes in a connection that is gone, and nobody restores it. -/
def Stranded (s : Station) : Prop :=
  s.wifiOk = true ∧ s.connected = false ∧ s.connecting = false ∧ s.restarted = false

instance (s : Station) : Decidable (Stranded s) := inferInstanceAs (Decidable (_ ∧ _))

/-! ## Histories -/

/-- The station event that an event is. -/
def Event.report? : Event → Option StationEvent
  | .station event => some event
  | _ => none

/-- The latest station event. -/
def lastReport (events : List Event) : Option StationEvent :=
  events.reverse.findSome? Event.report?

/-- The disconnected events after the latest got-IP event. -/
def losses (events : List Event) : ℕ :=
  (since (.station .gotIp) events).count (.station .disconnected)

/-- There was a got-IP event since the latest call of `wifi_init_sta`; after the latest
one there were more disconnected events than there are retries; and the latest station
event was one of them. -/
structure TooLate (events : List Event) : Prop where
  gotIp : .station .gotIp ∈ since .wifiInitSta events
  losses : maximumRetry < losses events
  lost : lastReport events = some .disconnected

theorem lastReport_concat (event : Event) (events : List Event) :
    lastReport (events ++ [event]) = event.report?.or (lastReport events) := by
  unfold lastReport
  rw [List.reverse_append, List.reverse_singleton, List.singleton_append, List.findSome?_cons]
  cases event.report? <;> rfl

theorem losses_concat (event : Event) (events : List Event) :
    losses (events ++ [event]) =
      if event = .station .gotIp then 0
      else if event = .station .disconnected then losses events + 1
      else losses events :=
  count_since_concat _ _ event events

/-! ## The state and its history -/

/-- What the latest station event says of the link. -/
def Linked (events : List Event) (s : Station) : Option StationEvent → Prop
  | none => s.eventGroup.connectedBit = false
  | some .started => s.connecting = true
  | some .gotIp => s.connected = true
  | some .disconnected =>
      s.connected = false ∧ (s.connecting = true ↔ losses events ≤ maximumRetry)

theorem Linked.congr {events events' : List Event} {s s' : Station} {r : Option StationEvent}
    (h : Linked events s r) (hlosses : losses events' = losses events)
    (hconnecting : s'.connecting = s.connecting) (hconnected : s'.connected = s.connected)
    (hbit : s.eventGroup.connectedBit = false → s'.eventGroup.connectedBit = false) :
    Linked events' s' r := by
  match r with
  | none => exact hbit h
  | some .started => exact hconnecting.trans h
  | some .gotIp => exact hconnected.trans h
  | some .disconnected =>
      rw [Linked, hlosses, hconnecting, hconnected]
      exact h

/-- The state as it can be read off the events. -/
structure Tracks (events : List Event) (s : Station) : Prop where
  connectedBit : s.eventGroup.connectedBit = true ↔ .station .gotIp ∈ since .wifiInitSta events
  retryNum : s.retryNum = min maximumRetry (losses events)
  linked : Linked events s (lastReport events)
  waiting : s.waiting = true → s.wifiOk = false

theorem tracks_start : Tracks [] start where
  connectedBit := by decide
  retryNum := rfl
  linked := rfl
  waiting := fun _ => rfl

/-- A got-IP event leaves a connection without losses. -/
theorem losses_gotIp (events : List Event) : losses (events ++ [.station .gotIp]) = 0 := by
  rw [losses_concat, if_pos rfl]

theorem losses_disconnected (events : List Event) :
    losses (events ++ [.station .disconnected]) = losses events + 1 := by
  rw [losses_concat, if_neg (by simp), if_pos rfl]

theorem losses_other {event : Event} (hgotIp : event ≠ .station .gotIp)
    (hlost : event ≠ .station .disconnected) (events : List Event) :
    losses (events ++ [event]) = losses events := by
  rw [losses_concat, if_neg hgotIp, if_neg hlost]

/-- An event other than these two changes nothing about the bit. -/
theorem mem_since_concat {event : Event} (hgotIp : event ≠ .station .gotIp)
    (hcall : event ≠ .wifiInitSta) (events : List Event) :
    .station .gotIp ∈ since .wifiInitSta (events ++ [event]) ↔
      .station .gotIp ∈ since .wifiInitSta events := by
  rw [mem_since_other hcall]
  exact or_iff_right (Ne.symm hgotIp)

/-- **One step** keeps track. -/
theorem Tracks.next {events : List Event} {s s' : Station} {event : Event}
    (h : Tracks events s) (hnext : s.Next event s') : Tracks (events ++ [event]) s' := by
  have hretryNum := h.retryNum
  cases hnext with
  | started =>
      refine ⟨?_, ?_, ?_, h.waiting⟩
      · rw [mem_since_concat (by simp) (by simp)]
        exact h.connectedBit
      · rw [losses_other (by simp) (by simp)]
        exact hretryNum
      · rw [lastReport_concat]
        rfl
  | retry _ hretry =>
      have hlosses := losses_disconnected events
      refine ⟨?_, ?_, ?_, h.waiting⟩
      · rw [mem_since_concat (by simp) (by simp)]
        exact h.connectedBit
      · show s.retryNum + 1 = _
        omega
      · rw [lastReport_concat]
        exact ⟨rfl, iff_of_true rfl (by omega)⟩
  | fail _ hretry =>
      have hlosses := losses_disconnected events
      refine ⟨?_, ?_, ?_, h.waiting⟩
      · rw [mem_since_concat (by simp) (by simp)]
        exact h.connectedBit
      · show s.retryNum = _
        omega
      · rw [lastReport_concat]
        exact ⟨rfl, iff_of_false nofun (by omega)⟩
  | gotIp _ =>
      refine ⟨?_, ?_, ?_, h.waiting⟩
      · rw [since_concat, if_neg (by simp)]
        exact iff_of_true rfl (List.mem_cons_self ..)
      · rw [losses_gotIp]
        rfl
      · rw [lastReport_concat]
        rfl
  | wakeUp _ _ =>
      refine ⟨?_, ?_, ?_, nofun⟩
      · rw [mem_since_concat (by simp) (by simp)]
        exact h.connectedBit
      · rw [losses_other (by simp) (by simp)]
        exact hretryNum
      · rw [lastReport_concat]
        exact h.linked.congr (losses_other (by simp) (by simp) events) rfl rfl id
  | wifiInitSta _ hok =>
      refine ⟨?_, ?_, ?_, fun _ => Bool.eq_false_iff.mpr hok⟩
      · rw [since_concat, if_pos rfl]
        exact iff_of_false nofun nofun
      · rw [losses_other (by simp) (by simp)]
        exact hretryNum
      · rw [lastReport_concat]
        exact h.linked.congr (losses_other (by simp) (by simp) events) rfl rfl fun _ => rfl

/-- The events of a run can be read off the state it reaches. -/
theorem tracks_run {events : List Event} {s : Station}
    (hrun : run Station.step start events = some s) : Tracks events s :=
  run_history Tracks tracks_start
    (fun _ _ _ _ h hstep => h.next (Station.next_of_step hstep).2) hrun

/-! ## The only way to be stranded -/

/-- A wake-up strands the device exactly when it is too late. -/
theorem stranded_wakeUp_iff {events : List Event} {s : Station} (h : Tracks events s)
    (hwaiting : s.waiting = true) (hrestarted : s.restarted = false) :
    Stranded s.wakeUp ↔ TooLate events := by
  have hstranded : Stranded s.wakeUp ↔ s.eventGroup.connectedBit = true ∧
      s.connected = false ∧ s.connecting = false := by
    simp [Stranded, Station.wakeUp, h.waiting hwaiting, hrestarted]
  have hlinked := h.linked
  rw [hstranded]
  constructor
  · rintro ⟨hbit, hconnected, hconnecting⟩
    -- the latest report can only be a loss
    match hlast : lastReport events with
    | none =>
        rw [hlast] at hlinked
        exact absurd hbit (by simp [show s.eventGroup.connectedBit = false from hlinked])
    | some .started =>
        rw [hlast] at hlinked
        exact absurd hlinked (by simp [Linked, hconnecting])
    | some .gotIp =>
        rw [hlast] at hlinked
        exact absurd hlinked (by simp [Linked, hconnected])
    | some .disconnected =>
        rw [hlast] at hlinked
        refine ⟨h.connectedBit.mp hbit, ?_, hlast⟩
        by_contra hfew
        have hpending := hlinked.2.mpr (Nat.le_of_not_lt hfew)
        rw [hconnecting] at hpending
        cases hpending
  · intro htooLate
    rw [htooLate.lost] at hlinked
    obtain ⟨hconnected, hconnecting⟩ := hlinked
    refine ⟨h.connectedBit.mpr htooLate.gotIp, hconnected, ?_⟩
    rw [← Bool.not_eq_true, hconnecting]
    exact Nat.not_le_of_lt htooLate.losses

/-- The event task never strands the device, nor does a call of `wifi_init_sta`. -/
theorem wakeUp_of_stranded {s s' : Station} {event : Event} (hnext : s.Next event s')
    (hs' : Stranded s') : event = .wakeUp := by
  obtain ⟨hok, hconnected, hconnecting, hrestarted⟩ := hs'
  cases hnext with
  | started => cases hconnecting
  | retry => cases hconnecting
  | fail => exact absurd hok (by rw [show s.wifiOk = false from hrestarted]; simp)
  | gotIp => cases hconnected
  | wakeUp => rfl
  | wifiInitSta _ hnotOk => exact absurd hok hnotOk

/-- **The device is never stranded** in a run exactly when no wake-up of the run comes
too late. -/
theorem never_stranded_iff {events : List Event} {s : Station}
    (hrun : run Station.step start events = some s) :
    (∀ first s', first <+: events → run Station.step start first = some s' → ¬ Stranded s') ↔
      ∀ first second, events = first ++ .wakeUp :: second → ¬ TooLate first := by
  have hstep : ∀ is s i s', run Station.step start is = some s → ¬ Stranded s →
      s.step i = some s' → (Stranded s' ↔ i = .wakeUp ∧ TooLate is) := by
    intro is s i s' hrun _ hi
    obtain ⟨hrestarted, hnext⟩ := Station.next_of_step hi
    constructor
    · intro hs'
      obtain rfl := wakeUp_of_stranded hnext hs'
      cases hnext with
      | wakeUp hwaiting _ =>
          exact ⟨rfl, (stranded_wakeUp_iff (tracks_run hrun) hwaiting hrestarted).mp hs'⟩
    · rintro ⟨rfl, htooLate⟩
      cases hnext with
      | wakeUp hwaiting _ =>
          exact (stranded_wakeUp_iff (tracks_run hrun) hwaiting hrestarted).mpr htooLate
  rw [never_iff (show ¬ Stranded start by decide) hstep hrun]
  constructor
  · intro h first second heq htooLate
    exact h first .wakeUp second heq ⟨rfl, htooLate⟩
  · rintro h first i second heq ⟨rfl, htooLate⟩
    exact h first second heq htooLate

/-- A connection that is made, found by the main task, lost and made again. -/
def reconnecting : List Event :=
  [.station .started, .station .gotIp, .wakeUp, .station .disconnected, .station .gotIp]

theorem never_stranded_reconnecting :
    ∃ s, run Station.step start reconnecting = some s ∧
      ((∀ first s', first <+: reconnecting → run Station.step start first = some s' →
          ¬ Stranded s') ↔
        ∀ first second, reconnecting = first ++ .wakeUp :: second → ¬ TooLate first) := by
  obtain ⟨s, hrun⟩ := Option.isSome_iff_exists.mp
    (show (run Station.step start reconnecting).isSome = true by decide)
  exact ⟨s, hrun, never_stranded_iff hrun⟩

/-- A connection that is made and lost for good before the main task finds it. -/
def lostEarly : List Event :=
  [.station .started, .station .gotIp, .station .disconnected, .station .disconnected,
    .station .disconnected, .station .disconnected, .wakeUp]

theorem stranded_lostEarly :
    ∃ s, run Station.step start lostEarly = some s ∧ Stranded s := by
  have hstranded : (run Station.step start lostEarly).map (fun s => decide (Stranded s)) =
      some true := by decide
  obtain ⟨s, hrun, hs⟩ := Option.map_eq_some_iff.mp hstranded
  exact ⟨s, hrun, of_decide_eq_true hs⟩

end HydroponicCloset.Wifi
