import HydroponicCloset.Lib.DutyBounds
import HydroponicCloset.Lib.Fair
import HydroponicCloset.System.Progress

/-!
# The plants are watered again and again

`watering_provisioned` says what comes before a watering, and `stuck_iff` what can hold the
main task up.  What is left is that something good happens at all.

`watered_forever`: once credentials have been accepted, in every run without end in which
the chip is not restarted, the pump is switched on and off again and again.  It takes a
scheduler that does not keep the main task from its steps, time that goes on, and an access
point in range: an attempt to connect gets an IP before the main task gives it up.  The
calls of `host_rcv_pkt` return, and an iteration of the waiting loop is one step, as in all
of `Closet`.
-/

namespace HydroponicCloset.System

open Runs DutyCycle App Wifi

variable {time : ℤ} {s s' : Closet} {o : Occurrence} {e : Forever Closet.step}

/-- What a run without end is asked for. -/
structure Ongoing (time : ℤ) (e : Forever Closet.step) : Prop where
  started : ∃ before, run Closet.step (.start time) before = some (e.state 0)
  oneBoot : ∀ n time', e.input n ≠ .restart time'
  fair : e.Fair Occurrence.MainTask
  clock : ∀ t : ℤ, ∃ N, ∀ n, N ≤ n → ∀ clock, e.input n = .rutinas clock → t < clock 0
  inRange : ∀ n, (e.state n).phase = .connecting →
    (e.state n).station.eventGroup.connectedBit = false →
    ∃ m, n ≤ m ∧ (e.state m).phase = .connecting ∧ e.input m = .station .gotIp

/-- The readings of a call of `comprobar_rutinas`. -/
def Occurrence.clock? : Occurrence → Option Clock
  | .rutinas clock => some clock
  | _ => none

theorem eq_rutinas_of_clock? {clock : Clock} (h : clock ∈ o.clock?) : o = .rutinas clock := by
  cases o with
  | rutinas clock' =>
      obtain rfl : clock' = clock := Option.some.inj h
      rfl
  | _ => cases h

theorem command_of_bomba? {issued : Issued} {s : Switch} (h : issued.bomba? = some s) :
    issued.command = if s.on then .enableWaterFlow else .disableWaterFlow := by
  obtain ⟨command, reading, stored⟩ := issued
  cases command <;> cases h <;> rfl

namespace Ongoing

theorem reached (h : Ongoing time e) (n : ℕ) :
    ∃ before, run Closet.step (.start time) before = some (e.state n) := by
  obtain ⟨before, hbefore⟩ := h.started
  refine ⟨before ++ (List.range n).map e.input, ?_⟩
  rw [run_append, hbefore]
  exact e.run_take n

theorem placed (h : Ongoing time e) (n : ℕ) : Placed (e.state n) := by
  obtain ⟨before, hbefore⟩ := h.reached n
  exact placed_run hbefore

theorem next (_h : Ongoing time e) (n : ℕ) : (e.state n).Next (e.input n) (e.state (n + 1)) :=
  Closet.next_of_step (e.next n)

/-- The event handler has not restarted the chip either. -/
theorem restarted (h : Ongoing time e) (n : ℕ) : (e.state n).station.restarted = false := by
  have hnext := e.next n
  cases hrestarted : (e.state n).station.restarted with
  | false => rfl
  | true =>
      cases hinput : e.input n with
      | restart time' => exact absurd hinput (h.oneBoot n time')
      | _ => simp [Closet.step, hinput, hrestarted] at hnext

/-! ## From the credentials to the endless loop -/

/-- Whoever else makes a step, the main task stays where it is. -/
theorem others_keep (h : Ongoing time e) {n : ℕ} (hother : ¬ (e.input n).MainTask) :
    (e.state (n + 1)).phase = (e.state n).phase ∧
      (e.state (n + 1)).device.credentialsRecived = (e.state n).device.credentialsRecived ∧
      ((e.state n).station.eventGroup.connectedBit = true →
        (e.state (n + 1)).station.eventGroup.connectedBit = true) := by
  have hnext := h.next n
  generalize e.state (n + 1) = s' at hnext ⊢
  have hboot := h.oneBoot n
  generalize e.input n = o at hnext hother hboot
  cases hnext with
  | restart time' => exact absurd rfl (hboot time')
  | packet packet g _ _ => exact ⟨rfl, rfl, id⟩
  | station event station _ hevent =>
      refine ⟨rfl, rfl, fun hbit => ?_⟩
      obtain ⟨-, hstation⟩ := Station.next_of_step hevent
      cases hstation with
      | gotIp => rfl
      | started | retry | fail => exact hbit
  | connect | skip | provision | iteration | wakeUp | rutinas => exact absurd trivial hother

/-- The outer loop goes on to an attempt. -/
theorem connecting_of_outer (h : Ongoing time e) {m : ℕ} (hphase : (e.state m).phase = .outer)
    (hrecived : (e.state m).device.credentialsRecived = true) :
    ∃ n, m ≤ n ∧ (e.state n).phase = .connecting := by
  obtain ⟨n, hn, ⟨hphase', hrecived'⟩, hown⟩ := h.fair.exists_own
    (P := fun n => (e.state n).phase = .outer ∧
      (e.state n).device.credentialsRecived = true) ⟨hphase, hrecived⟩
    (fun n _ ⟨hp, hr⟩ hother => by
      obtain ⟨hphase', hrecived', -⟩ := h.others_keep hother
      exact ⟨hphase'.trans hp, hrecived'.trans hr⟩)
    (fun n _ ⟨hp, _⟩ => ⟨.pass true .missing, trivial,
      pass_isSome (h.placed n) (h.restarted n) hp true .missing⟩)
  refine ⟨n + 1, by omega, ?_⟩
  have hnext := h.next n
  generalize e.state (n + 1) = s' at hnext ⊢
  generalize e.input n = o at hnext hown
  cases hnext with
  | restart | packet | station => exact hown.elim
  | connect => rfl
  | skip _ _ _ hnone | provision _ _ _ hnone =>
      rw [hrecived'] at hnone
      cases hnone
  | iteration hwaiting | wakeUp hwaiting | rutinas _ hwaiting =>
      rw [hphase'] at hwaiting
      cases hwaiting

/-- An attempt that has an IP succeeds. -/
theorem endless_of_connected (h : Ongoing time e) {m : ℕ}
    (hphase : (e.state m).phase = .connecting)
    (hbit : (e.state m).station.eventGroup.connectedBit = true) :
    ∃ n, m ≤ n ∧ (e.state n).phase = .endless := by
  obtain ⟨n, hn, ⟨hphase', hbit'⟩, hown⟩ := h.fair.exists_own
    (P := fun n => (e.state n).phase = .connecting ∧
      (e.state n).station.eventGroup.connectedBit = true) ⟨hphase, hbit⟩
    (fun n _ ⟨hp, hb⟩ hother => by
      obtain ⟨hphase', -, hbit'⟩ := h.others_keep hother
      exact ⟨hphase'.trans hp, hbit' hb⟩)
    (fun n _ ⟨hp, hb⟩ => ⟨.wakeUp, trivial,
      (wakeUp_isSome_iff (h.placed n) (h.restarted n) hp).mpr (Or.inl hb)⟩)
  refine ⟨n + 1, by omega, ?_⟩
  have hwakeUp := eq_wakeUp_of_connecting hphase' hown (Option.isSome_iff_exists.mpr ⟨_, e.next n⟩)
  have hnext := h.next n
  rw [hwakeUp] at hnext
  generalize e.state (n + 1) = s' at hnext ⊢
  cases hnext with
  | wakeUp _ station hwake =>
      obtain ⟨-, hstation⟩ := Station.next_of_step hwake
      cases hstation with
      | wakeUp => exact if_pos (Bool.or_eq_true_iff.mpr (Or.inr hbit'))

/-- Every attempt succeeds. -/
theorem endless_of_connecting (h : Ongoing time e) {m : ℕ}
    (hphase : (e.state m).phase = .connecting) : ∃ n, m ≤ n ∧ (e.state n).phase = .endless := by
  cases hbit : (e.state m).station.eventGroup.connectedBit with
  | true => exact h.endless_of_connected hphase hbit
  | false =>
      obtain ⟨k, hk, hconnecting, hgotIp⟩ := h.inRange m hphase hbit
      have hconnected : (e.state (k + 1)).phase = .connecting ∧
          (e.state (k + 1)).station.eventGroup.connectedBit = true := by
        have hnext := h.next k
        rw [hgotIp] at hnext
        generalize e.state (k + 1) = s' at hnext ⊢
        cases hnext with
        | station event station _ hevent =>
            obtain ⟨-, hstation⟩ := Station.next_of_step hevent
            cases hstation with
            | gotIp => exact ⟨hconnecting, rfl⟩
      obtain ⟨n, hn, hendless⟩ := h.endless_of_connected hconnected.1 hconnected.2
      exact ⟨n, by omega, hendless⟩

/-- Nothing but a restart ends the endless loop. -/
theorem endless_always (h : Ongoing time e) {m : ℕ} (hphase : (e.state m).phase = .endless) :
    ∀ n, m ≤ n → (e.state n).phase = .endless := by
  refine always_of_next (P := fun n => (e.state n).phase = .endless) hphase fun n _ hn => ?_
  have hnext := h.next n
  have hboot := h.oneBoot n
  generalize e.state (n + 1) = s' at hnext ⊢
  generalize e.input n = o at hnext hboot
  cases hnext with
  | restart time' => exact absurd rfl (hboot time')
  | packet | station | rutinas => exact hn
  | skip => rfl
  | connect _ _ hother | provision _ _ hother | iteration hother | wakeUp hother =>
      rw [hn] at hother
      cases hother

/-- Where the main task is, once credentials have been accepted. -/
theorem exists_endless (h : Ongoing time e) {m : ℕ}
    (hrecived : (e.state m).device.credentialsRecived = true) :
    ∃ n, (e.state n).phase = .endless := by
  have hconnecting : ∀ {n}, (e.state n).phase = .connecting →
      ∃ n, (e.state n).phase = .endless := by
    intro n hphase
    obtain ⟨n', -, hendless⟩ := h.endless_of_connecting hphase
    exact ⟨n', hendless⟩
  cases hphase : (e.state m).phase with
  | outer =>
      obtain ⟨n, -, hphase'⟩ := h.connecting_of_outer hphase hrecived
      exact hconnecting hphase'
  | waiting =>
      -- the waiting loop has not accepted anything yet
      obtain ⟨before, hbefore⟩ := h.reached m
      obtain ⟨time', hrun⟩ := run_sinceRestart hbefore
      have hnone := (stages_run (oneBoot_sinceRestart before) hrun).waiting hphase
      rw [hrecived] at hnone
      cases hnone
  | connecting => exact hconnecting hphase
  | endless => exact ⟨m, hphase⟩

/-! ## The pump in the endless loop -/

/-- The pump is switched by the calls alone. -/
theorem tended (h : Ongoing time e) :
    Tended bombaLimits (fun n => (e.state n).rutinas.bomba) fun n => (e.input n).clock? := by
  intro n
  have hnext := h.next n
  have hboot := h.oneBoot n
  dsimp only
  generalize e.state (n + 1) = s' at hnext ⊢
  generalize e.input n = o at hnext hboot ⊢
  cases hnext with
  | restart time' => exact absurd rfl (hboot time')
  | rutinas clock _ => exact (comprobarRutinas_bomba clock _).cycle
  | packet | station | connect | skip | provision | iteration | wakeUp => rfl

/-- The endless loop goes on. -/
theorem exists_call (h : Ongoing time e) {k : ℕ} (hphase : (e.state k).phase = .endless) (m : ℕ) :
    ∃ n, m ≤ n ∧ ((e.input n).clock?).isSome := by
  have hendless := h.endless_always hphase
  obtain ⟨n, hn, hphase', hown⟩ := h.fair.exists_own
    (P := fun n => (e.state n).phase = .endless) (hendless (max m k) (le_max_right m k))
    (fun n hn _ _ => hendless (n + 1) (by omega))
    (fun n _ hp => ⟨.rutinas fun _ => 0, trivial, by
      rw [step_running (h.restarted n) (by simp), Closet.running, if_pos hp]
      rfl⟩)
  refine ⟨n, by omega, ?_⟩
  have hnext := h.next n
  generalize e.state (n + 1) = s' at hnext
  generalize e.input n = o at hnext hown ⊢
  cases hnext with
  | restart | packet | station => exact hown.elim
  | rutinas => rfl
  | connect _ _ hother | skip _ _ hother | provision _ _ hother | iteration hother
  | wakeUp hother =>
      rw [hphase'] at hother
      cases hother

/-- In the endless loop the pump is switched again and again. -/
theorem exists_switched (h : Ongoing time e) {k : ℕ} (hphase : (e.state k).phase = .endless)
    (on : Bool) (m : ℕ) :
    ∃ n, m ≤ n ∧ ∃ clock, e.input n = .rutinas clock ∧
      ∃ issued ∈ (e.state n).rutinas.issued clock,
        issued.command = if on then .enableWaterFlow else .disableWaterFlow := by
  have htime : ∀ t, ∃ N, ∀ n, N ≤ n → ∀ clock ∈ (e.input n).clock?, t < clock 0 := by
    intro t
    obtain ⟨N, hN⟩ := h.clock t
    exact ⟨N, fun n hn clock hclock => hN n hn clock (eq_rutinas_of_clock? hclock)⟩
  obtain ⟨n, hn, clock, hclock, s, hs, hon⟩ :=
    h.tended.exists_switch (h.exists_call hphase) htime on m
  rw [← filterMap_issued] at hs
  obtain ⟨issued, hissued, hswitch⟩ := List.mem_filterMap.mp hs
  refine ⟨n, hn, clock, eq_rutinas_of_clock? hclock, issued, hissued, ?_⟩
  rw [command_of_bomba? hswitch, hon]

end Ongoing

/-- **The plants are watered again and again.** -/
theorem watered_forever (h : Ongoing time e)
    (hrecived : (e.state 0).device.credentialsRecived = true) (on : Bool) (m : ℕ) :
    ∃ n, m ≤ n ∧ ∃ clock, e.input n = .rutinas clock ∧
      ∃ issued ∈ (e.state n).rutinas.issued clock,
        issued.command = if on then .enableWaterFlow else .disableWaterFlow := by
  obtain ⟨k, hphase⟩ := h.exists_endless hrecived
  exact h.exists_switched hphase on m

/-! ## A run -/

/-- After `phoneSession` has provisioned the closet: it connects, and then makes a call
every second. -/
def phoneForever : ℕ → Occurrence
  | 0 => .pass true .missing
  | 1 => .station .started
  | 2 => .station .gotIp
  | 3 => .wakeUp
  | n + 4 => .rutinas fun _ => n

theorem run_phoneForever {s : Closet}
    (hs : run Closet.step (.start 0) (phoneSession.take 4) = some s) (n : ℕ) :
    ∃ s', run Closet.step s ((List.range (n + 4)).map phoneForever) = some s' ∧
      s'.phase = .endless ∧ s'.station.restarted = false := by
  induction n with
  | zero =>
      obtain ⟨s', hrun, hpair⟩ := Option.map_eq_some_iff.mp run_phoneSession
      obtain ⟨hphase, hrestarted⟩ := Prod.mk.inj hpair
      rw [← List.take_append_drop 4 phoneSession, run_append, hs] at hrun
      exact ⟨s', hrun, hphase, hrestarted⟩
  | succ n ih =>
      obtain ⟨mid, hmid, hphase, hrestarted⟩ := ih
      refine ⟨{ mid with rutinas := (comprobarRutinas (fun _ => n) mid.rutinas).vars }, ?_, hphase,
        hrestarted⟩
      rw [show n + 1 + 4 = n + 4 + 1 by omega, List.range_succ, List.map_append,
        List.map_singleton, run_concat, hmid, Option.bind_some, phoneForever,
        step_running hrestarted (by simp), Closet.running, if_pos hphase]

theorem exists_phoneForever {s : Closet}
    (hs : run Closet.step (.start 0) (phoneSession.take 4) = some s) :
    ∃ e : Forever Closet.step, e.state 0 = s ∧ e.input = phoneForever := by
  apply Forever.exists_of_input
  intro n
  obtain ⟨s', hrun, -⟩ := run_phoneForever hs n
  rw [List.range_add, List.map_append] at hrun
  obtain ⟨mid, hmid, -⟩ := run_append_eq_some hrun
  rw [hmid]
  rfl

/-- What the attempt has got to when it takes the got-IP event. -/
theorem run_phoneSession_connecting :
    (run Closet.step (.start 0) (phoneSession.take 6)).map Closet.phase = some .connecting ∧
      (run Closet.step (.start 0) (phoneSession.take 7)).map
        (fun s => s.station.eventGroup.connectedBit) = some true := by
  decide +kernel

theorem ongoing_phoneForever (hs : run Closet.step (.start 0) (phoneSession.take 4) = some s)
    (hstate : e.state 0 = s) (hinput : e.input = phoneForever) : Ongoing 0 e := by
  have hrun : ∀ n, run Closet.step s ((List.range n).map phoneForever) = some (e.state n) := by
    intro n
    rw [← hstate, ← hinput]
    exact e.run_take n
  have hendless : ∀ n, (e.state (n + 4)).phase = .endless := by
    intro n
    obtain ⟨s', hs', hphase, -⟩ := run_phoneForever hs n
    rw [hrun] at hs'
    rw [Option.some.inj hs', hphase]
  have hwhole : ∀ n, run Closet.step (.start 0)
      (phoneSession.take 4 ++ (List.range n).map phoneForever) = some (e.state n) := by
    intro n
    rw [run_append, hs]
    exact hrun n
  obtain ⟨hconnecting, hconnected⟩ := run_phoneSession_connecting
  have hphase : (e.state 2).phase = .connecting := by
    rw [show phoneSession.take 6 = phoneSession.take 4 ++ (List.range 2).map phoneForever from rfl,
      hwhole] at hconnecting
    exact Option.some.inj hconnecting
  have hbit : (e.state 3).station.eventGroup.connectedBit = true := by
    rw [show phoneSession.take 7 = phoneSession.take 4 ++ (List.range 3).map phoneForever from rfl,
      hwhole] at hconnected
    exact Option.some.inj hconnected
  refine ⟨⟨_, hstate ▸ hs⟩, ?_, ?_, ?_, ?_⟩
  · intro n time' hrestart
    rw [hinput] at hrestart
    rcases n with _ | _ | _ | _ | n <;> cases hrestart
  · intro m _
    refine ⟨m + 4, by omega, ?_⟩
    rw [hinput]
    exact trivial
  · intro t
    refine ⟨t.toNat + 5, fun n hn clock hclock => ?_⟩
    obtain ⟨k, rfl⟩ : ∃ k, n = k + 4 := ⟨n - 4, by omega⟩
    rw [hinput] at hclock
    obtain rfl : (fun _ => (k : ℤ)) = clock := by simpa [phoneForever] using hclock
    dsimp only
    omega
  · intro n hwaits hnone
    have hgotIp : e.input 2 = .station .gotIp := by rw [hinput, phoneForever]
    rcases Nat.lt_or_ge n 3 with hearly | hlate
    · exact ⟨2, by omega, hphase, hgotIp⟩
    · rcases Nat.eq_or_lt_of_le hlate with rfl | hend
      · rw [hbit] at hnone
        cases hnone
      · obtain ⟨k, rfl⟩ : ∃ k, n = k + 4 := ⟨n - 4, by omega⟩
        rw [hendless k] at hwaits
        cases hwaits

theorem watered_forever_phone :
    ∃ e : Forever Closet.step, e.input = phoneForever ∧ ∀ (on : Bool) (m : ℕ),
      ∃ n, m ≤ n ∧ ∃ clock, e.input n = .rutinas clock ∧
        ∃ issued ∈ (e.state n).rutinas.issued clock,
          issued.command = if on then .enableWaterFlow else .disableWaterFlow := by
  have haccepted : (run Closet.step (.start 0) (phoneSession.take 4)).map
      (fun s => s.device.credentialsRecived) = some true := by
    decide +kernel
  obtain ⟨s, hs, hrecived⟩ := Option.map_eq_some_iff.mp haccepted
  obtain ⟨e, hstate, hinput⟩ := exists_phoneForever hs
  exact ⟨e, hinput, watered_forever (ongoing_phoneForever hs hstate hinput) (hstate ▸ hrecived)⟩

end HydroponicCloset.System
