import HydroponicCloset.Lib.Lists
import HydroponicCloset.Wifi.Retries

/-!
# Restarts and reconnects

Each call of `wifi_init_sta` registers `wifi_sta_event_handler` once more, as an instance of
its own, and no registration is ever taken back.  From the second attempt on an event
therefore runs the handler several times.  Here a move is one run of the handler, whichever
event and whichever registration it is for: nothing is asked of the driver, and any number
of registrations is covered.

The main task is followed more closely than in `Station.step`.  The call of
`xEventGroupWaitBits` is a move of its own, and what it returns are the bits that it finds
set, or else the bits at the moment when the first is set.  A bit that is set later, but
before the main task goes on, is not among them.

* `restarted_iff`: the chip is restarted by a run of the handler for a disconnection that
  finds the retries used up while `app_main` believes in a connection, and by nothing else.
* `reconnects_eq`: the reconnects of any part of a run in which the handler is not run for a
  got-IP event.  There are three at most, over however many events, registrations and
  attempts they are spread.
-/

namespace HydroponicCloset.Wifi

open Runs Lists

/-! ## Moves of the two tasks -/

/-- What happens next: one run of the handler; `wifi_init_sta` up to `xEventGroupWaitBits`;
the call of this; or its return and the rest of `wifi_init_sta`. -/
inductive StationMove
  | handler (event : StationEvent)
  | wifiInitSta
  | wait
  | wakeUp
  deriving DecidableEq

/-- The main task is outside of `wifi_init_sta`; in it, before `xEventGroupWaitBits`; or in
this, with the bits that it is to return once it has found some. -/
inductive MainTask
  | outside
  | preparing
  | waiting (bits : Option EventGroup)
  deriving DecidableEq

/-- The variables, and where the main task is. -/
structure Attempts where
  station : Station := {}
  main : MainTask := .outside

/-- The bits, if one of them is set. -/
def EventGroup.found (group : EventGroup) : Option EventGroup :=
  if group.connectedBit ∨ group.failBit then some group else none

/-- What a run of the handler does to a wait: one that has found nothing yet takes the bits
as they are now. -/
def MainTask.notice (group : EventGroup) : MainTask → MainTask
  | .waiting none => .waiting group.found
  | main => main

/-- `wifi_init_sta` from the return of `xEventGroupWaitBits` on. -/
def Station.returned (s : Station) (bits : EventGroup) : Station :=
  { s with waiting := false, wifiOk := s.wifiOk || bits.connectedBit }

namespace Attempts

/-- One move.  `app_main` calls `wifi_init_sta` as long as `wifi_ok` is zero, and nothing
runs after a restart. -/
def step (t : Attempts) (move : StationMove) : Option Attempts :=
  if t.station.restarted then none
  else
    match move with
    | .handler event =>
        let station := t.station.wifiStaEventHandler event
        some ⟨station, t.main.notice station.eventGroup⟩
    | .wifiInitSta =>
        if t.main = .outside ∧ ¬ t.station.wifiOk then
          some ⟨t.station.wifiInitSta, .preparing⟩
        else none
    | .wait =>
        if t.main = .preparing then some ⟨t.station, .waiting t.station.eventGroup.found⟩
        else none
    | .wakeUp =>
        match t.main with
        | .waiting (some bits) => some ⟨t.station.returned bits, .outside⟩
        | _ => none

/-- The actions in a move. -/
def actions (t : Attempts) : StationMove → List Action
  | .handler event => t.station.actions (.station event)
  | .wifiInitSta => [.attempt]
  | .wait => []
  | .wakeUp => []

/-- The moves, with the actions in each. -/
inductive Next (t : Attempts) : StationMove → List Action → Attempts → Prop
  | handler {event : StationEvent} {actions : List Action} {station : Station}
      (hcall : t.station.Call (.station event) actions station) :
      Next t (.handler event) actions ⟨station, t.main.notice station.eventGroup⟩
  | wifiInitSta (hmain : t.main = .outside) :
      Next t .wifiInitSta [.attempt] ⟨t.station.wifiInitSta, .preparing⟩
  | wait (hmain : t.main = .preparing) :
      Next t .wait [] ⟨t.station, .waiting t.station.eventGroup.found⟩
  | wakeUp {bits : EventGroup} (hmain : t.main = .waiting (some bits)) :
      Next t .wakeUp [] ⟨t.station.returned bits, .outside⟩

theorem next_of_step {t t' : Attempts} {move : StationMove} (h : t.step move = some t') :
    t.station.restarted = false ∧ Next t move (t.actions move) t' := by
  have hrestarted : t.station.restarted = false := by
    cases hcall : t.station.restarted with
    | false => rfl
    | true => simp [step, hcall] at h
  refine ⟨hrestarted, ?_⟩
  unfold step at h
  rw [if_neg (by simp [hrestarted])] at h
  cases move with
  | handler event =>
      obtain rfl := Option.some.inj h
      refine .handler (Station.call_of_handle ?_)
      rw [Station.handle, if_neg (by simp [hrestarted])]
  | wifiInitSta =>
      simp only at h
      split_ifs at h with hcall
      obtain rfl := Option.some.inj h
      exact .wifiInitSta hcall.1
  | wait =>
      simp only at h
      split_ifs at h with hmain
      obtain rfl := Option.some.inj h
      exact .wait hmain
  | wakeUp =>
      simp only at h
      split at h
      · rename_i bits hmain
        obtain rfl := Option.some.inj h
        exact .wakeUp hmain
      · cases h

end Attempts

/-! ## Histories -/

/-- The runs of the handler for a disconnection after the latest one for a got-IP event. -/
def lossRuns (moves : List StationMove) : ℕ :=
  (since (.handler .gotIp) moves).count (.handler .disconnected)

/-- `xEventGroupWaitBits` has been called, and a bit is set. -/
def Awake (moves : List StationMove) : Prop :=
  .wait ∈ since .wifiInitSta moves ∧
    HasBit .wifiInitSta (.handler .gotIp) (.handler .disconnected) moves

/-- When the wait of the latest attempt ended, with this move or an earlier one, the handler had
been run for a got-IP event of the attempt. -/
def FoundIp (moves : List StationMove) : Prop :=
  ∃ first rest, moves = first ++ rest ∧ .wifiInitSta ∉ rest ∧
    (Awake first ∧ ¬ Awake first.dropLast) ∧ .handler .gotIp ∈ since .wifiInitSta first

/-- Some wake-up found the connected bit. -/
def Believed (moves : List StationMove) : Prop :=
  ∃ pre post, moves = pre ++ .wakeUp :: post ∧ FoundIp pre

/-- The latest move is a run of the handler for a disconnection that finds the retries used up,
and `app_main` believes in a connection. -/
def Restarts (moves : List StationMove) : Prop :=
  ∃ pre, moves = pre ++ [.handler .disconnected] ∧ maximumRetry ≤ lossRuns pre ∧ Believed pre

variable {moves rest : List StationMove} {move : StationMove} {actions : List Action}
  {t t' : Attempts}

theorem lossRuns_concat (moves : List StationMove) (move : StationMove) :
    lossRuns (moves ++ [move]) =
      if move = .handler .gotIp then 0
      else if move = .handler .disconnected then lossRuns moves + 1
      else lossRuns moves :=
  count_since_concat _ _ move moves

theorem lossRuns_disconnected (moves : List StationMove) :
    lossRuns (moves ++ [.handler .disconnected]) = lossRuns moves + 1 := by
  rw [lossRuns_concat, if_neg (by simp), if_pos rfl]

theorem lossRuns_other (hgotIp : move ≠ .handler .gotIp) (hlost : move ≠ .handler .disconnected)
    (moves : List StationMove) : lossRuns (moves ++ [move]) = lossRuns moves := by
  rw [lossRuns_concat, if_neg hgotIp, if_neg hlost]

theorem Awake.concat (h : Awake moves) (hmove : move ≠ .wifiInitSta) :
    Awake (moves ++ [move]) :=
  ⟨(mem_since_other hmove _ _).mpr (Or.inr h.1), h.2.concat hmove⟩

/-- Whether the wait has found the connected bit is settled when it ends. -/
theorem foundIp_concat :
    FoundIp (moves ++ [move]) ↔
      (Awake (moves ++ [move]) ∧ ¬ Awake moves) ∧
          .handler .gotIp ∈ since .wifiInitSta (moves ++ [move]) ∨
        move ≠ .wifiInitSta ∧ FoundIp moves := by
  constructor
  · rintro ⟨first, rest, heq, hrest, hends, hgotIp⟩
    rcases List.eq_nil_or_concat rest with rfl | ⟨rest, last, rfl⟩
    · rw [List.append_nil] at heq
      rw [← heq, List.dropLast_concat] at hends
      exact Or.inl ⟨hends, by rwa [heq]⟩
    · rw [List.concat_eq_append] at heq hrest
      rw [← List.append_assoc] at heq
      obtain ⟨rfl, hlast⟩ := List.append_inj' heq rfl
      obtain rfl : move = last := (List.cons.inj hlast).1
      rw [List.mem_append, not_or, List.mem_singleton] at hrest
      exact Or.inr ⟨Ne.symm hrest.2, first, rest, rfl, hrest.1, hends, hgotIp⟩
  · rintro (⟨hends, hgotIp⟩ | ⟨hmove, first, rest, rfl, hrest, hends, hgotIp⟩)
    · refine ⟨moves ++ [move], [], (List.append_nil _).symm, by simp, ?_, hgotIp⟩
      rwa [List.dropLast_concat]
    · refine ⟨first, rest ++ [move], List.append_assoc .., ?_, hends, hgotIp⟩
      rw [List.mem_append, not_or, List.mem_singleton]
      exact ⟨hrest, Ne.symm hmove⟩

theorem believed_concat :
    Believed (moves ++ [move]) ↔ Believed moves ∨ move = .wakeUp ∧ FoundIp moves :=
  exists_split_concat

theorem believed_other (h : move ≠ .wakeUp) : Believed (moves ++ [move]) ↔ Believed moves := by
  rw [believed_concat]
  exact or_iff_left fun hwakeUp => h hwakeUp.1

theorem restarts_concat :
    Restarts (moves ++ [move]) ↔
      move = .handler .disconnected ∧ maximumRetry ≤ lossRuns moves ∧ Believed moves := by
  constructor
  · rintro ⟨pre, heq, hlosses, hbelieved⟩
    obtain ⟨rfl, hlast⟩ := List.append_inj' heq rfl
    exact ⟨(List.cons.inj hlast).1, hlosses, hbelieved⟩
  · rintro ⟨rfl, hlosses, hbelieved⟩
    exact ⟨moves, rfl, hlosses, hbelieved⟩

theorem not_restarts (h : move ≠ .handler .disconnected) : ¬ Restarts (moves ++ [move]) :=
  fun hrestarts => h (restarts_concat.mp hrestarts).1

/-! ## What the state says of the history -/

/-- The counter and the bits. -/
structure Counts (moves : List StationMove) (s : Station) : Prop where
  retryNum : s.retryNum = min maximumRetry (lossRuns moves)
  connectedBit : s.eventGroup.connectedBit = true ↔
    .handler .gotIp ∈ since .wifiInitSta moves
  failBit : Fails .wifiInitSta (.handler .gotIp) (.handler .disconnected) moves
    s.eventGroup.failBit

/-- The wait. -/
def Stands (moves : List StationMove) : MainTask → Prop
  | .outside => True
  | .preparing => .wait ∉ since .wifiInitSta moves
  | .waiting none => .wait ∈ since .wifiInitSta moves ∧ ¬ Awake moves
  | .waiting (some bits) => Awake moves ∧ (bits.connectedBit = true ↔ FoundIp moves)

/-- The state, as it can be read off the moves. -/
structure Mirrors (moves : List StationMove) (t : Attempts) : Prop where
  counts : Counts moves t.station
  stands : Stands moves t.main
  wifiOk : t.station.wifiOk = true ↔ Believed moves
  restarted : t.station.restarted = true ↔ Restarts moves

theorem mirrors_start : Mirrors [] {} where
  counts := ⟨rfl, by decide, fun _ => by decide⟩
  stands := trivial
  wifiOk := by simp [Believed]
  restarted := by simp [Restarts]

/-- A move that is none of the three keeps the counter and the bits. -/
theorem Counts.other {s s' : Station} (h : Counts moves s) (hcall : move ≠ .wifiInitSta)
    (hgotIp : move ≠ .handler .gotIp) (hlost : move ≠ .handler .disconnected)
    (hretryNum : s'.retryNum = s.retryNum) (hgroup : s'.eventGroup = s.eventGroup) :
    Counts (moves ++ [move]) s' where
  retryNum := by rw [hretryNum, lossRuns_other hgotIp hlost, h.retryNum]
  connectedBit := by
    rw [hgroup, mem_since_other hcall, or_iff_right (Ne.symm hgotIp)]
    exact h.connectedBit
  failBit := by
    rw [hgroup]
    exact h.failBit.other hcall hgotIp hlost

/-- **One move** keeps the counter and the bits in step. -/
theorem Counts.next (h : Counts moves t.station) (hnext : t.Next move actions t') :
    Counts (moves ++ [move]) t'.station := by
  have hretryNum := h.retryNum
  cases hnext with
  | handler hcall =>
      cases hcall with
      | started => exact h.other (by simp) (by simp) (by simp) rfl rfl
      | retry hretry =>
          have hfew : lossRuns moves < maximumRetry := by omega
          refine ⟨?_, ?_, h.failBit.retry (by simp) (by simp) hfew⟩
          · rw [lossRuns_disconnected]
            show t.station.retryNum + 1 = _
            omega
          · rw [mem_since_other (by simp), or_iff_right (by simp)]
            exact h.connectedBit
      | fail hretry =>
          have hspent : maximumRetry ≤ lossRuns moves := by omega
          refine ⟨?_, ?_, fails_lost (by simp) (by simp) hspent⟩
          · rw [lossRuns_disconnected]
            show t.station.retryNum = _
            omega
          · rw [mem_since_other (by simp), or_iff_right (by simp)]
            exact h.connectedBit
      | gotIp =>
          refine ⟨?_, ?_, fails_gotIp (by simp)⟩
          · rw [lossRuns_concat, if_pos rfl]
            rfl
          · exact iff_of_true rfl ((mem_since_other (by simp) _ _).mpr (Or.inl rfl))
  | wifiInitSta _ =>
      refine ⟨?_, ?_, fails_init⟩
      · rw [lossRuns_other (by simp) (by simp)]
        exact hretryNum
      · rw [since_self]
        exact iff_of_false (by simp [Station.wifiInitSta]) (by simp)
  | wait _ => exact h.other (by simp) (by simp) (by simp) rfl rfl
  | wakeUp _ => exact h.other (by simp) (by simp) (by simp) rfl rfl

/-- A wait that looks at the bits for the first time finds those that are set. -/
theorem stands_found {s : Station} (h : Counts moves s)
    (hwait : .wait ∈ since .wifiInitSta moves) (hfirst : ¬ Awake moves.dropLast) :
    Stands moves (.waiting s.eventGroup.found) := by
  have hbit := hasBit_iff h.connectedBit h.failBit
  unfold EventGroup.found
  split_ifs with hset
  · have hawake : Awake moves := ⟨hwait, hbit.mp hset⟩
    refine ⟨hawake, ?_⟩
    rw [h.connectedBit]
    constructor
    · intro hgotIp
      exact ⟨moves, [], (List.append_nil _).symm, by simp, ⟨hawake, hfirst⟩, hgotIp⟩
    · rintro ⟨first, rest, rfl, hrest, -, hgotIp⟩
      rw [since_append hrest]
      exact List.mem_append_right _ hgotIp
  · exact ⟨hwait, fun hawake => hset (hbit.mpr hawake.2)⟩

/-- **One move** keeps the wait in step. -/
theorem Stands.next (h : Stands moves t.main) (hcounts : Counts moves t.station)
    (hnext : t.Next move actions t') : Stands (moves ++ [move]) t'.main := by
  have hcounts' := hcounts.next hnext
  cases hnext with
  | handler hcall =>
      show Stands _ (t.main.notice _)
      cases hmain : t.main with
      | outside => trivial
      | preparing =>
          rw [hmain] at h
          show _ ∉ _
          rw [mem_since_other (by simp), or_iff_right (by simp)]
          exact h
      | waiting bits =>
          rw [hmain] at h
          cases bits with
          | none =>
              refine stands_found hcounts' ((mem_since_other (by simp) _ _).mpr (Or.inr h.1)) ?_
              rw [List.dropLast_concat]
              exact h.2
          | some bits =>
              obtain ⟨hawake, hbits⟩ := h
              refine ⟨hawake.concat (by simp), ?_⟩
              rw [hbits, foundIp_concat,
                and_iff_right (by simp : StationMove.handler _ ≠ .wifiInitSta)]
              exact (or_iff_right fun hends => hends.1.2 hawake).symm
  | wifiInitSta _ =>
      show _ ∉ _
      rw [since_self]
      simp
  | wait hmain =>
      rw [hmain] at h
      refine stands_found hcounts' ((mem_since_other (by simp) _ _).mpr (Or.inl rfl)) ?_
      rw [List.dropLast_concat]
      exact fun hawake => h hawake.1
  | wakeUp _ => trivial

/-- **One move** keeps everything in step. -/
theorem Mirrors.next (h : Mirrors moves t) (hrestarted : t.station.restarted = false)
    (hnext : t.Next move actions t') : Mirrors (moves ++ [move]) t' := by
  have hretryNum := h.counts.retryNum
  have hcounts := h.counts.next hnext
  have hstands := h.stands.next h.counts hnext
  -- a move that neither finds a connection nor restarts the chip
  have hother : move ≠ .wakeUp → ¬ Restarts (moves ++ [move]) →
      t'.station.wifiOk = t.station.wifiOk → t'.station.restarted = t.station.restarted →
        Mirrors (moves ++ [move]) t' := by
    intro hwakeUp hnot hok hsame
    refine ⟨hcounts, hstands, ?_, ?_⟩
    · rw [believed_other hwakeUp, hok]
      exact h.wifiOk
    · rw [hsame, hrestarted]
      exact iff_of_false (by simp) hnot
  cases hnext with
  | handler hcall =>
      cases hcall with
      | started => exact hother (by simp) (not_restarts (by simp)) rfl rfl
      | retry hretry =>
          refine hother (by simp) ?_ rfl rfl
          rw [restarts_concat]
          rintro ⟨-, hlosses, -⟩
          omega
      | fail hretry =>
          refine ⟨hcounts, hstands, ?_, ?_⟩
          · rw [believed_other (by simp)]
            exact h.wifiOk
          · rw [restarts_concat, and_iff_right rfl, and_iff_right (by omega)]
            exact h.wifiOk
      | gotIp => exact hother (by simp) (not_restarts (by simp)) rfl rfl
  | wifiInitSta _ => exact hother (by simp) (not_restarts (by simp)) rfl rfl
  | wait _ => exact hother (by simp) (not_restarts (by simp)) rfl rfl
  | wakeUp hmain =>
      have hfound := h.stands
      rw [hmain] at hfound
      refine ⟨hcounts, hstands, ?_, ?_⟩
      · rw [believed_concat, and_iff_right rfl, ← h.wifiOk, ← hfound.2]
        exact Bool.or_eq_true_iff
      · show t.station.restarted = true ↔ _
        rw [hrestarted]
        exact iff_of_false (by simp) (not_restarts (by simp))

/-- The moves of a run can be read off the state it reaches. -/
theorem mirrors_run (hrun : run Attempts.step {} moves = some t) : Mirrors moves t := by
  refine run_history Mirrors mirrors_start ?_ hrun
  intro moves t move t' h hstep
  obtain ⟨hrestarted, hnext⟩ := Attempts.next_of_step hstep
  exact h.next hrestarted hnext

/-! ## Restarts -/

/-- **When the chip is restarted.** -/
theorem restarted_iff (hrun : run Attempts.step {} moves = some t) :
    t.station.restarted = true ↔
      ∃ pre, moves = pre ++ [.handler .disconnected] ∧ maximumRetry ≤ lossRuns pre ∧
        Believed pre :=
  (mirrors_run hrun).restarted

/-- A first attempt that fails. -/
def firstAttempt : List StationMove :=
  [.wifiInitSta, .wait, .handler .started, .handler .disconnected, .handler .disconnected,
    .handler .disconnected, .handler .disconnected, .wakeUp]

/-- A second attempt, in which every event runs the handler twice.  The connection that it
makes is lost, and the second event of the loss uses up the retries. -/
def secondConnection : List StationMove :=
  [.wifiInitSta, .handler .started, .handler .started, .wait, .handler .gotIp, .handler .gotIp,
    .wakeUp, .handler .disconnected, .handler .disconnected, .handler .disconnected,
    .handler .disconnected]

theorem restarted_secondConnection :
    ∃ t, run Attempts.step {} (firstAttempt ++ secondConnection) = some t ∧
      (t.station.restarted = true ↔
        ∃ pre, firstAttempt ++ secondConnection = pre ++ [.handler .disconnected] ∧
          maximumRetry ≤ lossRuns pre ∧ Believed pre) := by
  obtain ⟨t, hrun⟩ := Option.isSome_iff_exists.mp
    (show (run Attempts.step {} (firstAttempt ++ secondConnection)).isSome = true by decide)
  exact ⟨t, hrun, restarted_iff hrun⟩

/-! ## Reconnects -/

/-- A reconnect is counted, and only a got-IP event takes any back. -/
theorem retryNum_next (hnext : t.Next move actions t') (hgotIp : move ≠ .handler .gotIp) :
    t'.station.retryNum = t.station.retryNum + actions.count .reconnect := by
  cases hnext with
  | handler hcall =>
      cases hcall with
      | gotIp => exact absurd rfl hgotIp
      | _ => rfl
  | _ => rfl

theorem retryNum_run (hnone : .handler .gotIp ∉ rest) (hrun : run Attempts.step t rest = some t') :
    t'.station.retryNum =
      t.station.retryNum + (trace Attempts.step Attempts.actions t rest).count .reconnect := by
  induction rest generalizing t with
  | nil =>
      obtain rfl : t = t' := by simpa using hrun
      rfl
  | cons move rest ih =>
      obtain ⟨hmove, hlater⟩ := not_or.mp fun hmem => hnone (List.mem_cons.mpr hmem)
      obtain ⟨mid, hmid, hrun⟩ := run_cons_eq_some hrun
      have hstep := retryNum_next (Attempts.next_of_step hmid).2 (Ne.symm hmove)
      calc t'.station.retryNum
          = mid.station.retryNum +
              (trace Attempts.step Attempts.actions mid rest).count .reconnect := ih hlater hrun
        _ = t.station.retryNum + ((t.actions move).count .reconnect +
              (trace Attempts.step Attempts.actions mid rest).count .reconnect) := by
            rw [hstep, Nat.add_assoc]
        _ = t.station.retryNum +
              (trace Attempts.step Attempts.actions t (move :: rest)).count .reconnect := by
            rw [trace, hmid, Option.elim_some, List.count_append]

/-- **The reconnects** of a part of a run: one for each run of the handler for a loss, as far
as the retries go. -/
theorem reconnects_eq (hrun : run Attempts.step {} moves = some t)
    (hrest : run Attempts.step t rest = some t') (hnone : .handler .gotIp ∉ rest) :
    (trace Attempts.step Attempts.actions t rest).count .reconnect =
      min maximumRetry (lossRuns (moves ++ rest)) - min maximumRetry (lossRuns moves) := by
  have hwhole : run Attempts.step {} (moves ++ rest) = some t' := by
    rw [run_append, hrun]
    exact hrest
  have hbefore := (mirrors_run hrun).counts.retryNum
  have hafter := (mirrors_run hwhole).counts.retryNum
  have hcount := retryNum_run hnone hrest
  omega

/-- An attempt with one loss so far. -/
def oneLoss : List StationMove :=
  [.wifiInitSta, .wait, .handler .started, .handler .disconnected]

/-- The rest of it, and another one, in which every event runs the handler twice. -/
def moreLosses : List StationMove :=
  [.handler .disconnected, .handler .disconnected, .handler .disconnected, .wakeUp,
    .wifiInitSta, .handler .started, .handler .started, .wait, .handler .disconnected,
    .handler .disconnected]

theorem reconnects_moreLosses :
    ∃ t t', run Attempts.step {} oneLoss = some t ∧ run Attempts.step t moreLosses = some t' ∧
      (trace Attempts.step Attempts.actions t moreLosses).count .reconnect =
        min maximumRetry (lossRuns (oneLoss ++ moreLosses)) -
          min maximumRetry (lossRuns oneLoss) := by
  obtain ⟨t, t', hfirst, hrest⟩ : ∃ t t', run Attempts.step {} oneLoss = some t ∧
      run Attempts.step t moreLosses = some t' := ⟨_, _, rfl, rfl⟩
  exact ⟨t, t', hfirst, hrest, reconnects_eq hfirst hrest (by decide)⟩

end HydroponicCloset.Wifi
