import HydroponicCloset.System.Decomposition
import HydroponicCloset.Transport.Fairness

/-!
# Every packet is answered

`decomposes` says what is sent for the packets received, up to what is queued and what the call
that has begun is still to queue.  In a run without end nothing of this is left for ever.

`all_answered`: if `send` again and again makes a pass at which the controller accepts a packet,
nobody only ever tries while the queue is full, a call that can go on does, and no PUT keeps
the header loop for ever, then all packets received by some time have been answered, in full
and in order, by a later one.
-/

namespace HydroponicCloset.System

open CMemory Runs Bluetooth Obex App Channels Transport

variable {time : ℤ} {e : Forever Firmware.step} {m n : ℕ}

/-- What a run without end is asked for. -/
structure Attended (time : ℤ) (e : Forever Firmware.step) : Prop where
  started : e.state 0 = .start time
  accepts : ∀ m, ∃ n, m ≤ n ∧ e.input n = .send true
  tries : ∀ caller, (∀ m, ∃ n, m ≤ n ∧ (e.state n).packets.queue.length < sendBufferSize) →
    ∀ m, ∃ n, m ≤ n ∧ (e.state n).packets.queue.length < sendBufferSize ∧
      e.input n = .queuePacket caller
  handles : e.Fair fun m => m = .handle
  returns : ∀ n packet, (e.state n).handling = some packet →
    (hostRcvPkt (e.state n).closet.device.globals packet).next.isSome

/-- The moves before some time. -/
def movesBefore (e : Forever Firmware.step) (n : ℕ) : List Move := (List.range n).map e.input

/-! ## The queue's part -/

/-- A move is at most one event for the queue. -/
theorem firmwareEvents_length_le (s : Firmware) (m : Move) : (s.events m).length ≤ 1 := by
  cases m with
  | handle =>
      rw [Firmware.events]
      cases s.handling with
      | none => exact Nat.zero_le 1
      | some packet => exact le_refl 1
  | elsewhere o => exact Nat.zero_le 1
  | hostRcvPkt | btAdvtTask | queuePacket => exact le_refl 1
  | send sendAvail =>
      cases sendAvail with
      | true => exact le_refl 1
      | false => exact Nat.zero_le 1

theorem sentOf_mono {caller : Caller} (hmn : m ≤ n) :
    sentOf caller time (movesBefore e m) <+: sentOf caller time (movesBefore e n) := by
  obtain ⟨rest, hrest⟩ : movesBefore e m <+: movesBefore e n := e.inputs_prefix hmn
  rw [sentOf, sentOf, ← hrest]
  exact (trace_grows _ _ _).filterMap _

namespace Attended

theorem run_eq (h : Attended time e) (n : ℕ) :
    run Firmware.step (.start time) (movesBefore e n) = some (e.state n) := by
  rw [← h.started]
  exact e.run_take n

theorem served (h : Attended time e) : Fifo.Served sendBufferSize
    (Fifo.partAt Firmware.packets e) (Fifo.eventAt? Firmware.events e) := by
  refine Fifo.served_of_machine firmwareEvents_length_le step_queue
    (fun n => Fifo.run_length_le (Nat.zero_le _) (run_queue (h.run_eq n))) (fun m => ?_)
    (fun caller hroom m => ?_)
  · obtain ⟨n, hn, hinput⟩ := h.accepts m
    exact ⟨n, hn, by rw [hinput]; rfl⟩
  · obtain ⟨n, hn, hfree, hinput⟩ := h.tries caller hroom m
    exact ⟨n, hn, hfree, by rw [hinput]; rfl⟩

/-- What the calls have been made with is sent. -/
theorem exists_sent (h : Attended time e) (caller : Caller) (m : ℕ) :
    ∃ n, m ≤ n ∧
      Fifo.called caller (trace Firmware.step Firmware.events (.start time) (movesBefore e m)) <+:
        sentOf caller time (movesBefore e n) := by
  obtain ⟨n, hn, hout⟩ := Fifo.eventually_out h.served (by decide) firmwareEvents_length_le
    sent_events caller m
  refine ⟨n, hn, ?_⟩
  rw [h.started] at hout
  exact hout

end Attended

/-! ## The calls of the callback -/

/-- Nothing but a restart takes the tasks of `init_bt` away. -/
theorem send_kept {closet closet' : Closet} {o : Occurrence} (hsend : 0 < closet.tasks.send)
    (hboot : ∀ time, o ≠ .restart time) (hstep : closet.step o = some closet') :
    0 < closet'.tasks.send := by
  cases Closet.next_of_step hstep with
  | restart time => exact absurd rfl (hboot time)
  | provision startBt file =>
      show 0 < (initBt startBt closet.tasks).send
      unfold initBt
      split_ifs
      · exact Nat.succ_pos _
      · exact hsend
  | packet | station | connect | skip | iteration | wakeUp | rutinas => exact hsend

/-- A call has begun after `init_bt`. -/
theorem send_of_handling {s : Firmware} {moves : List Move}
    (hrun : run Firmware.step (.start time) moves = some s) :
    s.handling ≠ none → 0 < s.closet.tasks.send := by
  have hstart : (Firmware.start time).handling ≠ none →
      0 < (Firmware.start time).closet.tasks.send := fun hbegun => absurd rfl hbegun
  refine run_invariant (fun s => s.handling ≠ none → 0 < s.closet.tasks.send)
    (fun s m s' hs hstep => ?_) hstart hrun
  cases Firmware.next_of_step hstep with
  | hostRcvPkt _ _ hstarted => exact fun _ => hstarted
  | handle => exact fun hbegun => absurd rfl hbegun
  | elsewhere o closet ho hother =>
      have hboot : ∀ time, o ≠ .restart time := by
        rintro time rfl
        cases ho
      exact fun hbegun => send_kept (hs hbegun) hboot hother
  | btAdvtTask | queuePacket | accepted | refused => exact hs

namespace Attended

theorem next (_h : Attended time e) (n : ℕ) : (e.state n).Next (e.input n) (e.state (n + 1)) :=
  Firmware.next_of_step (e.next n)

/-- While a call has begun and is not handled, no other begins. -/
theorem handling_quiet (h : Attended time e) (hbegun : (e.state n).handling ≠ none)
    (hbegun' : (e.state (n + 1)).handling ≠ none) (entries : List Frame) :
    Fifo.eventAt? Firmware.events e n ≠ some (.call .hostRcvPkt entries) := by
  have hnext := h.next n
  rw [Fifo.eventAt?]
  generalize e.state (n + 1) = s' at hnext hbegun'
  generalize e.input n = m at hnext ⊢
  cases hnext with
  | hostRcvPkt _ _ _ hidle => exact absurd hidle hbegun
  | handle => exact absurd rfl hbegun'
  | elsewhere | btAdvtTask | queuePacket | accepted | refused =>
      simp [Firmware.events]

/-- A call can go on when what it queues first is in the queue. -/
theorem handle_enabled (h : Attended time e) (hbegun : (e.state n).handling ≠ none)
    (hidle : (e.state n).packets.waiting .hostRcvPkt = []) :
    e.Enabled (fun m => m = .handle) n := by
  refine ⟨.handle, rfl, ?_⟩
  have hrestarted : (e.state n).closet.station.restarted = false := by
    have hstep := e.next n
    rw [Firmware.step] at hstep
    split_ifs at hstep with hrestarted
    exact Bool.eq_false_iff.mpr hrestarted
  have hsend := send_of_handling (h.run_eq n) hbegun
  obtain ⟨packet, hpacket⟩ := Option.ne_none_iff_exists'.mp hbegun
  obtain ⟨g, hg⟩ := Option.isSome_iff_exists.mp (h.returns n packet hpacket)
  have hcloset : (e.state n).closet.step (.packet packet) = some
      { (e.state n).closet with device := { (e.state n).closet.device with globals := g } } := by
    simp [Closet.step, Closet.running, hrestarted, hsend, hg]
  rw [Firmware.step, if_neg (by simp [hrestarted]), Firmware.running, hpacket, Option.bind_some,
    hcloset, Option.bind_some, Fifo.State.step, if_pos hidle]
  rfl

/-- **Every call comes to its end.** -/
theorem exists_idle (h : Attended time e) (m : ℕ) :
    ∃ n, m ≤ n ∧ (e.state n).handling = none := by
  by_contra hnever
  have hbegun : ∀ n, m ≤ n → (e.state n).handling ≠ none :=
    fun n hn hidle => hnever ⟨n, hn, hidle⟩
  obtain ⟨k, hk, hdone⟩ := h.served.gets_done (by decide) m (le_refl _)
    fun n hn => h.handling_quiet (hbegun n hn) (hbegun (n + 1) (by omega))
  obtain ⟨n, hn, hhandle⟩ := h.handles k
    fun n hn => h.handle_enabled (hbegun n (by omega)) (hdone n hn)
  have hnext := h.next n
  have hafter := hbegun (n + 1) (by omega)
  rw [hhandle] at hnext
  generalize e.state (n + 1) = s' at hnext hafter
  cases hnext with
  | handle => exact hafter rfl

/-- What the packets received by some time are answered with has been queued by a later
one. -/
theorem exists_called (h : Attended time e) (m : ℕ) :
    ∃ n, m ≤ n ∧ replies (begun (movesBefore e m)) <+: called time (movesBefore e n) := by
  obtain ⟨n, hn, hidle⟩ := h.exists_idle m
  obtain ⟨alone, halone⟩ := answersAlone_run (h.run_eq n)
  have hcalled := halone.replies_begun
  rw [Firmware.owed, hidle, Option.toList_none, List.flatMap_nil, List.append_nil] at hcalled
  refine ⟨n, hn, ?_⟩
  obtain ⟨rest, hrest⟩ : movesBefore e m <+: movesBefore e n := e.inputs_prefix hn
  rw [hcalled, ← hrest, begun, begun, List.filterMap_append]
  exact trace_grows _ _ _

end Attended

/-- **Every packet is answered**, and every command of `btAdvtTask` is sent. -/
theorem all_answered (h : Attended time e) (m : ℕ) :
    ∃ n, m ≤ n ∧
      replies (begun (movesBefore e m)) <+: sentOf .hostRcvPkt time (movesBefore e n) ∧
      commands (advertPasses (movesBefore e m)) <+: sentOf .btAdvtTask time (movesBefore e n) := by
  obtain ⟨k, hk, hcalled⟩ := h.exists_called m
  obtain ⟨n₁, hn₁, hreplies⟩ := h.exists_sent .hostRcvPkt k
  obtain ⟨n₂, hn₂, hcommands⟩ := h.exists_sent .btAdvtTask m
  rw [(stepsAlone_run (h.run_eq m)).commands_eq] at hcommands
  refine ⟨max n₁ n₂, by omega, ?_, ?_⟩
  · exact (hcalled.trans hreplies).trans (sentOf_mono (le_max_left n₁ n₂))
  · exact hcommands.trans (sentOf_mono (le_max_right n₁ n₂))

/-! ## A run -/

/-- A Connection Request event arrives again and again, and its call is handled. -/
def calling (n : ℕ) : Move :=
  if n % 5 = 0 then .hostRcvPkt connectionRequest
  else if n % 5 = 1 then .handle
  else if n % 5 = 2 then .queuePacket .hostRcvPkt
  else if n % 5 = 3 then .queuePacket .btAdvtTask
  else .send true

/-- Where the call, the answer and the queue are. -/
structure Calling (n : ℕ) (s : Firmware) : Prop where
  restarted : s.closet.station.restarted = false
  started : 0 < s.closet.tasks.send
  handling : s.handling = if n % 5 = 1 then some connectionRequest else none
  task : s.packets.waiting .btAdvtTask = []
  callback : (s.packets.waiting .hostRcvPkt).length = if n % 5 = 2 then 1 else 0
  queue : s.packets.queue.length = if 3 ≤ n % 5 then 1 else 0

theorem earlier_connectionRequest (g : Globals) : earlier g connectionRequest = [] :=
  if_neg fun hobex => absurd hobex.1 (by decide)

theorem step_connectionRequest {closet : Closet} (hrestarted : closet.station.restarted = false)
    (hstarted : 0 < closet.tasks.send) : closet.step (.packet connectionRequest) = some closet := by
  have hnext : (hostRcvPkt closet.device.globals connectionRequest).next =
      some closet.device.globals := rfl
  simp [Closet.step, Closet.running, hrestarted, hstarted, hnext]

theorem calling_next (n : ℕ) (s : Firmware) (h : Calling n s) :
    ∃ s', s.step (calling n) = some s' ∧ Calling (n + 1) s' := by
  obtain ⟨closet, task, ⟨waiting, queue⟩, handling⟩ := s
  obtain ⟨hrestarted, hstarted, hhandling, htask, hcallback, hqueue⟩ := h
  dsimp only at hrestarted hstarted hhandling htask hcallback hqueue
  obtain ⟨hnow, hthen⟩ | ⟨hnow, hthen⟩ | ⟨hnow, hthen⟩ | ⟨hnow, hthen⟩ | ⟨hnow, hthen⟩ :
      n % 5 = 0 ∧ (n + 1) % 5 = 1 ∨ n % 5 = 1 ∧ (n + 1) % 5 = 2 ∨ n % 5 = 2 ∧ (n + 1) % 5 = 3 ∨
        n % 5 = 3 ∧ (n + 1) % 5 = 4 ∨ n % 5 = 4 ∧ (n + 1) % 5 = 0 := by
    omega
  · have hidle : waiting .hostRcvPkt = [] := by simpa [hnow] using hcallback
    obtain rfl : handling = none := by simpa [hnow] using hhandling
    refine ⟨⟨closet, task, ⟨Function.update waiting .hostRcvPkt [], queue⟩,
      some connectionRequest⟩, ?_, ?_⟩
    · simp [calling, hnow, Firmware.step, Firmware.running, hrestarted, hstarted, Fifo.State.step,
        hidle, earlier_connectionRequest]
    · exact ⟨hrestarted, hstarted, by rw [if_pos hthen], htask, by rw [hthen]; rfl,
        by rw [hqueue, hnow, hthen]; rfl⟩
  · have hidle : waiting .hostRcvPkt = [] := by simpa [hnow] using hcallback
    obtain rfl : handling = some connectionRequest := by simpa [hnow] using hhandling
    refine ⟨⟨closet, task, ⟨Function.update waiting .hostRcvPkt
      (later closet.device.globals connectionRequest), queue⟩, none⟩, ?_, ?_⟩
    · simp [calling, hnow, Firmware.step, Firmware.running, hrestarted,
        step_connectionRequest hrestarted hstarted, Fifo.State.step, hidle]
    · refine ⟨hrestarted, hstarted, by rw [hthen]; rfl, htask, ?_,
        by rw [hqueue, hnow, hthen]; rfl⟩
      rw [if_pos hthen, ← queued_connectionRequest closet.device.globals, ← earlier_later,
        earlier_connectionRequest]
      rfl
  · obtain ⟨entry, hentry⟩ : ∃ entry, waiting .hostRcvPkt = [entry] :=
      List.length_eq_one_iff.mp (by rw [hcallback, if_pos hnow])
    obtain rfl : queue = [] := by simpa [hnow] using hqueue
    refine ⟨⟨closet, task, ⟨Function.update waiting .hostRcvPkt [], [(.hostRcvPkt, entry)]⟩,
      handling⟩, ?_, ?_⟩
    · simp [calling, hnow, Firmware.step, Firmware.running, hrestarted, Fifo.State.step,
        Fifo.State.put, hentry, sendBufferSize]
    · exact ⟨hrestarted, hstarted, by rw [hhandling, hnow, hthen]; rfl, htask,
        by rw [hthen]; rfl, by rw [hthen]; rfl⟩
  · refine ⟨⟨closet, task, ⟨waiting, queue⟩, handling⟩, ?_, ?_⟩
    · simp [calling, hnow, Firmware.step, Firmware.running, hrestarted, Fifo.State.step,
        Fifo.State.put, htask]
    · exact ⟨hrestarted, hstarted, by rw [hhandling, hnow, hthen]; rfl, htask,
        by rw [hcallback, hnow, hthen]; rfl, by rw [hqueue, hnow, hthen]; rfl⟩
  · refine ⟨⟨closet, task, ⟨waiting, queue.tail⟩, handling⟩, ?_, ?_⟩
    · simp [calling, hnow, Firmware.step, Firmware.running, hrestarted, hstarted, Fifo.State.step]
    · refine ⟨hrestarted, hstarted, by rw [hhandling, hnow, hthen]; rfl, htask,
        by rw [hcallback, hnow, hthen]; rfl, ?_⟩
      rw [List.length_tail, hqueue, hnow, hthen]
      rfl

/-- After `init_bt`, the calls go on for ever. -/
theorem exists_calling : ∃ e : Forever Firmware.step, Attended 0 e ∧
    ∀ n, e.input (n + 1) = calling n := by
  obtain ⟨s, hs⟩ := Option.isSome_iff_exists.mp
    (show ((Firmware.start 0).step (.elsewhere (.pass true .missing))).isSome = true by decide)
  have hcalling : Calling 0 s := by
    obtain rfl := Option.some.inj hs
    exact ⟨rfl, Nat.one_pos, rfl, rfl, rfl, rfl⟩
  obtain ⟨tail, hstate, hinput, hall⟩ :=
    Forever.exists_of_invariant Calling hcalling calling_next
  obtain rfl := hstate
  have hroom : ∀ n, (tail.state n).packets.queue.length < sendBufferSize := by
    intro n
    rw [(hall n).queue, sendBufferSize]
    split_ifs <;> omega
  have hmove : ∀ n, tail.input n = calling n := fun n => congrFun hinput n
  refine ⟨tail.cons (.start 0) (.elsewhere (.pass true .missing)) hs, ⟨rfl, ?_, ?_, ?_, ?_⟩, hmove⟩
  · intro m
    refine ⟨5 * m + 4 + 1, by omega, (hmove _).trans ?_⟩
    rw [calling, Nat.mul_add_mod]
    rfl
  · intro caller _ m
    cases caller with
    | hostRcvPkt =>
        refine ⟨5 * m + 2 + 1, by omega, hroom _, (hmove _).trans ?_⟩
        rw [calling, Nat.mul_add_mod]
        rfl
    | btAdvtTask =>
        refine ⟨5 * m + 3 + 1, by omega, hroom _, (hmove _).trans ?_⟩
        rw [calling, Nat.mul_add_mod]
        rfl
  · intro m _
    refine ⟨5 * m + 1 + 1, by omega, (hmove _).trans ?_⟩
    rw [calling, Nat.mul_add_mod]
    rfl
  · intro n packet hpacket
    cases n with
    | zero => cases hpacket
    | succ n =>
        have hhandling : (tail.state n).handling = some packet := hpacket
        rw [(hall n).handling] at hhandling
        split_ifs at hhandling
        obtain rfl := Option.some.inj hhandling
        rfl

theorem all_answered_calling :
    ∃ e : Forever Firmware.step, (∀ n, e.input (n + 1) = calling n) ∧ ∀ m, ∃ n, m ≤ n ∧
      replies (begun (movesBefore e m)) <+: sentOf .hostRcvPkt 0 (movesBefore e n) ∧
      commands (advertPasses (movesBefore e m)) <+: sentOf .btAdvtTask 0 (movesBefore e n) := by
  obtain ⟨e, hattended, hinput⟩ := exists_calling
  exact ⟨e, hinput, all_answered hattended⟩

end HydroponicCloset.System
