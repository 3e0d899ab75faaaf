import HydroponicCloset.Lib.FifoFair
import HydroponicCloset.Transport.SendQueue

/-!
# No packet waits for ever

`delivered` empties the queue while no packet arrives.  Packets may also keep arriving:
the callback then goes on queueing, and competes with `btAdvtTask` for the room in the
queue.

`eventually_sent`: in a run without end, if `send` again and again makes a pass at which the
controller accepts a packet, and neither caller only ever tries while the queue is full,
then whatever has been queued by some time has been sent by a later one.
-/

namespace HydroponicCloset.Transport

open CMemory Runs Bluetooth

variable {s s' : Host} {e : Forever Host.step} {before : List Turn} {caller : Caller} {m n : ℕ}

/-- What the scheduler and the controller are asked for. -/
structure Serving (e : Forever Host.step) : Prop where
  accepts : ∀ m, ∃ n, m ≤ n ∧ e.input n = .send true
  tries : ∀ caller, (∀ m, ∃ n, m ≤ n ∧ (e.state n).packets.queue.length < sendBufferSize) →
    ∀ m, ∃ n, m ≤ n ∧ (e.state n).packets.queue.length < sendBufferSize ∧
      e.input n = .queuePacket caller

/-- The turns before some time. -/
def turnsBefore (before : List Turn) (e : Forever Host.step) (n : ℕ) : List Turn :=
  before ++ (List.range n).map e.input

/-- What has been sent of a caller's packets before some time. -/
def sentBefore (caller : Caller) (before : List Turn) (e : Forever Host.step) (n : ℕ) :
    List Frame :=
  Fifo.ofWriter caller (trace Host.step Host.sent .start (turnsBefore before e n))

theorem run_turnsBefore (hbefore : run Host.step .start before = some (e.state 0)) (n : ℕ) :
    run Host.step .start (turnsBefore before e n) = some (e.state n) := by
  rw [turnsBefore, run_append, hbefore]
  exact e.run_take n

theorem sentBefore_mono (hmn : m ≤ n) :
    sentBefore caller before e m <+: sentBefore caller before e n := by
  have hturns : turnsBefore before e m <+: turnsBefore before e n :=
    (List.prefix_append_right_inj before).mpr (e.inputs_prefix hmn)
  obtain ⟨rest, hrest⟩ := hturns
  rw [sentBefore, sentBefore, ← hrest]
  exact (trace_grows _ _ _).filterMap _

/-! ## The queue -/

/-- A turn is at most one event for the queue. -/
theorem events_length_le (s : Host) (t : Turn) : (s.events t).length ≤ 1 := by
  cases t with
  | hostRcvPkt packet =>
      rw [Host.events]
      cases s.globals with
      | none => exact Nat.zero_le 1
      | some g => exact le_refl 1
  | btAdvtTask | queuePacket => exact le_refl 1
  | send sendAvail =>
      cases sendAvail with
      | true => exact le_refl 1
      | false => exact Nat.zero_le 1

theorem served (h : Serving e) (hbefore : run Host.step .start before = some (e.state 0)) :
    Fifo.Served sendBufferSize (Fifo.partAt Host.packets e) (Fifo.eventAt? Host.events e) := by
  refine Fifo.served_of_machine events_length_le step_packets
    (fun n => queue_length_le (run_turnsBefore hbefore n)) (fun m => ?_) (fun caller hroom m => ?_)
  · obtain ⟨n, hn, hinput⟩ := h.accepts m
    exact ⟨n, hn, by rw [hinput]; rfl⟩
  · obtain ⟨n, hn, hfree, hinput⟩ := h.tries caller hroom m
    exact ⟨n, hn, hfree, by rw [hinput]; rfl⟩

/-! ## Sending -/

/-- What a caller has queued is sent at some time. -/
theorem exists_sent_called (h : Serving e)
    (hbefore : run Host.step .start before = some (e.state 0)) (caller : Caller) (m : ℕ) :
    ∃ n, m ≤ n ∧
      Fifo.called caller (trace Host.step Host.events .start (turnsBefore before e m)) <+:
        sentBefore caller before e n := by
  obtain ⟨n, hn, hout⟩ := Fifo.eventually_out (served h hbefore) (by decide) events_length_le
    events_sent caller m
  refine ⟨n, hn, ?_⟩
  rw [sentBefore, turnsBefore, turnsBefore, trace_append hbefore, trace_append hbefore,
    Fifo.called_append, Fifo.ofWriter_append, ← sent_called hbefore, List.append_assoc]
  exact (List.prefix_append_right_inj _).mpr hout

/-- **No packet waits for ever**: what the handlers have queued by some time has been sent
by a later one, in its order. -/
theorem eventually_sent (h : Serving e) (hbefore : run Host.step .start before = some (e.state 0))
    (m : ℕ) :
    ∃ n, m ≤ n ∧
      replies (received (turnsBefore before e m)) <+: sentBefore .hostRcvPkt before e n ∧
      commands (passes (turnsBefore before e m)) <+: sentBefore .btAdvtTask before e n := by
  have hfollows := follows_run (run_turnsBefore hbefore m)
  obtain ⟨n₁, hn₁, hreplies⟩ := exists_sent_called h hbefore .hostRcvPkt m
  obtain ⟨n₂, hn₂, hcommands⟩ := exists_sent_called h hbefore .btAdvtTask m
  refine ⟨max n₁ n₂, hn₁.trans (le_max_left n₁ n₂), ?_, ?_⟩
  · rw [← hfollows.replies_eq]
    exact hreplies.trans (sentBefore_mono (le_max_left n₁ n₂))
  · rw [← hfollows.commands_eq]
    exact hcommands.trans (sentBefore_mono (le_max_right n₁ n₂))

/-! ## A run -/

/-- A Connection Request event. -/
def connectionRequest : Packet := .ofBytes [0x04, 0x04, 10, 1, 2, 3, 4, 5, 6, 0, 1, 2, 1]

theorem queued_connectionRequest (g : Globals) :
    (hostRcvPkt g connectionRequest).queued.length = 1 := by
  change (hciEventHandler g connectionRequest).length = 1
  rw [hciEventHandler, if_pos (by decide)]
  split_ifs <;> rfl

/-- The event arrives again and again, and is answered each time. -/
def arriving (n : ℕ) : Turn :=
  if n % 4 = 0 then .hostRcvPkt connectionRequest
  else if n % 4 = 1 then .queuePacket .hostRcvPkt
  else if n % 4 = 2 then .queuePacket .btAdvtTask
  else .send true

/-- The answer waits, and is then the only packet in the queue. -/
structure Arriving (n : ℕ) (s : Host) : Prop where
  globals : s.globals.isSome
  task : s.packets.waiting .btAdvtTask = []
  callback : (s.packets.waiting .hostRcvPkt).length = if n % 4 = 1 then 1 else 0
  queue : s.packets.queue.length = if 2 ≤ n % 4 then 1 else 0

theorem arriving_next (n : ℕ) (s : Host) (h : Arriving n s) :
    ∃ s', s.step (arriving n) = some s' ∧ Arriving (n + 1) s' := by
  obtain ⟨globals, task, waiting, queue⟩ := s
  obtain ⟨hglobals, htask, hcallback, hqueue⟩ := h
  obtain ⟨g, rfl⟩ := Option.isSome_iff_exists.mp hglobals
  dsimp only at htask hcallback hqueue
  obtain ⟨hnow, hthen⟩ | ⟨hnow, hthen⟩ | ⟨hnow, hthen⟩ | ⟨hnow, hthen⟩ :
      n % 4 = 0 ∧ (n + 1) % 4 = 1 ∨ n % 4 = 1 ∧ (n + 1) % 4 = 2 ∨
        n % 4 = 2 ∧ (n + 1) % 4 = 3 ∨ n % 4 = 3 ∧ (n + 1) % 4 = 0 := by
    omega
  · have hidle : waiting .hostRcvPkt = [] := by simpa [hnow] using hcallback
    refine ⟨⟨some g, task, Function.update waiting .hostRcvPkt
      (hostRcvPkt g connectionRequest).queued, queue⟩, ?_, ?_⟩
    · rw [arriving, if_pos hnow, Host.step, Option.bind_some, Fifo.State.step, if_pos hidle]
      rfl
    · refine ⟨rfl, htask, ?_, by rw [hqueue, hnow, hthen]; rfl⟩
      rw [if_pos hthen]
      exact queued_connectionRequest g
  · obtain ⟨entry, hentry⟩ : ∃ entry, waiting .hostRcvPkt = [entry] :=
      List.length_eq_one_iff.mp (by rw [hcallback, if_pos hnow])
    obtain rfl : queue = [] := by simpa [hnow] using hqueue
    refine ⟨⟨some g, task, Function.update waiting .hostRcvPkt [], [(.hostRcvPkt, entry)]⟩, ?_, ?_⟩
    · simp [arriving, hnow, Host.step, Fifo.State.step, Fifo.State.put, hentry, sendBufferSize]
    · exact ⟨rfl, htask, by rw [hthen]; rfl, by rw [hthen]; rfl⟩
  · refine ⟨⟨some g, task, waiting, queue⟩, ?_, ?_⟩
    · simp [arriving, hnow, Host.step, Fifo.State.step, Fifo.State.put, htask]
    · exact ⟨rfl, htask, by rw [hcallback, hnow, hthen]; rfl, by rw [hqueue, hnow, hthen]; rfl⟩
  · refine ⟨⟨some g, task, waiting, queue.tail⟩, ?_, ?_⟩
    · simp [arriving, hnow, Host.step, Fifo.State.step]
    · refine ⟨rfl, htask, by rw [hcallback, hnow, hthen]; rfl, ?_⟩
      rw [List.length_tail, hqueue, hnow, hthen]
      rfl

theorem serving_arriving {e : Forever Host.step} (hinput : e.input = arriving)
    (h : ∀ n, Arriving n (e.state n)) : Serving e where
  accepts := by
    intro m
    refine ⟨4 * m + 3, by omega, ?_⟩
    rw [hinput, arriving, Nat.mul_add_mod]
    rfl
  tries := by
    intro caller _ m
    have hroom : ∀ n, (e.state n).packets.queue.length < sendBufferSize := by
      intro n
      rw [(h n).queue, sendBufferSize]
      split_ifs <;> omega
    cases caller with
    | hostRcvPkt =>
        refine ⟨4 * m + 1, by omega, hroom _, ?_⟩
        rw [hinput, arriving, Nat.mul_add_mod]
        rfl
    | btAdvtTask =>
        refine ⟨4 * m + 2, by omega, hroom _, ?_⟩
        rw [hinput, arriving, Nat.mul_add_mod]
        rfl

theorem eventually_sent_arriving :
    ∃ e : Forever Host.step, e.input = arriving ∧ ∀ m, ∃ n, m ≤ n ∧
      replies (received (turnsBefore [] e m)) <+: sentBefore .hostRcvPkt [] e n ∧
      commands (passes (turnsBefore [] e m)) <+: sentBefore .btAdvtTask [] e n := by
  have hstart : Arriving 0 .start := ⟨rfl, rfl, rfl, rfl⟩
  obtain ⟨e, hstate, hinput, harriving⟩ :=
    Forever.exists_of_invariant Arriving hstart arriving_next
  exact ⟨e, hinput, eventually_sent (serving_arriving hinput harriving) (hstate ▸ rfl)⟩

end HydroponicCloset.Transport
