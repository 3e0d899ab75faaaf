import HydroponicCloset.Transport.SendQueue
import HydroponicCloset.Framing.Output

/-!
# Delivery

What the send queue owes to the handlers, beyond keeping their packets in order.

* `sent_in_order`: what is in the queue is sent before anything that comes later, one
  packet for each pass of `send` at which the controller accepts one.  As the queue holds
  ten packets, the tenth such pass sends the last of them.
* `delivered`: from any state, once the three commands of `btAdvtTask` have been made and
  while no packet arrives, sixteen rounds send everything.  In a round both callers try,
  and `send` makes a pass at which the controller accepts a packet.
* `advertised`: what the controller is given for `btAdvtTask` are the three commands of
  its switch, each once and in their order, whatever else is sent between them.
-/

namespace HydroponicCloset.Transport

open CMemory Wire Runs Bluetooth

variable {s s' : Host} {turns : List Turn}

/-! ## Order -/

/-- The passes of `send` at which the controller accepts a packet. -/
def accepted (turns : List Turn) : ℕ :=
  turns.countP fun
    | .send sendAvail => sendAvail
    | _ => false

theorem takes_events (hrun : run Host.step s turns = some s') :
    Fifo.takes (trace Host.step Host.events s turns) = accepted turns := by
  induction turns generalizing s with
  | nil => rfl
  | cons t rest ih =>
      obtain ⟨mid, hmid, hrest⟩ := run_cons_eq_some hrun
      have hsplit : Fifo.takes (trace Host.step Host.events s (t :: rest)) =
          Fifo.takes (s.events t) + accepted rest := by
        rw [trace, hmid, Option.elim_some, Fifo.takes, List.countP_append, ← ih hrest]
        rfl
      have hcount : accepted ([t] ++ rest) = accepted [t] + accepted rest := List.countP_append
      rw [hsplit, ← List.singleton_append, hcount]
      congr 1
      cases t with
      | hostRcvPkt packet =>
          rw [Host.events]
          cases s.globals <;> rfl
      | btAdvtTask sendAvail => rfl
      | queuePacket caller => rfl
      | send sendAvail => cases sendAvail <;> rfl

/-- **In order**, and one packet for each pass that finds the controller ready. -/
theorem sent_in_order {first second : List Turn} (hfirst : run Host.step .start first = some s)
    (hsecond : run Host.step s second = some s') :
    (trace Host.step Host.sent s second).take s.packets.queue.length =
        s.packets.queue.take (accepted second) ∧
      (sendBufferSize ≤ accepted second →
        s.packets.queue <+: trace Host.step Host.sent s second) := by
  have htake := Fifo.taken_take (run_packets hsecond)
  rw [trace_sent hsecond, takes_events hsecond] at htake
  refine ⟨htake, fun hmany => ?_⟩
  have hbound := queue_length_le hfirst
  rw [List.take_of_length_le (hbound.trans hmany)] at htake
  rw [← htake]
  exact List.take_prefix _ _

theorem sent_in_order_exchange :
    ∃ s s', run Host.step .start exchange = some s ∧
      run Host.step s (List.replicate 10 (.send true)) = some s' ∧
      ((trace Host.step Host.sent s (List.replicate 10 (.send true))).take
          s.packets.queue.length =
        s.packets.queue.take (accepted (List.replicate 10 (.send true))) ∧
      (sendBufferSize ≤ accepted (List.replicate 10 (.send true)) →
        s.packets.queue <+: trace Host.step Host.sent s (List.replicate 10 (.send true)))) := by
  obtain ⟨s, s', hfirst, hsecond⟩ : ∃ s s', run Host.step .start exchange = some s ∧
      run Host.step s (List.replicate 10 (.send true)) = some s' := ⟨_, _, rfl, rfl⟩
  exact ⟨s, s', hfirst, hsecond, sent_in_order hfirst hsecond⟩

/-! ## Draining -/

/-- In a round no packet arrives, both callers try, and the controller accepts a packet. -/
structure Round (turns : List Turn) : Prop where
  quiet : ∀ packet, .hostRcvPkt packet ∉ turns
  tries : ∀ caller, .queuePacket caller ∈ turns
  accepts : .send true ∈ turns

theorem btAdvtTask_done {task : AdvtTask} (h : 3 ≤ task.cmdCnt) (sendAvail : Bool) :
    btAdvtTask task sendAvail = (task, []) := by
  have hcommand : advtCommand task = none := by
    unfold advtCommand
    split <;> first | omega | rfl
  cases sendAvail with
  | true => rw [btAdvtTask, hcommand]; rfl
  | false => rfl

theorem cmdCnt_step {t : Turn} (h : 3 ≤ s.task.cmdCnt) (hstep : s.step t = some s') :
    3 ≤ s'.task.cmdCnt := by
  cases t with
  | hostRcvPkt packet =>
      obtain ⟨g, hg, hcall⟩ := Option.bind_eq_some_iff.mp hstep
      obtain ⟨packets, -, rfl⟩ := Option.map_eq_some_iff.mp hcall
      exact h
  | btAdvtTask sendAvail =>
      obtain ⟨packets, -, rfl⟩ := Option.map_eq_some_iff.mp hstep
      rw [btAdvtTask_done h]
      exact h
  | queuePacket caller =>
      obtain rfl := Option.some.inj hstep
      exact h
  | send sendAvail =>
      cases sendAvail <;> obtain rfl := Option.some.inj hstep <;> exact h

theorem cmdCnt_run (h : 3 ≤ s.task.cmdCnt) (hrun : run Host.step s turns = some s') :
    3 ≤ s'.task.cmdCnt :=
  run_invariant (fun s => 3 ≤ s.task.cmdCnt) (fun _ _ _ h hstep => cmdCnt_step h hstep) h hrun

/-- A turn that is always the same event. -/
theorem mem_events {t : Turn} {e : Fifo.Event Caller Frame} (ht : t ∈ turns)
    (he : ∀ s : Host, e ∈ s.events t) (hrun : run Host.step s turns = some s') :
    e ∈ trace Host.step Host.events s turns := by
  obtain ⟨pre, post, rfl⟩ := List.append_of_mem ht
  obtain ⟨mid, hmid, -⟩ := run_append_eq_some hrun
  exact mem_trace.mpr ⟨pre, t, post, mid, rfl, hmid, he mid⟩

/-- A round is one for the queue. -/
theorem Round.events (h : Round turns) (hdone : 3 ≤ s.task.cmdCnt)
    (hrun : run Host.step s turns = some s') :
    Fifo.Round (trace Host.step Host.events s turns) where
  quiet := by
    intro caller entries hcall
    obtain ⟨pre, t, post, mid, rfl, hmid, he⟩ := mem_trace.mp hcall
    have hmid' := cmdCnt_run hdone hmid
    cases t with
    | hostRcvPkt packet => exact absurd (by simp) (h.quiet packet)
    | btAdvtTask sendAvail =>
        rw [Host.events, btAdvtTask_done hmid'] at he
        simp only [List.mem_singleton, Fifo.Event.call.injEq] at he
        exact he.2
    | queuePacket caller => simp [Host.events] at he
    | send sendAvail => cases sendAvail <;> simp [Host.events] at he
  puts := fun caller => mem_events (h.tries caller) (fun _ => List.mem_singleton.mpr rfl) hrun
  takes := mem_events h.accepts (fun _ => List.mem_singleton.mpr rfl) hrun

/-- No handler queues more than two packets for one. -/
theorem queued_length_le (g : Globals) (packet : Packet) :
    (hostRcvPkt g packet).queued.length ≤ 2 := by
  have hacks : (ackFrames g packet).length ≤ 1 := by
    unfold ackFrames
    split_ifs <;> simp
  have hsignalling : (signalling g packet).2.length ≤ 2 := by
    have hanswer := Framing.signalling_answer g packet
    generalize signalling g packet = answer at hanswer ⊢
    cases hanswer with
    | infoReq => unfold infoReq; split_ifs <;> simp
    | connReq => exact le_refl 2
    | confReq => exact Nat.le_succ 1
    | confRes => exact Nat.le_succ 1
    | disconnReq => exact Nat.le_succ 1
    | unknown => exact Nat.zero_le 2
  have hobex : (obexFtp g packet).queued.length ≤ 2 := by
    unfold obexFtp
    dsimp only
    split_ifs
    · rw [List.length_append, List.length_singleton]
      omega
    · split
      · exact hacks.trans (Nat.le_succ 1)
      · rw [List.length_append]
        split_ifs <;> simp <;> omega
    · exact hacks.trans (Nat.le_succ 1)
    · exact hacks.trans (Nat.le_succ 1)
  unfold hostRcvPkt
  split_ifs
  · unfold hciEventHandler
    split_ifs <;> simp
  · unfold l2capCmdHandler
    split
    · exact hsignalling
    · exact hobex
    · unfold sdp
      split_ifs <;> simp
  · exact Nat.zero_le 2

/-- A try only shortens what a caller waits with. -/
theorem put_waiting_le (s : Fifo.State Caller Frame) (caller other : Caller) :
    ((s.put sendBufferSize caller).waiting other).length ≤ (s.waiting other).length := by
  have hput := Fifo.put_cases sendBufferSize s caller
  generalize s.put sendBufferSize caller = s' at hput ⊢
  cases hput with
  | idle => exact le_refl _
  | full => exact le_refl _
  | done entry rest h _ =>
      by_cases hother : other = caller
      · subst hother
        simp [h]
      · have hsame : Function.update s.waiting caller rest other = s.waiting other :=
          Function.update_of_ne hother _ _
        exact (congrArg List.length hsame).le

/-- What a call of each caller can wait with. -/
structure Waits (s : Host) : Prop where
  callback : (s.packets.waiting .hostRcvPkt).length ≤ 2
  task : (s.packets.waiting .btAdvtTask).length ≤ 1

theorem waits_step {t : Turn} (h : Waits s) (hstep : s.step t = some s') : Waits s' := by
  cases t with
  | hostRcvPkt packet =>
      obtain ⟨g, hg, hcall⟩ := Option.bind_eq_some_iff.mp hstep
      obtain ⟨packets, hpackets, rfl⟩ := Option.map_eq_some_iff.mp hcall
      rw [Fifo.State.step] at hpackets
      split_ifs at hpackets
      obtain rfl := Option.some.inj hpackets
      exact ⟨queued_length_le g packet, h.task⟩
  | btAdvtTask sendAvail =>
      obtain ⟨packets, hpackets, rfl⟩ := Option.map_eq_some_iff.mp hstep
      rw [Fifo.State.step] at hpackets
      split_ifs at hpackets
      obtain rfl := Option.some.inj hpackets
      refine ⟨h.callback, ?_⟩
      show (btAdvtTask s.task sendAvail).2.length ≤ 1
      unfold btAdvtTask
      split_ifs
      · split <;> simp
      · exact Nat.zero_le 1
  | queuePacket caller =>
      obtain rfl := Option.some.inj hstep
      exact ⟨(put_waiting_le _ _ _).trans h.callback, (put_waiting_le _ _ _).trans h.task⟩
  | send sendAvail =>
      cases sendAvail <;> obtain rfl := Option.some.inj hstep <;> exact ⟨h.callback, h.task⟩

/-- The work for the queue is at most sixteen events. -/
theorem work_le (hrun : run Host.step .start turns = some s) : s.packets.work ≤ 16 := by
  have hstart : Waits .start := ⟨Nat.zero_le 2, Nat.zero_le 1⟩
  have hwaits : Waits s :=
    run_invariant Waits (fun _ _ _ h hstep => waits_step h hstep) hstart hrun
  have hbound := queue_length_le hrun
  have hcallback := hwaits.callback
  have htask := hwaits.task
  have hsum : ∑ caller, (s.packets.waiting caller).length =
      (s.packets.waiting .hostRcvPkt).length + (s.packets.waiting .btAdvtTask).length :=
    Finset.sum_pair (by decide)
  rw [Fifo.State.work, hsum]
  rw [sendBufferSize] at hbound
  omega

/-- Rounds of turns are rounds for the queue. -/
theorem rounds_events {rounds : List (List Turn)} (hdone : 3 ≤ s.task.cmdCnt)
    (hrounds : ∀ round ∈ rounds, Round round) (hrun : run Host.step s rounds.flatten = some s') :
    ∃ events : List (List (Fifo.Event Caller Frame)),
      trace Host.step Host.events s rounds.flatten = events.flatten ∧
        events.length = rounds.length ∧ ∀ round ∈ events, Fifo.Round round := by
  induction rounds generalizing s with
  | nil => exact ⟨[], rfl, rfl, by simp⟩
  | cons round rest ih =>
      obtain ⟨hround, hrest⟩ := List.forall_mem_cons.mp hrounds
      obtain ⟨mid, hmid, hrun'⟩ := run_append_eq_some hrun
      obtain ⟨events, htrace, hlength, hevents⟩ := ih (cmdCnt_run hdone hmid) hrest hrun'
      refine ⟨trace Host.step Host.events s round :: events, ?_, ?_, ?_⟩
      · rw [List.flatten_cons, List.flatten_cons, trace_append hmid, htrace]
      · rw [List.length_cons, List.length_cons, hlength]
      · exact List.forall_mem_cons.mpr ⟨hround.events hdone hmid, hevents⟩

/-- **Everything is sent** in sixteen rounds: what the handlers have queued, and nothing
else. -/
theorem delivered {rounds : List (List Turn)} (hfirst : run Host.step .start turns = some s)
    (hdone : 3 ≤ s.task.cmdCnt) (hrounds : ∀ round ∈ rounds, Round round)
    (hmany : 16 ≤ rounds.length) (hrun : run Host.step s rounds.flatten = some s') :
    Fifo.ofWriter .hostRcvPkt (trace Host.step Host.sent .start (turns ++ rounds.flatten)) =
        replies (received (turns ++ rounds.flatten)) ∧
      Fifo.ofWriter .btAdvtTask (trace Host.step Host.sent .start (turns ++ rounds.flatten)) =
        commands (passes (turns ++ rounds.flatten)) := by
  obtain ⟨events, htrace, hlength, hevents⟩ := rounds_events hdone hrounds hrun
  have hpackets := run_packets hrun
  rw [htrace] at hpackets
  have hwork := work_le hfirst
  obtain ⟨hqueue, hwaiting⟩ := Fifo.drained (by decide) hevents (by omega) hpackets
  have hwhole : run Host.step .start (turns ++ rounds.flatten) = some s' := by
    rw [run_append, hfirst]
    exact hrun
  have hleft : ∀ caller, s'.packets.left caller = [] := by
    intro caller
    rw [Fifo.State.left, hqueue, hwaiting]
    rfl
  have hreplies := sent_hostRcvPkt hwhole
  have hcommands := sent_btAdvtTask hwhole
  rw [hleft, List.append_nil] at hreplies hcommands
  exact ⟨hreplies, hcommands⟩

/-- The three commands, none of them sent yet. -/
def advertising : List Turn :=
  [.btAdvtTask true, .queuePacket .btAdvtTask, .btAdvtTask true, .queuePacket .btAdvtTask,
    .btAdvtTask true]

/-- Both callers try once, and `send` takes a packet. -/
def eachOnce : List Turn := [.queuePacket .hostRcvPkt, .queuePacket .btAdvtTask, .send true]

theorem delivered_advertising :
    ∃ s s', run Host.step .start advertising = some s ∧
      run Host.step s (List.replicate 16 eachOnce).flatten = some s' ∧
      Fifo.ofWriter .hostRcvPkt
          (trace Host.step Host.sent .start (advertising ++ (List.replicate 16 eachOnce).flatten)) =
        replies (received (advertising ++ (List.replicate 16 eachOnce).flatten)) ∧
      Fifo.ofWriter .btAdvtTask
          (trace Host.step Host.sent .start (advertising ++ (List.replicate 16 eachOnce).flatten)) =
        commands (passes (advertising ++ (List.replicate 16 eachOnce).flatten)) := by
  have hround : Round eachOnce :=
    ⟨by simp [eachOnce], fun caller => by cases caller <;> simp [eachOnce], by simp [eachOnce]⟩
  have hrounds : ∀ round ∈ List.replicate 16 eachOnce, Round round :=
    fun round h => List.eq_of_mem_replicate h ▸ hround
  obtain ⟨s, s', hfirst, hdone, hrun⟩ : ∃ s s', run Host.step .start advertising = some s ∧
      3 ≤ s.task.cmdCnt ∧ run Host.step s (List.replicate 16 eachOnce).flatten = some s' :=
    ⟨_, _, rfl, by decide, rfl⟩
  exact ⟨s, s', hfirst, hrun, delivered hfirst hdone hrounds (by decide) hrun⟩

/-! ## The commands of `btAdvtTask` -/

/-- `hci_cmd_buf` when each of the commands is queued. -/
def commandBuffers : List Buffer :=
  let reset := makeCmdReset zeroed
  let name := makeCmdChangeLocalName reset tag
  [reset, name, makeCmdSetScanMode name 3]

/-- The task after some passes that found the controller ready. -/
def taskAfter (n : ℕ) : AdvtTask := ⟨min n 3, (zeroed :: commandBuffers).getD (min n 3) zeroed⟩

theorem btAdvtTask_taskAfter (n : ℕ) :
    btAdvtTask (taskAfter n) true =
      (taskAfter (n + 1), ((commandBuffers.map queuePacket).drop n).take 1) := by
  match n with
  | 0 => rfl
  | 1 => rfl
  | 2 => rfl
  | n + 3 =>
      have hdone : 3 ≤ (taskAfter (n + 3)).cmdCnt := le_min (by omega) (le_refl 3)
      have hsame : taskAfter (n + 3 + 1) = taskAfter (n + 3) := by
        simp only [taskAfter, Nat.min_eq_right (show 3 ≤ n + 3 + 1 by omega),
          Nat.min_eq_right (show 3 ≤ n + 3 by omega)]
      have hnone : (commandBuffers.map queuePacket).drop (n + 3) = [] :=
        List.drop_eq_nil_of_le (Nat.le_add_left 3 n)
      rw [btAdvtTask_done hdone, hsame, hnone]
      rfl

/-- What a task queues from then on. -/
theorem trace_advertise (passes : List Bool) (n : ℕ) :
    trace advertise (fun task sendAvail => (btAdvtTask task sendAvail).2) (taskAfter n) passes =
      ((commandBuffers.map queuePacket).drop n).take (passes.count true) := by
  induction passes generalizing n with
  | nil => simp [trace]
  | cons sendAvail rest ih =>
      rw [trace, advertise, Option.elim_some]
      cases sendAvail with
      | true =>
          rw [btAdvtTask_taskAfter, ih, List.count_cons_self, Nat.add_comm (List.count true rest) 1,
            List.take_add, List.drop_drop]
      | false =>
          rw [List.count_cons_of_ne (by decide)]
          exact ih n

theorem commands_eq (passes : List Bool) :
    commands passes = (commandBuffers.map queuePacket).take (passes.count true) :=
  trace_advertise passes 0

/-- The three commands: reset the controller, change the local name, set the scan mode. -/
def advertisement : List (List UInt8) :=
  [[0x01, 0x03, 0x0c, 0], [0x01, 0x13, 0x0c, 248] ++ tag ++ List.replicate 239 0,
    [0x01, 0x1a, 0x0c, 1, 3]]

theorem vhciPacket_commands :
    commandBuffers.map (fun buf => vhciPacket (queuePacket buf)) = advertisement := by
  decide +kernel

/-- **Advertising.**  In any order of turns, what the controller is given for `btAdvtTask`
is a beginning of these three commands, and no longer than the passes of the task that
found the controller ready are many. -/
theorem advertised (hrun : run Host.step .start turns = some s) :
    (Fifo.ofWriter .btAdvtTask (trace Host.step Host.sent .start turns)).map vhciPacket <+:
      advertisement.take ((passes turns).count true) := by
  have hcommands := sent_btAdvtTask hrun
  have hprefix : Fifo.ofWriter .btAdvtTask (trace Host.step Host.sent .start turns) <+:
      (commandBuffers.map queuePacket).take ((passes turns).count true) := by
    rw [← commands_eq, ← hcommands]
    exact List.prefix_append _ _
  have hmap := hprefix.map vhciPacket
  rw [List.map_take, List.map_map] at hmap
  rw [← vhciPacket_commands]
  exact hmap

theorem advertised_exchange :
    (Fifo.ofWriter .btAdvtTask (trace Host.step Host.sent .start exchange)).map vhciPacket <+:
      advertisement.take ((passes exchange).count true) :=
  advertised rfl

end HydroponicCloset.Transport
