import HydroponicCloset.Bluetooth.L2cap
import HydroponicCloset.Lib.Fifo

/-!
# The send queue

`queue_packet` puts a packet into a FreeRTOS queue of `SEND_BUFFER_SIZE` entries, and
tries again while the queue is full.  It is called in the callback `host_rcv_pkt` and in
the task `btAdvtTask`.  The task `send` takes a packet out whenever the controller
accepts one.

The three run side by side.  A turn is a step of one of them: the controller delivers a
packet, a pass of the loop of `btAdvtTask` begins, a call of `queue_packet` tries once,
or `send` makes a pass.  The callback and the task begin nothing new while a call of
theirs still tries.  The globals of the callback are shown as the call leaves them, and
`none` if it never returns.

`sent_conserved` relates what is sent to the packets that the handlers queue when the
queue has no bound, which is how they are modelled elsewhere: it is the same for each of
the two callers, up to what has not been sent yet.
-/

namespace HydroponicCloset.Transport

open CMemory Runs Bluetooth

/-- `SEND_BUFFER_SIZE` -/
def sendBufferSize : ℕ := 10

/-- The callers of `queue_packet`. -/
inductive Caller
  | hostRcvPkt
  | btAdvtTask
  deriving DecidableEq

instance : Fintype Caller :=
  ⟨{.hostRcvPkt, .btAdvtTask}, fun caller => by cases caller <;> decide⟩

/-- The packet and the length that `esp_vhci_host_send_packet` is called with. -/
def vhciPacket (packet : Frame) : List UInt8 :=
  (packet.drop 2).take ((packet.getD 0 0).toNat * 256 + (packet.getD 1 0).toNat)

/-! ## Turns -/

/-- The globals of the callback, the variables of `btAdvtTask`, and the queue with the
packets that are waiting to be put in. -/
structure Host where
  globals : Option Globals
  task : AdvtTask
  packets : Fifo.State Caller Frame

/-- A packet arrives, `btAdvtTask` makes a pass, a call of `queue_packet` tries once, or
`send` makes a pass. -/
inductive Turn
  | hostRcvPkt (packet : Packet)
  | btAdvtTask (sendAvail : Bool)
  | queuePacket (caller : Caller)
  | send (sendAvail : Bool)

namespace Host

/-- When `init_bt` has created the queue and the tasks. -/
def start : Host := ⟨some initial, {}, .empty⟩

/-- One turn; `none` for a call that cannot begin yet. -/
def step (s : Host) : Turn → Option Host
  | .hostRcvPkt packet =>
      s.globals.bind fun g =>
        (s.packets.step sendBufferSize (.call .hostRcvPkt (hostRcvPkt g packet).queued)).map
          fun packets => { s with globals := (hostRcvPkt g packet).next, packets := packets }
  | .btAdvtTask sendAvail =>
      (s.packets.step sendBufferSize (.call .btAdvtTask (btAdvtTask s.task sendAvail).2)).map
        fun packets => { s with task := (btAdvtTask s.task sendAvail).1, packets := packets }
  | .queuePacket caller =>
      (s.packets.step sendBufferSize (.put caller)).map fun packets => { s with packets := packets }
  | .send sendAvail =>
      if sendAvail then
        (s.packets.step sendBufferSize .take).map fun packets => { s with packets := packets }
      else some s

/-- The packet that `send` takes out. -/
def sent (s : Host) : Turn → List (Caller × Frame)
  | .send true => s.packets.taken .take
  | _ => []

/-- What a turn is for the queue. -/
def events (s : Host) : Turn → List (Fifo.Event Caller Frame)
  | .hostRcvPkt packet =>
      s.globals.toList.map fun g => .call .hostRcvPkt (hostRcvPkt g packet).queued
  | .btAdvtTask sendAvail => [.call .btAdvtTask (btAdvtTask s.task sendAvail).2]
  | .queuePacket caller => [.put caller]
  | .send sendAvail => if sendAvail then [.take] else []

end Host

/-! ## The handlers without the queue -/

/-- The packets delivered. -/
def received (turns : List Turn) : List Packet :=
  turns.filterMap fun
    | .hostRcvPkt packet => some packet
    | _ => none

/-- The passes of `btAdvtTask`, by whether the controller accepts packets. -/
def passes (turns : List Turn) : List Bool :=
  turns.filterMap fun
    | .btAdvtTask sendAvail => some sendAvail
    | _ => none

/-- The callback alone, as a machine. -/
def callback (g : Globals) (packet : Packet) : Option Globals := (hostRcvPkt g packet).next

/-- `btAdvtTask` alone, as a machine. -/
def advertise (task : AdvtTask) (sendAvail : Bool) : Option AdvtTask :=
  some (btAdvtTask task sendAvail).1

/-- What the callback queues for a sequence of packets. -/
def replies (packets : List Packet) : List Frame :=
  trace callback (fun g packet => (hostRcvPkt g packet).queued) initial packets

/-- What `btAdvtTask` queues in a sequence of passes. -/
def commands (passes : List Bool) : List Frame :=
  trace advertise (fun task sendAvail => (btAdvtTask task sendAvail).2) {} passes

theorem received_append (first second : List Turn) :
    received (first ++ second) = received first ++ received second :=
  List.filterMap_append

theorem passes_append (first second : List Turn) :
    passes (first ++ second) = passes first ++ passes second :=
  List.filterMap_append

variable {s s' : Host} {turns : List Turn}

/-! ## The queue's part -/

theorem step_packets (s : Host) (t : Turn) (s' : Host) (h : s.step t = some s') :
    run (Fifo.State.step sendBufferSize) s.packets (s.events t) = some s'.packets := by
  cases t with
  | hostRcvPkt packet =>
      obtain ⟨g, hg, hcall⟩ := Option.bind_eq_some_iff.mp h
      obtain ⟨packets, hpackets, rfl⟩ := Option.map_eq_some_iff.mp hcall
      simp [Host.events, hg, run_cons, hpackets]
  | btAdvtTask sendAvail =>
      obtain ⟨packets, hpackets, rfl⟩ := Option.map_eq_some_iff.mp h
      simp [Host.events, run_cons, hpackets]
  | queuePacket caller =>
      obtain rfl := Option.some.inj h
      rfl
  | send sendAvail =>
      cases sendAvail with
      | true =>
          obtain rfl := Option.some.inj h
          rfl
      | false =>
          obtain rfl := Option.some.inj h
          rfl

theorem events_sent (s : Host) (t : Turn) :
    trace (Fifo.State.step sendBufferSize) Fifo.State.taken s.packets (s.events t) = s.sent t := by
  cases t with
  | hostRcvPkt packet =>
      rw [Host.events]
      cases s.globals with
      | none => rfl
      | some g => exact trace_singleton _ _
  | btAdvtTask sendAvail => exact trace_singleton _ _
  | queuePacket caller => exact trace_singleton _ _
  | send sendAvail =>
      cases sendAvail with
      | true => exact trace_singleton _ _
      | false => rfl

/-- A run of the host, as the queue sees it. -/
theorem run_packets (hrun : run Host.step s turns = some s') :
    run (Fifo.State.step sendBufferSize) s.packets (trace Host.step Host.events s turns) =
      some s'.packets :=
  run_part step_packets hrun

theorem trace_sent (hrun : run Host.step s turns = some s') :
    trace (Fifo.State.step sendBufferSize) Fifo.State.taken s.packets
        (trace Host.step Host.events s turns) = trace Host.step Host.sent s turns :=
  trace_part step_packets events_sent hrun

/-! ## The handlers' part -/

/-- The globals and the task are what the handlers leave without the queue, and the calls
are made with what they queue. -/
structure Follows (turns : List Turn) (s : Host) : Prop where
  run_eq : run Host.step .start turns = some s
  globals_eq : s.globals = run callback initial (received turns)
  task_eq : run advertise {} (passes turns) = some s.task
  replies_eq : Fifo.called .hostRcvPkt (trace Host.step Host.events .start turns) =
    replies (received turns)
  commands_eq : Fifo.called .btAdvtTask (trace Host.step Host.events .start turns) =
    commands (passes turns)

theorem trace_events_concat (h : run Host.step .start turns = some s) (t : Turn) :
    trace Host.step Host.events .start (turns ++ [t]) =
      trace Host.step Host.events .start turns ++ s.events t := by
  rw [trace_append h, trace_singleton]

theorem replies_concat {packets : List Packet} {g : Globals}
    (h : run callback initial packets = some g) (packet : Packet) :
    replies (packets ++ [packet]) = replies packets ++ (hostRcvPkt g packet).queued := by
  rw [replies, trace_append h, trace_singleton]
  rfl

theorem commands_concat {before : List Bool} {task : AdvtTask}
    (h : run advertise {} before = some task) (sendAvail : Bool) :
    commands (before ++ [sendAvail]) = commands before ++ (btAdvtTask task sendAvail).2 := by
  rw [commands, trace_append h, trace_singleton]
  rfl

/-- A turn that begins no call. -/
theorem Follows.other {t : Turn} (h : Follows turns s) (hstep : s.step t = some s')
    (hreceived : received [t] = []) (hpasses : passes [t] = []) (hglobals : s'.globals = s.globals)
    (htask : s'.task = s.task) (hcalled : ∀ caller, Fifo.called caller (s.events t) = []) :
    Follows (turns ++ [t]) s' where
  run_eq := by rw [run_concat, h.run_eq, Option.bind_some, hstep]
  globals_eq := by rw [hglobals, h.globals_eq, received_append, hreceived, List.append_nil]
  task_eq := by rw [htask, passes_append, hpasses, List.append_nil, h.task_eq]
  replies_eq := by
    rw [trace_events_concat h.run_eq, Fifo.called_append, h.replies_eq, hcalled, received_append,
      hreceived, List.append_nil, List.append_nil]
  commands_eq := by
    rw [trace_events_concat h.run_eq, Fifo.called_append, h.commands_eq, hcalled, passes_append,
      hpasses, List.append_nil, List.append_nil]

theorem Follows.step {t : Turn} (h : Follows turns s) (hstep : s.step t = some s') :
    Follows (turns ++ [t]) s' := by
  have hrun : run Host.step .start (turns ++ [t]) = some s' := by
    rw [run_concat, h.run_eq, Option.bind_some, hstep]
  have hevents := trace_events_concat h.run_eq t
  cases t with
  | hostRcvPkt packet =>
      obtain ⟨g, hg, hcall⟩ := Option.bind_eq_some_iff.mp hstep
      obtain ⟨packets, -, rfl⟩ := Option.map_eq_some_iff.mp hcall
      have hg' : run callback initial (received turns) = some g := h.globals_eq.symm.trans hg
      have hreceived : received (turns ++ [.hostRcvPkt packet]) = received turns ++ [packet] :=
        received_append turns _
      have hpasses : passes (turns ++ [.hostRcvPkt packet]) = passes turns := by
        rw [passes_append]
        exact List.append_nil _
      refine ⟨hrun, ?_, hpasses ▸ h.task_eq, ?_, ?_⟩
      · rw [hreceived, run_concat, hg']
        rfl
      · rw [hevents, Fifo.called_append, h.replies_eq, hreceived, replies_concat hg']
        simp [Host.events, hg, Fifo.called]
      · rw [hevents, Fifo.called_append, h.commands_eq, hpasses]
        simp [Host.events, hg, Fifo.called]
  | btAdvtTask sendAvail =>
      obtain ⟨packets, -, rfl⟩ := Option.map_eq_some_iff.mp hstep
      have hreceived : received (turns ++ [.btAdvtTask sendAvail]) = received turns := by
        rw [received_append]
        exact List.append_nil _
      have hpasses : passes (turns ++ [.btAdvtTask sendAvail]) = passes turns ++ [sendAvail] :=
        passes_append turns _
      refine ⟨hrun, hreceived ▸ h.globals_eq, ?_, ?_, ?_⟩
      · rw [hpasses, run_concat, h.task_eq]
        rfl
      · rw [hevents, Fifo.called_append, h.replies_eq, hreceived]
        simp [Host.events, Fifo.called]
      · rw [hevents, Fifo.called_append, h.commands_eq, hpasses, commands_concat h.task_eq]
        simp [Host.events, Fifo.called]
  | queuePacket caller =>
      have hsame : s'.globals = s.globals ∧ s'.task = s.task := by
        obtain rfl := Option.some.inj hstep
        exact ⟨rfl, rfl⟩
      exact h.other hstep rfl rfl hsame.1 hsame.2 (fun _ => rfl)
  | send sendAvail =>
      have hsame : s'.globals = s.globals ∧ s'.task = s.task := by
        cases sendAvail <;> obtain rfl := Option.some.inj hstep <;> exact ⟨rfl, rfl⟩
      exact h.other hstep rfl rfl hsame.1 hsame.2 (fun _ => by cases sendAvail <;> rfl)

theorem follows_run (hrun : run Host.step .start turns = some s) : Follows turns s :=
  run_history Follows ⟨rfl, rfl, rfl, rfl, rfl⟩ (fun _ _ _ _ h hstep => h.step hstep) hrun

/-! ## What is sent -/

/-- What has been sent of a caller's packets, and what it still has to come. -/
theorem sent_called (hrun : run Host.step .start turns = some s) (caller : Caller) :
    Fifo.ofWriter caller (trace Host.step Host.sent .start turns) ++ s.packets.left caller =
      Fifo.called caller (trace Host.step Host.events .start turns) := by
  have hqueue := Fifo.conserved caller (run_packets hrun)
  rw [trace_sent hrun] at hqueue
  simpa [Host.start, Fifo.State.empty, Fifo.State.left] using hqueue

theorem sent_hostRcvPkt (hrun : run Host.step .start turns = some s) :
    Fifo.ofWriter .hostRcvPkt (trace Host.step Host.sent .start turns) ++
      s.packets.left .hostRcvPkt = replies (received turns) := by
  rw [sent_called hrun, (follows_run hrun).replies_eq]

theorem sent_btAdvtTask (hrun : run Host.step .start turns = some s) :
    Fifo.ofWriter .btAdvtTask (trace Host.step Host.sent .start turns) ++
      s.packets.left .btAdvtTask = commands (passes turns) := by
  rw [sent_called hrun, (follows_run hrun).commands_eq]

theorem queue_length_le (hrun : run Host.step .start turns = some s) :
    s.packets.queue.length ≤ sendBufferSize :=
  Fifo.run_length_le (Nat.zero_le _) (run_packets hrun)

/-- **What is sent is what the handlers queue.**  In any order of turns, what has been
sent of a caller's packets, then those in the queue, then those its call still waits with,
are the packets that the handler queues without the bound, in order; and the bound is
kept. -/
theorem sent_conserved (hrun : run Host.step .start turns = some s) :
    Fifo.ofWriter .hostRcvPkt (trace Host.step Host.sent .start turns) ++
        s.packets.left .hostRcvPkt = replies (received turns) ∧
      Fifo.ofWriter .btAdvtTask (trace Host.step Host.sent .start turns) ++
        s.packets.left .btAdvtTask = commands (passes turns) ∧
      s.packets.queue.length ≤ sendBufferSize :=
  ⟨sent_hostRcvPkt hrun, sent_btAdvtTask hrun, queue_length_le hrun⟩

/-- A Connection Request event, and the first command of `btAdvtTask`. -/
def exchange : List Turn :=
  [.hostRcvPkt (.ofBytes [0x04, 0x04, 10, 1, 2, 3, 4, 5, 6, 0, 1, 2, 1]), .btAdvtTask true,
    .queuePacket .btAdvtTask, .queuePacket .hostRcvPkt, .send true]

theorem sent_conserved_exchange :
    ∃ s, run Host.step .start exchange = some s ∧
      Fifo.ofWriter .hostRcvPkt (trace Host.step Host.sent .start exchange) ++
        s.packets.left .hostRcvPkt = replies (received exchange) ∧
      Fifo.ofWriter .btAdvtTask (trace Host.step Host.sent .start exchange) ++
        s.packets.left .btAdvtTask = commands (passes exchange) ∧
      s.packets.queue.length ≤ sendBufferSize :=
  ⟨_, rfl, sent_conserved rfl⟩

end HydroponicCloset.Transport
