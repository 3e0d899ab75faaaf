import HydroponicCloset.System.Firmware

/-!
# The firmware is its parts

A run of the firmware contains a run of the program, in which each packet is handled at once,
and a run of the send queue.  So what is known of `Closet` holds of the firmware too.  The
runs are those in which no PUT keeps the header loop for ever.

For the queue it matters what the calls are made with.  The main task clears the files while
a call of the callback waits, so the globals are not those that the callback would come to
alone.  `AnswersAlone` relates the two: they answer alike, and the calls are made with what
the callback queues alone, up to what the call that has begun is still to queue.

`decomposes` puts the parts together.
-/

namespace HydroponicCloset.System

open CMemory Runs Bluetooth Obex App Channels Transport

variable {time : ℤ} {moves : List Move} {s s' : Firmware} {m : Move}

/-! ## What the run contains -/

/-- The packet of an occurrence. -/
def Occurrence.packet? : Occurrence → Option Packet
  | .packet handled => some handled
  | _ => none

/-- The packets that calls have begun with. -/
def begun (moves : List Move) : List Packet :=
  moves.filterMap fun
    | .hostRcvPkt packet => some packet
    | _ => none

/-- The steps of the main task and of the event task. -/
def others (moves : List Move) : List Occurrence :=
  moves.filterMap fun
    | .elsewhere o => some o
    | _ => none

/-- The passes of `btAdvtTask`. -/
def advertPasses (moves : List Move) : List Bool :=
  moves.filterMap fun
    | .btAdvtTask sendAvail => some sendAvail
    | _ => none

/-- The run of the program that a run of the firmware contains. -/
def program (time : ℤ) (moves : List Move) : List Occurrence :=
  trace Firmware.step Firmware.occurrences (.start time) moves

theorem step_closet (s : Firmware) (m : Move) (s' : Firmware) (h : s.step m = some s') :
    run Closet.step s.closet (s.occurrences m) = some s'.closet := by
  cases Firmware.next_of_step h with
  | handle packet closet packets hhandling hreturns =>
      rw [Firmware.occurrences, hhandling]
      simpa [run_cons] using hreturns
  | elsewhere o closet _ hstep => simpa [Firmware.occurrences, run_cons] using hstep
  | hostRcvPkt | btAdvtTask | queuePacket | accepted | refused => rfl

/-- **The program's part** of a run. -/
theorem run_program (hrun : run Firmware.step (.start time) moves = some s) :
    run Closet.step (.start time) (program time moves) = some s.closet :=
  run_part step_closet hrun

theorem step_queue (s : Firmware) (m : Move) (s' : Firmware) (h : s.step m = some s') :
    run (Fifo.State.step sendBufferSize) s.packets (s.events m) = some s'.packets := by
  cases Firmware.next_of_step h with
  | hostRcvPkt packet packets _ _ hcall => simpa [Firmware.events, run_cons] using hcall
  | handle packet closet packets hhandling _ hcall =>
      rw [Firmware.events, hhandling]
      simpa [run_cons] using hcall
  | btAdvtTask sendAvail packets hcall => simpa [Firmware.events, run_cons] using hcall
  | elsewhere | queuePacket | accepted | refused => rfl

theorem sent_events (s : Firmware) (m : Move) :
    trace (Fifo.State.step sendBufferSize) Fifo.State.taken s.packets (s.events m) = s.sent m := by
  cases m with
  | handle =>
      rw [Firmware.events]
      cases s.handling with
      | none => rfl
      | some packet => exact trace_singleton _ _
  | elsewhere o => rfl
  | hostRcvPkt | btAdvtTask | queuePacket => exact trace_singleton _ _
  | send sendAvail =>
      cases sendAvail with
      | true => exact trace_singleton _ _
      | false => rfl

/-- **The queue's part** of a run. -/
theorem run_queue (hrun : run Firmware.step (.start time) moves = some s) :
    run (Fifo.State.step sendBufferSize) (Firmware.start time).packets
      (trace Firmware.step Firmware.events (.start time) moves) = some s.packets :=
  run_part step_queue hrun

/-! ## The callback's part -/

/-- Nothing else writes the globals that the answers depend on. -/
theorem elsewhere_links {closet closet' : Closet} {o : Occurrence} (ho : o.elsewhere = true)
    (hstep : closet.step o = some closet') :
    SameLinks closet.device.globals closet'.device.globals := by
  cases Closet.next_of_step hstep with
  | restart | packet => cases ho
  | provision startBt file =>
      show SameLinks _ (checkConfig closet.device file).globals
      rw [checkConfig_globals]
      exact .refl _
  | iteration => exact ⟨rfl, rfl, rfl, rfl, rfl⟩
  | station | connect | skip | wakeUp | rutinas => exact .refl _

theorem handle_globals {closet closet' : Closet} {packet : Packet}
    (hstep : closet.step (.packet packet) = some closet') :
    (hostRcvPkt closet.device.globals packet).next = some closet'.device.globals := by
  cases Closet.next_of_step hstep with
  | packet packet g _ hreturns => exact hreturns

/-- The packets that have been handled. -/
def handled (time : ℤ) (moves : List Move) : List Packet :=
  (program time moves).filterMap Occurrence.packet?

/-- What the calls of the callback have been made with. -/
def called (time : ℤ) (moves : List Move) : List Frame :=
  Fifo.called .hostRcvPkt (trace Firmware.step Firmware.events (.start time) moves)

/-- The callback alone, with the packets handled so far, has come to globals that answer
alike; and the calls have been made with what it queues. -/
structure AnswersAlone (time : ℤ) (moves : List Move) (alone : Globals) (s : Firmware) : Prop where
  run_eq : run Firmware.step (.start time) moves = some s
  begun_eq : handled time moves ++ s.handling.toList = begun moves
  alone_eq : run callback initial (handled time moves) = some alone
  links : SameLinks alone s.closet.device.globals
  called_eq : called time moves =
    replies (handled time moves) ++ s.handling.toList.flatMap (earlier s.closet.device.globals)

theorem handled_concat (h : run Firmware.step (.start time) moves = some s) (m : Move) :
    handled time (moves ++ [m]) =
      handled time moves ++ (s.occurrences m).filterMap Occurrence.packet? := by
  rw [handled, program, trace_append h, trace_singleton, List.filterMap_append]
  rfl

theorem called_concat (h : run Firmware.step (.start time) moves = some s) (m : Move) :
    called time (moves ++ [m]) = called time moves ++ Fifo.called .hostRcvPkt (s.events m) := by
  rw [called, trace_append h, trace_singleton, Fifo.called_append]
  rfl

theorem begun_concat (moves : List Move) (m : Move) :
    begun (moves ++ [m]) = begun moves ++ begun [m] :=
  List.filterMap_append

namespace AnswersAlone

variable {alone : Globals}

/-- A move that has nothing to do with the callback. -/
theorem other (h : AnswersAlone time moves alone s) (hstep : s.step m = some s')
    (hoccurrences : (s.occurrences m).filterMap Occurrence.packet? = [])
    (hbegun : begun [m] = []) (hcalled : Fifo.called .hostRcvPkt (s.events m) = [])
    (hhandling : s'.handling = s.handling)
    (hlinks : SameLinks s.closet.device.globals s'.closet.device.globals) :
    AnswersAlone time (moves ++ [m]) alone s' where
  run_eq := by rw [run_concat, h.run_eq, Option.bind_some, hstep]
  begun_eq := by
    rw [handled_concat h.run_eq, hoccurrences, List.append_nil, hhandling, h.begun_eq, begun_concat,
      hbegun, List.append_nil]
  alone_eq := by rw [handled_concat h.run_eq, hoccurrences, List.append_nil, h.alone_eq]
  links := h.links.trans hlinks
  called_eq := by
    have hearlier : earlier s'.closet.device.globals = earlier s.closet.device.globals :=
      funext fun packet => earlier_links packet hlinks
    rw [called_concat h.run_eq, hcalled, List.append_nil, h.called_eq, handled_concat h.run_eq,
      hoccurrences, List.append_nil, hhandling, hearlier]

/-- A call begins. -/
theorem begins {packet : Packet} {packets : Fifo.State Caller Frame}
    (h : AnswersAlone time moves alone s) (hidle : s.handling = none)
    (hstep : s.step (.hostRcvPkt packet) =
      some { s with packets := packets, handling := some packet }) :
    AnswersAlone time (moves ++ [.hostRcvPkt packet]) alone
      { s with packets := packets, handling := some packet } where
  run_eq := by rw [run_concat, h.run_eq, Option.bind_some, hstep]
  begun_eq := by
    rw [handled_concat h.run_eq, begun_concat, ← h.begun_eq, hidle]
    simp [Firmware.occurrences, begun]
  alone_eq := by
    rw [handled_concat h.run_eq]
    simpa [Firmware.occurrences] using h.alone_eq
  links := h.links
  called_eq := by
    rw [called_concat h.run_eq, handled_concat h.run_eq, h.called_eq, hidle]
    simp [Firmware.occurrences, Firmware.events, Fifo.called]

/-- A call is handled. -/
theorem handles {packet : Packet} {closet : Closet} {packets : Fifo.State Caller Frame}
    (h : AnswersAlone time moves alone s) (hhandling : s.handling = some packet)
    (hreturns : s.closet.step (.packet packet) = some closet)
    (hstep : s.step .handle =
      some { s with closet := closet, packets := packets, handling := none }) :
    ∃ alone', AnswersAlone time (moves ++ [.handle]) alone'
      { s with closet := closet, packets := packets, handling := none } := by
  obtain ⟨hqueued, hnext⟩ := hostRcvPkt_links packet h.links
  rw [handle_globals hreturns] at hnext
  obtain ⟨alone', halone, hlinks⟩ : ∃ alone', (hostRcvPkt alone packet).next = some alone' ∧
      SameLinks alone' closet.device.globals := by
    generalize (hostRcvPkt alone packet).next = next at hnext ⊢
    cases hnext with
    | some hlinks => exact ⟨_, rfl, hlinks⟩
  have hhandled : handled time (moves ++ [.handle]) = handled time moves ++ [packet] := by
    rw [handled_concat h.run_eq, Firmware.occurrences, hhandling]
    rfl
  refine ⟨alone', ?_, ?_, ?_, hlinks, ?_⟩
  · rw [run_concat, h.run_eq, Option.bind_some, hstep]
  · rw [hhandled, begun_concat, ← h.begun_eq, hhandling]
    simp [begun]
  · rw [hhandled, run_concat, h.alone_eq]
    exact halone
  · have hevents : Fifo.called .hostRcvPkt (s.events .handle) =
        later s.closet.device.globals packet := by
      rw [Firmware.events, hhandling]
      simp [Fifo.called]
    rw [called_concat h.run_eq, h.called_eq, hevents, hhandled, replies_concat h.alone_eq,
      ← hqueued, ← earlier_later, hhandling]
    simp

theorem step (h : AnswersAlone time moves alone s) (hstep : s.step m = some s') :
    ∃ alone', AnswersAlone time (moves ++ [m]) alone' s' := by
  cases Firmware.next_of_step hstep with
  | hostRcvPkt packet packets _ hidle => exact ⟨alone, h.begins hidle hstep⟩
  | handle packet closet packets hhandling hreturns => exact h.handles hhandling hreturns hstep
  | elsewhere o closet ho hother =>
      have hpacket : [o].filterMap Occurrence.packet? = [] := by
        cases o <;> first | rfl | cases ho
      exact ⟨alone, h.other hstep hpacket rfl rfl rfl (elsewhere_links ho hother)⟩
  | btAdvtTask | queuePacket | accepted | refused =>
      exact ⟨alone, h.other hstep rfl rfl rfl rfl (.refl _)⟩

end AnswersAlone

theorem answersAlone_run (hrun : run Firmware.step (.start time) moves = some s) :
    ∃ alone, AnswersAlone time moves alone s :=
  run_history (fun moves s => ∃ alone, AnswersAlone time moves alone s)
    ⟨initial, rfl, rfl, rfl, .refl _, rfl⟩
    (fun _ _ _ _ ⟨_, h⟩ hstep => h.step hstep) hrun

/-! ## The other parts -/

/-- The main task, the event task and `btAdvtTask` make their own steps. -/
structure StepsAlone (time : ℤ) (moves : List Move) (s : Firmware) : Prop where
  run_eq : run Firmware.step (.start time) moves = some s
  others_eq : (program time moves).filter Occurrence.elsewhere = others moves
  task_eq : run advertise {} (advertPasses moves) = some s.task
  commands_eq : Fifo.called .btAdvtTask
    (trace Firmware.step Firmware.events (.start time) moves) = commands (advertPasses moves)

theorem StepsAlone.step (h : StepsAlone time moves s) (hstep : s.step m = some s') :
    StepsAlone time (moves ++ [m]) s' := by
  have hprogram : program time (moves ++ [m]) = program time moves ++ s.occurrences m := by
    rw [program, trace_append h.run_eq, trace_singleton]
    rfl
  have hevents : trace Firmware.step Firmware.events (.start time) (moves ++ [m]) =
      trace Firmware.step Firmware.events (.start time) moves ++ s.events m := by
    rw [trace_append h.run_eq, trace_singleton]
  have hothers : others (moves ++ [m]) = others moves ++ others [m] := List.filterMap_append
  have hpasses : advertPasses (moves ++ [m]) = advertPasses moves ++ advertPasses [m] :=
    List.filterMap_append
  refine ⟨?_, ?_, ?_, ?_⟩
  · rw [run_concat, h.run_eq, Option.bind_some, hstep]
  · rw [hprogram, hothers, List.filter_append, h.others_eq]
    cases Firmware.next_of_step hstep with
    | handle packet _ _ hhandling =>
        rw [Firmware.occurrences, hhandling]
        rfl
    | elsewhere o _ ho => simp [Firmware.occurrences, others, ho]
    | hostRcvPkt | btAdvtTask | queuePacket | accepted | refused => rfl
  · rw [hpasses]
    cases Firmware.next_of_step hstep with
    | btAdvtTask sendAvail =>
        rw [show advertPasses [.btAdvtTask sendAvail] = [sendAvail] from rfl, run_concat, h.task_eq]
        rfl
    | hostRcvPkt | handle | elsewhere | queuePacket | accepted | refused =>
        simpa [advertPasses] using h.task_eq
  · rw [hevents, Fifo.called_append, h.commands_eq, hpasses]
    cases Firmware.next_of_step hstep with
    | btAdvtTask sendAvail =>
        rw [show advertPasses [.btAdvtTask sendAvail] = [sendAvail] from rfl,
          commands_concat h.task_eq]
        simp [Firmware.events, Fifo.called]
    | handle packet _ _ hhandling =>
        rw [Firmware.events, hhandling]
        simp [advertPasses, Fifo.called]
    | hostRcvPkt | elsewhere | queuePacket | accepted | refused =>
        simp [advertPasses, Firmware.events, Fifo.called]

theorem stepsAlone_run (hrun : run Firmware.step (.start time) moves = some s) :
    StepsAlone time moves s :=
  run_history (StepsAlone time) ⟨rfl, rfl, rfl, rfl⟩ (fun _ _ _ _ h hstep => h.step hstep) hrun

/-! ## The whole -/

/-- What has been sent of a caller's packets. -/
def sentOf (caller : Caller) (time : ℤ) (moves : List Move) : List Frame :=
  Fifo.ofWriter caller (trace Firmware.step Firmware.sent (.start time) moves)

theorem sentOf_left (hrun : run Firmware.step (.start time) moves = some s) (caller : Caller) :
    sentOf caller time moves ++ s.packets.left caller =
      Fifo.called caller (trace Firmware.step Firmware.events (.start time) moves) := by
  have hsent : trace (Fifo.State.step sendBufferSize) Fifo.State.taken (Firmware.start time).packets
      (trace Firmware.step Firmware.events (.start time) moves) =
        trace Firmware.step Firmware.sent (.start time) moves :=
    trace_part step_queue sent_events hrun
  have hqueue := Fifo.conserved caller (run_queue hrun)
  rw [hsent] at hqueue
  simpa [sentOf, Firmware.start, Fifo.State.empty, Fifo.State.left] using hqueue

/-- What the callback has still to queue makes up for what it would have queued alone. -/
theorem AnswersAlone.replies_begun {alone : Globals} (h : AnswersAlone time moves alone s) :
    called time moves ++ s.owed = replies (begun moves) := by
  rw [h.called_eq, ← h.begun_eq, Firmware.owed]
  cases s.handling with
  | none => simp
  | some packet =>
      obtain ⟨hqueued, -⟩ := hostRcvPkt_links packet h.links
      rw [Option.toList_some, replies_concat h.alone_eq, ← hqueued, ← earlier_later]
      simp

/-- **The firmware is its parts**, as long as no PUT keeps the header loop for ever.  A run is
a run of the program in which the packets are handled at once, in the order in which they
came, and the other tasks make the steps that they make.  And what is sent, is in the queue
or is still to be queued for the callback is what it queues alone, whatever the main task
does to its files meanwhile. -/
theorem decomposes (hrun : run Firmware.step (.start time) moves = some s) :
    run Closet.step (.start time) (program time moves) = some s.closet ∧
      handled time moves ++ s.handling.toList = begun moves ∧
      (program time moves).filter Occurrence.elsewhere = others moves ∧
      sentOf .hostRcvPkt time moves ++ s.packets.left .hostRcvPkt ++ s.owed =
        replies (begun moves) ∧
      sentOf .btAdvtTask time moves ++ s.packets.left .btAdvtTask =
        commands (advertPasses moves) ∧
      s.packets.queue.length ≤ sendBufferSize := by
  obtain ⟨alone, halone⟩ := answersAlone_run hrun
  have hsteps := stepsAlone_run hrun
  refine ⟨run_program hrun, halone.begun_eq, hsteps.others_eq, ?_, ?_, ?_⟩
  · rw [sentOf_left hrun]
    exact halone.replies_begun
  · rw [sentOf_left hrun, hsteps.commands_eq]
  · exact Fifo.run_length_le (Nat.zero_le _) (run_queue hrun)

/-- The eighth packet on the first channel: a PUT that asks for Single Response Mode. -/
def eighthPacket : Packet :=
  .ofBytes [0x02, 0, 0, 0, 0, 0, 0, 0x41, 0x00, 0x0e, 0, 0x82, 0, 0, 0x97, 0x01, 0, 0]

/-- The waiting loop looks while the acknowledgement waits. -/
def acknowledging : List Move :=
  [.elsewhere (.pass true .missing), .btAdvtTask true, .hostRcvPkt (connectPacket 0x1009 0x50),
    .handle, .queuePacket .hostRcvPkt, .queuePacket .btAdvtTask, .send true,
    .queuePacket .hostRcvPkt, .hostRcvPkt eighthPacket, .elsewhere .iteration,
    .queuePacket .hostRcvPkt, .handle, .elsewhere .iteration, .send true]

theorem decomposes_acknowledging :
    ∃ s, run Firmware.step (.start 0) acknowledging = some s ∧
      (run Closet.step (.start 0) (program 0 acknowledging) = some s.closet ∧
        handled 0 acknowledging ++ s.handling.toList = begun acknowledging ∧
        (program 0 acknowledging).filter Occurrence.elsewhere = others acknowledging ∧
        sentOf .hostRcvPkt 0 acknowledging ++ s.packets.left .hostRcvPkt ++ s.owed =
          replies (begun acknowledging) ∧
        sentOf .btAdvtTask 0 acknowledging ++ s.packets.left .btAdvtTask =
          commands (advertPasses acknowledging) ∧
        s.packets.queue.length ≤ sendBufferSize) := by
  obtain ⟨s, hs⟩ := Option.isSome_iff_exists.mp
    (show (run Firmware.step (.start 0) acknowledging).isSome = true by decide +kernel)
  exact ⟨s, hs, decomposes hs⟩

end HydroponicCloset.System
