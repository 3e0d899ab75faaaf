import HydroponicCloset.Obex.Retransmission
import HydroponicCloset.System.Provisioned
import HydroponicCloset.Transport.SendQueue

/-!
# The program and its send queue

In `Closet` the callback handles a packet all at once, as if the send queue had no bound, and
in `Host` there is no main task.  Here both are put together, between two restarts of the
chip.

A call of `host_rcv_pkt` may have to wait twice: `obex_ftp` queues its acknowledgement before
it reads the headers of a PUT, and a reply after it.  While the call waits the main task goes
on, and may look at `fi` and `content` and clear them.  So a call is begun by one move, and
handled by a later one, when what it queues first is in the queue.  The globals other than the
files are the callback's own, and it does not matter when they are written.

If `init_bt` is called again it makes a second queue, in the same storage: the runs end there.
And no PUT keeps the header loop for ever.  A call with such a PUT would be begun here and
never handled, while `obex_ftp` stores its Name and Body before it goes on for ever; what is
said of runs is said of those without one.

* `hostRcvPkt_links`: what is answered does not depend on the files.
* `Firmware.next_of_step`: what a move can do.
-/

namespace HydroponicCloset.System

open CMemory Runs Bluetooth Obex App Transport

/-! ## What the answers depend on -/

/-- The globals that the frames depend on are the same. -/
structure SameLinks (g g' : Globals) : Prop where
  obexCid : g'.obexCid = g.obexCid
  connected : g'.connected = g.connected
  srcCid : g'.srcCid = g.srcCid
  destCid : g'.destCid = g.destCid
  obexConnId : g'.obexConnId = g.obexConnId

theorem SameLinks.refl (g : Globals) : SameLinks g g := ⟨rfl, rfl, rfl, rfl, rfl⟩

theorem SameLinks.trans {g g' g'' : Globals} (h : SameLinks g g') (h' : SameLinks g' g'') :
    SameLinks g g'' :=
  ⟨h'.obexCid.trans h.obexCid, h'.connected.trans h.connected, h'.srcCid.trans h.srcCid,
    h'.destCid.trans h.destCid, h'.obexConnId.trans h.obexConnId⟩

theorem SameLinks.symm {g g' : Globals} (h : SameLinks g g') : SameLinks g' g :=
  ⟨h.obexCid.symm, h.connected.symm, h.srcCid.symm, h.destCid.symm, h.obexConnId.symm⟩

variable {g g' : Globals}

/-- The headers of a PUT are stored in the files only. -/
theorem sameLinks_store (hs : List Header) (g : Globals) : SameLinks g (hs.foldl Header.store g) :=
  ⟨foldl_store_kept Globals.obexCid (fun h _ => by cases h <;> rfl) hs g,
    foldl_store_kept Globals.connected (fun h _ => by cases h <;> rfl) hs g,
    foldl_store_kept Globals.srcCid (fun h _ => by cases h <;> rfl) hs g,
    foldl_store_kept Globals.destCid (fun h _ => by cases h <;> rfl) hs g,
    foldl_store_kept Globals.obexConnId (fun h _ => by cases h <;> rfl) hs g⟩

theorem confReq_links (packet : Packet) (h : SameLinks g g') :
    (confReq g' .cleared packet).2 = (confReq g .cleared packet).2 ∧
      SameLinks (confReq g .cleared packet).1 (confReq g' .cleared packet).1 := by
  refine ⟨?_, ?_⟩
  · unfold confReq
    rw [h.srcCid]
    split_ifs <;> rfl
  · obtain ⟨hobex, hconnected, hsrc, hdest, hid⟩ := h
    unfold confReq
    split_ifs <;> exact ⟨hobex, hconnected, hsrc, hdest, hid⟩

theorem signalling_links (packet : Packet) (h : SameLinks g g') :
    (signalling g' packet).2 = (signalling g packet).2 ∧
      SameLinks (signalling g packet).1 (signalling g' packet).1 := by
  unfold signalling
  split_ifs with hinfo hconn hconf hres hdisconn
  · exact ⟨rfl, h⟩
  · refine ⟨?_, ?_⟩
    · simp only [connReq, connRes, h.destCid]
    · refine ⟨?_, h.connected, rfl, ?_, h.obexConnId⟩
      · simp only [connReq, h.destCid, h.obexCid]
      · simp only [connReq, h.destCid]
  · obtain ⟨hbuf, hlinks⟩ := confReq_links packet h
    exact ⟨congrArg (fun buf => [queuePacket buf.cmdBuf]) hbuf, hlinks⟩
  · refine ⟨?_, h⟩
    simp only [confRes, h.srcCid]
  · exact ⟨rfl, h⟩
  · exact ⟨rfl, h⟩

theorem multiplex_links (packet : Packet) (h : SameLinks g g') :
    multiplex g' packet = multiplex g packet := by
  unfold multiplex
  rw [h.obexCid]

theorem forObex_links (packet : Packet) (h : SameLinks g g') :
    ForObex g' packet ↔ ForObex g packet := by
  rw [ForObex, ForObex, multiplex_links packet h]

/-- The frames are the same, and the links are left alike. -/
def SameNext (o o' : Outcome) : Prop :=
  o'.queued = o.queued ∧ Option.Rel SameLinks o.next o'.next

theorem obexFtp_links (packet : Packet) (h : SameLinks g g') :
    SameNext (obexFtp g packet) (obexFtp g' packet) := by
  refine ⟨obexFtp_queued_congr h.srcCid h.obexConnId, ?_⟩
  rw [obexFtp_next, obexFtp_next]
  cases headersOf packet with
  | none => exact .none
  | some hs =>
      have hback : SameLinks (hs.foldl Header.store g) g := (sameLinks_store hs g).symm
      exact .some ((hback.trans h).trans (sameLinks_store hs g'))

/-- **What is answered** does not depend on the files. -/
theorem hostRcvPkt_links (packet : Packet) (h : SameLinks g g') :
    SameNext (hostRcvPkt g packet) (hostRcvPkt g' packet) := by
  unfold hostRcvPkt
  split_ifs with hevent hacl
  · refine ⟨?_, .some h⟩
    simp only [hciEventHandler, h.connected]
  · unfold l2capCmdHandler
    rw [multiplex_links packet h]
    cases multiplex g packet with
    | signalling =>
        obtain ⟨hframes, hlinks⟩ := signalling_links packet h
        exact ⟨hframes, .some hlinks⟩
    | obex => exact obexFtp_links packet h
    | sdp =>
        refine ⟨?_, .some h⟩
        simp only [sdp, attRes, h.srcCid]
  · exact ⟨rfl, .some h⟩

/-! ## The two halves of a call -/

/-- What a call queues before it writes anything. -/
def earlier (g : Globals) (packet : Packet) : List Frame :=
  if ForObex g packet then ackFrames g packet else []

/-- What it queues afterwards. -/
def later (g : Globals) (packet : Packet) : List Frame :=
  (hostRcvPkt g packet).queued.drop (earlier g packet).length

theorem ackFrames_prefix (g : Globals) (packet : Packet) :
    ackFrames g packet <+: (obexFtp g packet).queued := by
  unfold obexFtp
  dsimp only
  split_ifs
  · exact List.prefix_append _ _
  · cases putLoop packet packet.len.toNat (putStart g packet) with
    | none => exact List.prefix_refl _
    | some s => exact List.prefix_append _ _
  · exact List.prefix_refl _
  · exact List.prefix_refl _

theorem earlier_later (g : Globals) (packet : Packet) :
    earlier g packet ++ later g packet = (hostRcvPkt g packet).queued := by
  have hprefix : earlier g packet <+: (hostRcvPkt g packet).queued := by
    unfold earlier
    split_ifs with hobex
    · rw [hostRcvPkt_obex hobex]
      exact ackFrames_prefix g packet
    · exact List.nil_prefix
  obtain ⟨rest, hrest⟩ := hprefix
  rw [later, ← hrest, List.drop_left]

theorem earlier_links (packet : Packet) (h : SameLinks g g') :
    earlier g' packet = earlier g packet := by
  unfold earlier
  rw [ackFrames_congr h.srcCid]
  simp only [forObex_links packet h]

/-! ## Moves -/

/-- The program, its send queue, and the packet that a call has begun with. -/
structure Firmware where
  closet : Closet
  task : AdvtTask
  packets : Fifo.State Caller Frame
  handling : Option Packet

/-- A call of `host_rcv_pkt` begins, or is handled; something else happens in the program;
or a step of `btAdvtTask`, `queue_packet` or `send`. -/
inductive Move
  | hostRcvPkt (packet : Packet)
  | handle
  | elsewhere (o : Occurrence)
  | btAdvtTask (sendAvail : Bool)
  | queuePacket (caller : Caller)
  | send (sendAvail : Bool)

/-- A step of the main task or of the event task. -/
def Occurrence.elsewhere : Occurrence → Bool
  | .restart _ | .packet _ => false
  | _ => true

namespace Firmware

/-- `app_main` has read the clock, and there is no queue yet. -/
def start (time : ℤ) : Firmware := ⟨.start time, {}, .empty, none⟩

/-- What happens while the chip runs; `none` for what cannot happen now, for a call that
never returns, and where `init_bt` makes a second queue. -/
def running (s : Firmware) : Move → Option Firmware
  | .hostRcvPkt packet =>
      if 0 < s.closet.tasks.send ∧ s.handling.isNone then
        (s.packets.step sendBufferSize
            (.call .hostRcvPkt (earlier s.closet.device.globals packet))).map
          fun packets => { s with packets := packets, handling := some packet }
      else none
  | .handle =>
      s.handling.bind fun packet =>
        (s.closet.step (.packet packet)).bind fun closet =>
          (s.packets.step sendBufferSize
              (.call .hostRcvPkt (later s.closet.device.globals packet))).map
            fun packets => { s with closet := closet, packets := packets, handling := none }
  | .elsewhere o =>
      if o.elsewhere then
        (s.closet.step o).bind fun closet =>
          if closet.tasks.queue ≤ 1 then some { s with closet := closet } else none
      else none
  | .btAdvtTask sendAvail =>
      if 0 < s.closet.tasks.btAdvtTask then
        (s.packets.step sendBufferSize
            (.call .btAdvtTask (Bluetooth.btAdvtTask s.task sendAvail).2)).map
          fun packets =>
            { s with task := (Bluetooth.btAdvtTask s.task sendAvail).1, packets := packets }
      else none
  | .queuePacket caller =>
      (s.packets.step sendBufferSize (.put caller)).map fun packets => { s with packets := packets }
  | .send sendAvail =>
      if 0 < s.closet.tasks.send then
        if sendAvail then
          (s.packets.step sendBufferSize .take).map fun packets => { s with packets := packets }
        else some s
      else none

/-- One move.  After `esp_restart` nothing happens any more. -/
def step (s : Firmware) (m : Move) : Option Firmware :=
  if s.closet.station.restarted then none else s.running m

/-- What a move is for the program. -/
def occurrences (s : Firmware) : Move → List Occurrence
  | .handle => s.handling.toList.map .packet
  | .elsewhere o => [o]
  | _ => []

/-- What a move is for the queue. -/
def events (s : Firmware) : Move → List (Fifo.Event Caller Frame)
  | .hostRcvPkt packet => [.call .hostRcvPkt (earlier s.closet.device.globals packet)]
  | .handle =>
      s.handling.toList.map fun packet =>
        .call .hostRcvPkt (later s.closet.device.globals packet)
  | .elsewhere _ => []
  | .btAdvtTask sendAvail => [.call .btAdvtTask (Bluetooth.btAdvtTask s.task sendAvail).2]
  | .queuePacket caller => [.put caller]
  | .send sendAvail => if sendAvail then [.take] else []

/-- The packet that `send` takes out. -/
def sent (s : Firmware) : Move → List (Caller × Frame)
  | .send true => s.packets.taken .take
  | _ => []

/-- What the call that has begun is still to queue. -/
def owed (s : Firmware) : List Frame :=
  s.handling.toList.flatMap (later s.closet.device.globals)

/-! ## What a move can do -/

/-- The moves, with what they ask of the state. -/
inductive Next (s : Firmware) : Move → Firmware → Prop
  | hostRcvPkt (packet : Packet) (packets : Fifo.State Caller Frame)
      (hstarted : 0 < s.closet.tasks.send) (hidle : s.handling = none)
      (hcall : s.packets.step sendBufferSize
        (.call .hostRcvPkt (earlier s.closet.device.globals packet)) = some packets) :
      Next s (.hostRcvPkt packet) { s with packets := packets, handling := some packet }
  | handle (packet : Packet) (closet : Closet) (packets : Fifo.State Caller Frame)
      (hhandling : s.handling = some packet)
      (hreturns : s.closet.step (.packet packet) = some closet)
      (hcall : s.packets.step sendBufferSize
        (.call .hostRcvPkt (later s.closet.device.globals packet)) = some packets) :
      Next s .handle { s with closet := closet, packets := packets, handling := none }
  | elsewhere (o : Occurrence) (closet : Closet) (ho : o.elsewhere = true)
      (hstep : s.closet.step o = some closet) :
      Next s (.elsewhere o) { s with closet := closet }
  | btAdvtTask (sendAvail : Bool) (packets : Fifo.State Caller Frame)
      (hcall : s.packets.step sendBufferSize
        (.call .btAdvtTask (Bluetooth.btAdvtTask s.task sendAvail).2) = some packets) :
      Next s (.btAdvtTask sendAvail)
        { s with task := (Bluetooth.btAdvtTask s.task sendAvail).1, packets := packets }
  | queuePacket (caller : Caller) :
      Next s (.queuePacket caller) { s with packets := s.packets.put sendBufferSize caller }
  | accepted :
      Next s (.send true) { s with packets := { s.packets with queue := s.packets.queue.tail } }
  | refused : Next s (.send false) s

/-- **What a move can do.** -/
theorem next_of_step {s s' : Firmware} {m : Move} (h : s.step m = some s') : Next s m s' := by
  rw [step] at h
  split_ifs at h
  cases m with
  | hostRcvPkt packet =>
      rw [running] at h
      split_ifs at h with hidle
      obtain ⟨packets, hcall, rfl⟩ := Option.map_eq_some_iff.mp h
      exact .hostRcvPkt packet packets hidle.1 (Option.isNone_iff_eq_none.mp hidle.2) hcall
  | handle =>
      obtain ⟨packet, hhandling, hrest⟩ := Option.bind_eq_some_iff.mp h
      obtain ⟨closet, hreturns, hqueue⟩ := Option.bind_eq_some_iff.mp hrest
      obtain ⟨packets, hcall, rfl⟩ := Option.map_eq_some_iff.mp hqueue
      exact .handle packet closet packets hhandling hreturns hcall
  | elsewhere o =>
      rw [running] at h
      split_ifs at h with ho
      obtain ⟨closet, hstep, hone⟩ := Option.bind_eq_some_iff.mp h
      split_ifs at hone
      obtain rfl := Option.some.inj hone
      exact .elsewhere o closet ho hstep
  | btAdvtTask sendAvail =>
      rw [running] at h
      split_ifs at h
      obtain ⟨packets, hcall, rfl⟩ := Option.map_eq_some_iff.mp h
      exact .btAdvtTask sendAvail packets hcall
  | queuePacket caller =>
      obtain rfl := Option.some.inj h
      exact .queuePacket caller
  | send sendAvail =>
      rw [running] at h
      split_ifs at h with _ haccepted
      · obtain rfl := Option.some.inj h
        obtain rfl := haccepted
        exact .accepted
      · obtain rfl := Option.some.inj h
        obtain rfl := Bool.eq_false_iff.mpr haccepted
        exact .refused

end Firmware

end HydroponicCloset.System
