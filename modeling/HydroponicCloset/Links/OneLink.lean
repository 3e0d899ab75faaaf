import Mathlib.Data.List.Basic
import HydroponicCloset.Bluetooth.L2cap
import HydroponicCloset.Lib.Runs
import HydroponicCloset.Obex.Headers

/-!
# One link at a time

`hci_event_handler` rejects a connection request if `connected` is set.  No function of
`bt_main.c` sets it: Connection Complete and Disconnection Complete events are dropped.
So every request is accepted (`answer_of_request`), also while a link is up, and runs
in which links come one at a time are those in which nobody asks for a second one
(`one_link_iff`).
-/

namespace HydroponicCloset.Links

open CMemory Wire Runs Bluetooth Obex

/-! ## Events -/

/-- The code of the Connection Complete event. -/
def hciEvtConnComplete : UInt8 := 0x03

/-- The code of the Disconnection Complete event. -/
def hciEvtDisconnComplete : UInt8 := 0x05

/-- An HCI event of this kind. -/
def IsEvent (event : UInt8) (packet : Packet) : Prop := packet 0 = 0x04 ∧ packet 1 = event

/-- A successful Connection Complete: the status and the address are its first and third
parameters. -/
def Completes (address : List UInt8) (packet : Packet) : Prop :=
  IsEvent hciEvtConnComplete packet ∧ packet 3 = 0x00 ∧ slice packet 6 6 = address

/-- An earlier request has been completed, and nothing has been disconnected since. -/
def Connected (packets : List Packet) : Prop :=
  ∃ before request between complete after,
    packets = before ++ request :: (between ++ complete :: after) ∧
      IsEvent hciEvtConnReq request ∧ Completes (eventAddress request) complete ∧
      ∀ packet ∈ after, ¬ IsEvent hciEvtDisconnComplete packet

/-! ## Answers -/

/-- A packet, and the frames queued for it. -/
structure Exchange where
  packet : Packet
  answer : List Frame

/-- The globals after a packet; `none` if the call never returns. -/
def deliver (g : Globals) (packet : Packet) : Option Globals := (hostRcvPkt g packet).next

/-- A packet and what is queued for it. -/
def exchange (g : Globals) (packet : Packet) : List Exchange :=
  [⟨packet, (hostRcvPkt g packet).queued⟩]

/-- The opcode of an HCI command. -/
def frameOpcode (frame : Frame) : UInt16 := word (frame.getD 4 0) (frame.getD 3 0)

/-- Answered with Accept Connection Request. -/
def Exchange.Accepted (e : Exchange) : Prop := ∃ frame ∈ e.answer, frameOpcode frame = 0x0409

/-- Answered with Reject Connection Request. -/
def Exchange.Rejected (e : Exchange) : Prop := ∃ frame ∈ e.answer, frameOpcode frame = 0x040A

/-- An earlier request was accepted and has been completed, and nothing has been
disconnected since. -/
def LinkUp (log : List Exchange) : Prop :=
  ∃ before request between complete after,
    log = before ++ request :: (between ++ complete :: after) ∧
      IsEvent hciEvtConnReq request.packet ∧ request.Accepted ∧
      Completes (eventAddress request.packet) complete.packet ∧
      ∀ e ∈ after, ¬ IsEvent hciEvtDisconnComplete e.packet

/-- While a link is up requests are rejected. -/
def OneLink (log : List Exchange) : Prop :=
  ∀ before request after, log = before ++ request :: after →
    IsEvent hciEvtConnReq request.packet → LinkUp before → request.Rejected ∧ ¬ request.Accepted

/-! ## Nobody sets `connected` -/

theorem store_connected (h : Header) (g : Globals) : (h.store g).connected = g.connected := by
  cases h <;> rfl

theorem signalling_connected (g : Globals) (packet : Packet) :
    (signalling g packet).1.connected = g.connected := by
  have hconf : (confReq g .cleared packet).1.connected = g.connected := by
    unfold confReq
    split_ifs <;> rfl
  unfold signalling
  split_ifs
  · rfl
  · rfl
  · exact hconf
  · rfl
  · rfl
  · rfl

theorem deliver_connected {g g' : Globals} {packet : Packet} (h : deliver g packet = some g') :
    g'.connected = g.connected := by
  have hsame : some g = some g' → g'.connected = g.connected := by
    intro heq
    rw [Option.some.inj heq]
  unfold deliver hostRcvPkt at h
  split_ifs at h
  · exact hsame h
  · unfold l2capCmdHandler at h
    split at h
    · rw [← Option.some.inj h]
      exact signalling_connected g packet
    · rw [obexFtp_next] at h
      obtain ⟨hs, -, rfl⟩ := Option.map_eq_some_iff.mp h
      exact foldl_store_kept Globals.connected store_connected hs g
    · exact hsame h
  · exact hsame h

/-! ## Every request is accepted -/

theorem frameOpcode_hciCommand {packSize paramLen : ℕ} {opcode : UInt16} {params : List UInt8}
    (hlen : params.length + 6 ≤ maxCmdLen) :
    frameOpcode (queueFresh (hciCommand packSize opcode paramLen params)) = opcode := by
  have hcommand : (hciCommand packSize opcode paramLen params).length = params.length + 6 := by
    simp [hciCommand]
    omega
  rw [queueFresh, queuePacket_cleared (by rwa [hcommand]), padded, hciCommand]
  simp only [List.append_assoc]
  exact word_high_low opcode

theorem answer_of_request {g : Globals} {packet : Packet} (hconnected : g.connected = 0)
    (h : IsEvent hciEvtConnReq packet) :
    (Exchange.mk packet (hostRcvPkt g packet).queued).Accepted ∧
      ¬ (Exchange.mk packet (hostRcvPkt g packet).queued).Rejected := by
  have hanswer : (hostRcvPkt g packet).queued = [queueFresh (hciCommand
      (hciH4CmdPreambleSize + 7) 0x0409 7 (eventAddress packet ++ uint8ToStream 1))] := by
    rw [hostRcvPkt, if_pos h.1, hciEventHandler, if_pos h.2, if_pos hconnected]
    rfl
  have hopcode : frameOpcode (queueFresh (hciCommand (hciH4CmdPreambleSize + 7) 0x0409 7
      (eventAddress packet ++ uint8ToStream 1))) = 0x0409 :=
    frameOpcode_hciCommand (by simp [eventAddress, maxCmdLen])
  constructor
  · exact ⟨_, by rw [hanswer]; exact List.mem_singleton.mpr rfl, hopcode⟩
  · rintro ⟨frame, hframe, hreject⟩
    rw [hanswer, List.mem_singleton] at hframe
    rw [hframe, hopcode] at hreject
    exact absurd hreject (by decide)

theorem accepted_of_mem_trace {packets : List Packet} {e : Exchange}
    (he : e ∈ trace deliver exchange initial packets) (h : IsEvent hciEvtConnReq e.packet) :
    e.Accepted ∧ ¬ e.Rejected := by
  obtain ⟨first, packet, second, g, rfl, hrun, hmem⟩ := mem_trace.mp he
  obtain rfl := List.mem_singleton.mp hmem
  have hstep : ∀ (g : Globals) packet g', g.connected = 0 → deliver g packet = some g' →
      g'.connected = 0 := by
    intro g packet g' hg hnext
    rw [deliver_connected hnext, hg]
  have hconnected : g.connected = 0 :=
    run_invariant (fun g => g.connected = 0) hstep (show initial.connected = 0 from rfl) hrun
  exact answer_of_request hconnected h

/-- If all requests are accepted, links can be told from the packets. -/
theorem linkUp_iff {log : List Exchange}
    (hall : ∀ e ∈ log, IsEvent hciEvtConnReq e.packet → e.Accepted) :
    LinkUp log ↔ Connected (log.map Exchange.packet) := by
  constructor
  · rintro ⟨before, request, between, complete, after, rfl, hrequest, -, hcomplete, hafter⟩
    refine ⟨before.map Exchange.packet, request.packet, between.map Exchange.packet,
      complete.packet, after.map Exchange.packet, by simp, hrequest, hcomplete, ?_⟩
    intro packet hpacket
    obtain ⟨e, he, rfl⟩ := List.mem_map.mp hpacket
    exact hafter e he
  · rintro ⟨_, _, _, _, _, hsplit, hrequest, hcomplete, hafter⟩
    obtain ⟨before, rest, rfl, rfl, hrest⟩ := List.map_eq_append_iff.mp hsplit
    obtain ⟨request, rest, rfl, rfl, hlater⟩ := List.map_eq_cons_iff.mp hrest
    obtain ⟨between, rest, rfl, rfl, hlast⟩ := List.map_eq_append_iff.mp hlater
    obtain ⟨complete, after, rfl, rfl, rfl⟩ := List.map_eq_cons_iff.mp hlast
    refine ⟨before, request, between, complete, after, rfl, hrequest, hall request (by simp)
      hrequest, hcomplete, ?_⟩
    intro e he
    exact hafter e.packet (List.mem_map_of_mem he)

/-- **One link at a time**, in every run of packets of any kind, if and only if no
connection request arrives while a link is up. -/
theorem one_link_iff {packets : List Packet} {g : Globals}
    (hrun : run deliver initial packets = some g) :
    OneLink (trace deliver exchange initial packets) ↔
      ∀ before request after, packets = before ++ request :: after →
        IsEvent hciEvtConnReq request → ¬ Connected before := by
  have hpackets : (trace deliver exchange initial packets).map Exchange.packet = packets := by
    have hstep : ∀ g packet, (exchange g packet).filterMap (fun e => some e.packet) = [packet] :=
      fun _ _ => rfl
    simpa using filterMap_trace hstep hrun
  have hall : ∀ e ∈ trace deliver exchange initial packets,
      IsEvent hciEvtConnReq e.packet → e.Accepted ∧ ¬ e.Rejected :=
    fun _ he => accepted_of_mem_trace he
  generalize trace deliver exchange initial packets = log at hpackets hall ⊢
  constructor
  · intro h before request after hsplit hrequest hconnected
    rw [hsplit] at hpackets
    obtain ⟨before, rest, rfl, rfl, hrest⟩ := List.map_eq_append_iff.mp hpackets
    obtain ⟨request, after, rfl, rfl, rfl⟩ := List.map_eq_cons_iff.mp hrest
    have hup : LinkUp before :=
      (linkUp_iff fun e he hr => (hall e (by simp [he]) hr).1).mpr hconnected
    exact (h before request after rfl hrequest hup).2 (hall request (by simp) hrequest).1
  · rintro h before request after rfl hrequest hup
    rw [List.map_append, List.map_cons] at hpackets
    refine absurd ?_ (h _ _ _ hpackets.symm hrequest)
    exact (linkUp_iff fun e he hr => (hall e (by simp [he]) hr).1).mp hup

/-- After a disconnection no link is up. -/
theorem not_connected_concat (packets : List Packet) {packet : Packet}
    (h : IsEvent hciEvtDisconnComplete packet) : ¬ Connected (packets ++ [packet]) := by
  rintro ⟨before, request, between, complete, after, hsplit, -, hcomplete, hafter⟩
  have hlast : (complete :: after).getLast? = some packet := by
    rw [← List.getLast?_concat (l := packets), hsplit, ← List.cons_append, ← List.append_assoc,
      List.getLast?_append_cons]
  rcases List.mem_cons.mp (List.mem_of_getLast? hlast) with rfl | hmem
  · exact absurd (hcomplete.1.2.symm.trans h.2) (by decide)
  · exact hafter packet hmem h

/-- A connection request from an address. -/
def connReqPacket (address : List UInt8) : Packet :=
  .ofBytes ([0x04, 0x04, 0x0a] ++ address ++ [0x0c, 0x01, 0x5a, 0x01])

theorem isEvent_connReqPacket (address : List UInt8) :
    IsEvent hciEvtConnReq (connReqPacket address) := ⟨rfl, rfl⟩

/-- A successful Connection Complete. -/
def connCompletePacket (address : List UInt8) : Packet :=
  .ofBytes ([0x04, 0x03, 0x0b, 0x00, 0x01, 0x00] ++ address ++ [0x01, 0x00])

/-- A Disconnection Complete. -/
def disconnCompletePacket : Packet := .ofBytes [0x04, 0x05, 0x04, 0x00, 0x01, 0x00, 0x13]

/-- A second peer asks for a link when the first has gone. -/
def oneByOne : List Packet :=
  [connReqPacket [1, 2, 3, 4, 5, 6], connCompletePacket [1, 2, 3, 4, 5, 6], disconnCompletePacket,
    connReqPacket [6, 5, 4, 3, 2, 1]]

instance (event : UInt8) (packet : Packet) : Decidable (IsEvent event packet) :=
  inferInstanceAs (Decidable (_ ∧ _))

theorem one_link_oneByOne : OneLink (trace deliver exchange initial oneByOne) := by
  apply (one_link_iff (g := initial) rfl).mpr
  intro before request after hsplit hrequest hconnected
  have hlen := congrArg List.length hsplit
  rw [oneByOne] at hsplit
  match before with
  | [] =>
      obtain ⟨_, _, _, _, _, hnone, -⟩ := hconnected
      simp at hnone
  | [_] =>
      obtain ⟨-, rfl, -⟩ : _ ∧ connCompletePacket [1, 2, 3, 4, 5, 6] = request ∧ _ := by
        simpa using hsplit
      exact absurd hrequest (by decide)
  | [_, _] =>
      obtain ⟨-, -, rfl, -⟩ : _ ∧ _ ∧ disconnCompletePacket = request ∧ _ := by simpa using hsplit
      exact absurd hrequest (by decide)
  | [first, second, _] =>
      obtain ⟨-, -, rfl, -⟩ : _ ∧ _ ∧ disconnCompletePacket = _ ∧ _ := by simpa using hsplit
      exact not_connected_concat [first, second] (by decide) hconnected
  | _ :: _ :: _ :: _ :: _ => simp [oneByOne] at hlen

/-- A second peer asks for a link while the first one is up, and is accepted. -/
theorem second_accepted :
    ¬ OneLink (trace deliver exchange initial
      [connReqPacket [1, 2, 3, 4, 5, 6], connCompletePacket [1, 2, 3, 4, 5, 6],
        connReqPacket [6, 5, 4, 3, 2, 1]]) := by
  intro h
  have hanswer := fun address =>
    answer_of_request (g := initial) rfl (isEvent_connReqPacket address)
  have hcomplete : Completes (eventAddress (connReqPacket [1, 2, 3, 4, 5, 6]))
      (connCompletePacket [1, 2, 3, 4, 5, 6]) := ⟨by decide, rfl, rfl⟩
  have hup : LinkUp (exchange initial (connReqPacket [1, 2, 3, 4, 5, 6]) ++
      exchange initial (connCompletePacket [1, 2, 3, 4, 5, 6])) :=
    ⟨[], _, [], _, [], rfl, isEvent_connReqPacket _, (hanswer _).1, hcomplete, nofun⟩
  exact (h _ _ [] rfl (isEvent_connReqPacket _) hup).2 (hanswer _).1

end HydroponicCloset.Links
