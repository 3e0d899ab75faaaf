import HydroponicCloset.Bluetooth.L2cap

/-!
# Reading the frames

The fields of a queued signalling command at their offsets: the channel id, the
code, the identifier, and the first word of the data.  That word is the local
channel id in a Connection Response, the peer's in a Configuration Response, and
the channel that is closed in a Disconnection Response.

`signal_reads` reads any command that `bt_main.c` lays out; a lemma for each
command follows.
-/

namespace HydroponicCloset.Framing

open CMemory Wire Bluetooth

/-- The channel id that a frame is sent on. -/
def frameCid (frame : Frame) : UInt16 := word (frame.getD 10 0) (frame.getD 9 0)

/-- The code of a signalling command. -/
def frameCode (frame : Frame) : UInt8 := frame.getD 11 0

/-- Its identifier. -/
def frameIdentifier (frame : Frame) : UInt8 := frame.getD 12 0

/-- The first word of its data. -/
def frameWord (frame : Frame) : UInt16 := word (frame.getD 16 0) (frame.getD 15 0)

/-- A signalling command with these fields. -/
structure Reads (frame : Frame) (cid : UInt16) (code identifier : UInt8) (first : UInt16) :
    Prop where
  cid_eq : frameCid frame = cid
  code_eq : frameCode frame = code
  identifier_eq : frameIdentifier frame = identifier
  word_eq : frameWord frame = first

theorem signal_reads {packLen code identifier : ℕ} {c i : UInt8}
    {aclFlags aclLen l2capLen sigChannel length first : UInt16} {data : List UInt8}
    (hlen : data.length + 15 ≤ maxCmdLen) (hcode : UInt8.ofNat code = c)
    (hidentifier : UInt8.ofNat identifier = i) (hfirst : data.take 2 = le16 first) :
    Reads (queueFresh (signal packLen aclFlags aclLen l2capLen sigChannel code identifier length
      data)) sigChannel c i first := by
  have hdata : data = le16 first ++ data.drop 2 := by
    rw [← hfirst, List.take_append_drop]
  rw [queueFresh, queuePacket_cleared (by rwa [signal_length]), padded, hdata, ← hcode,
    ← hidentifier, signal, aclHeader]
  simp only [List.append_assoc]
  exact ⟨word_high_low _, rfl, rfl, word_high_low _⟩

variable {g : Globals} {packet : Packet}

theorem ofNat_identifier : UInt8.ofNat packet.identifier.toNat = packet.identifier :=
  UInt8.ofNat_toNat

theorem connRes_reads :
    Reads (connRes g packet) packet.sigChannel 0x03 packet.identifier g.destCid :=
  signal_reads (by simp [maxCmdLen]) rfl ofNat_identifier rfl

theorem connConfReq_reads :
    Reads (connConfReq packet) packet.sigChannel 0x04 (packet.identifier + 1)
      packet.sourceCid := by
  have hnext : UInt8.ofNat (packet.identifier.toNat + 1) = packet.identifier + 1 := by
    rw [UInt8.ofNat_add, ofNat_identifier]
    rfl
  unfold connConfReq
  by_cases hpsm : packet.ObexPsm
  · rw [if_pos hpsm]
    exact signal_reads (by simp [maxCmdLen]) rfl hnext rfl
  · rw [if_neg hpsm]
    exact signal_reads (by simp [maxCmdLen]) rfl hnext rfl

theorem confRes_reads {frame : Frame} (h : frame ∈ confRes g packet) :
    Reads frame packet.sigChannel 0x05 packet.identifier g.srcCid := by
  obtain rfl := List.mem_singleton.mp h
  exact signal_reads (by simp [maxCmdLen]) rfl ofNat_identifier rfl

/-- A Disconnection Response names the channel that the request names. -/
theorem disconnReq_reads {frame : Frame} (h : frame ∈ disconnReq packet) :
    Reads frame packet.sigChannel 0x07 packet.identifier (word (packet 14) (packet 13)) := by
  obtain rfl := List.mem_singleton.mp h
  exact signal_reads (by simp [maxCmdLen]) rfl ofNat_identifier rfl

theorem infoReq_code {frame : Frame} (h : frame ∈ infoReq packet) : frameCode frame = 0x0b := by
  unfold infoReq at h
  split_ifs at h
  · obtain rfl := List.mem_singleton.mp h
    rfl
  · obtain rfl := List.mem_singleton.mp h
    rfl
  · cases h

/-! ## Configuration requests -/

/-- The frame queued for a Configuration Request. -/
def confFrame (g : Globals) (packet : Packet) : Frame :=
  queuePacket (confReq g .cleared packet).2.cmdBuf

theorem confFrame_answered (h : ConfAnswered packet) :
    Reads (confFrame g packet) packet.sigChannel 0x05 packet.identifier g.srcCid := by
  obtain ⟨hmtu, hrest⟩ := h
  by_cases hlen : packet.len < 22
  · simp only [confFrame, confReq, hmtu, hlen, and_self, if_true, List.append_assoc]
    exact signal_reads (by simp [maxCmdLen]) rfl
      ofNat_identifier rfl
  · have hefm : packet 21 = 0x04 := hrest.resolve_left hlen
    simp only [confFrame, confReq, hmtu, hlen, hefm, and_self, and_false, if_true, if_false,
      List.append_assoc]
    exact signal_reads (by simp [maxCmdLen]) rfl
      ofNat_identifier rfl

/-- The answers to the last two cases are requests. -/
theorem confFrame_echoed (h : ConfEchoed packet) :
    Reads (confFrame g packet) packet.sigChannel 0x04 packet.identifier g.srcCid := by
  obtain ⟨hefm, hmode⟩ := h
  by_cases hflow : packet 19 = 0x00
  · simp only [confFrame, confReq, hefm, hflow, and_self, List.append_assoc]
    exact signal_reads (by simp [maxCmdLen]) rfl
      ofNat_identifier rfl
  · have hertm : packet 19 = 0x03 := hmode.resolve_left hflow
    have hne : ¬ (0x03 : UInt8) = 0x00 := by decide
    simp only [confFrame, confReq, hefm, hertm, hne, and_self, and_false, if_true, if_false,
      List.append_assoc]
    exact signal_reads (by simp [maxCmdLen, ertm]) rfl
      ofNat_identifier rfl

/-- Outside the four cases the buffer is queued as it was cleared. -/
theorem confFrame_other (hanswered : ¬ ConfAnswered packet) (hechoed : ¬ ConfEchoed packet) :
    confFrame g packet = List.replicate maxCmdLen 0 := by
  have hbuf : (confReq g .cleared packet).2 = .cleared := by
    unfold confReq
    unfold ConfAnswered at hanswered
    unfold ConfEchoed at hechoed
    rw [if_neg (by tauto), if_neg (by tauto), if_neg (by tauto), if_neg (by tauto)]
  have hcleared : queuePacket (CmdBuf.cleared.stream []).cmdBuf = padded [] :=
    queuePacket_cleared (by simp)
  rw [confFrame, hbuf]
  exact hcleared

/-! ## Commands -/

/-- What the handler of a signalling packet returns, by the command. -/
inductive Answer (g : Globals) (packet : Packet) : Globals × List Frame → Prop
  | infoReq (h : packet.command = l2capCmdInfoReq) : Answer g packet (g, infoReq packet)
  | connReq (h : packet.command = l2capCmdConnReq) : Answer g packet (connReq g packet)
  | confReq (h : packet.command = l2capCmdConfReq) :
      Answer g packet ((confReq g .cleared packet).1, [confFrame g packet])
  | confRes (h : packet.command = l2capCmdConfRes) : Answer g packet (g, confRes g packet)
  | disconnReq (h : packet.command = l2capCmdDisconnReq) :
      Answer g packet (g, disconnReq packet)
  | unknown (h : packet.command ∉ [l2capCmdInfoReq, l2capCmdConnReq, l2capCmdConfReq,
      l2capCmdConfRes, l2capCmdDisconnReq]) : Answer g packet (g, [])

theorem signalling_answer (g : Globals) (packet : Packet) :
    Answer g packet (signalling g packet) := by
  unfold signalling
  split_ifs with hinfo hconn hconf hres hdisconn
  · exact .infoReq hinfo
  · exact .connReq hconn
  · exact .confReq hconf
  · exact .confRes hres
  · exact .disconnReq hdisconn
  · exact .unknown (by simp [hinfo, hconn, hconf, hres, hdisconn])

theorem signalling_connReq (g : Globals) {packet : Packet}
    (h : packet.command = l2capCmdConnReq) : signalling g packet = connReq g packet := by
  unfold signalling
  rw [h]
  rfl

theorem signalling_disconnReq (g : Globals) {packet : Packet}
    (h : packet.command = l2capCmdDisconnReq) : signalling g packet = (g, disconnReq packet) := by
  unfold signalling
  rw [h]
  rfl

theorem signalling_confReq (g : Globals) {packet : Packet}
    (h : packet.command = l2capCmdConfReq) :
    signalling g packet = ((confReq g .cleared packet).1, [confFrame g packet]) := by
  unfold signalling
  rw [h]
  rfl

theorem signalling_confRes (g : Globals) {packet : Packet}
    (h : packet.command = l2capCmdConfRes) : signalling g packet = (g, confRes g packet) := by
  unfold signalling
  rw [h]
  rfl

end HydroponicCloset.Framing
