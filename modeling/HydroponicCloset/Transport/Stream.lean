import HydroponicCloset.Lib.Delimited
import HydroponicCloset.Obex.Sequence
import HydroponicCloset.Transport.Delivery

/-!
# What the controller is given

The controller takes H4 packets: a type byte and a header that says how many bytes
follow.  `send` calls `esp_vhci_host_send_packet` with the length that the handlers have
put in front of each packet, and the header inside is for the controller to check.

`stream_decodes` says that the two always agree: whatever the packets that are received,
and in whatever order the tasks run, each call passes exactly one H4 packet, or no byte
at all.  So the calls could be joined to one stream, and the controller would find the
packets again.
-/

namespace HydroponicCloset.Transport

open CMemory Wire Runs Bluetooth Framing

/-! ## H4 packets -/

/-- The two types of packets that a host sends. -/
inductive H4
  | command (opcode : UInt16) (params : {bytes : List UInt8 // bytes.length < 256})
  | acl (flags : UInt16) (payload : {bytes : List UInt8 // bytes.length < 65536})

namespace H4

/-- The type, the header with its length field, and the rest. -/
def encode : H4 → List UInt8
  | .command opcode params =>
      0x01 :: (le16 opcode ++ UInt8.ofNat params.1.length :: params.1)
  | .acl flags payload =>
      0x02 :: (le16 flags ++ le16 (UInt16.ofNat payload.1.length) ++ payload.1)

/-- The packet at the front of some bytes, and the bytes behind it. -/
def decode : List UInt8 → Option (H4 × List UInt8)
  | 0x01 :: lo :: hi :: len :: rest =>
      if len.toNat ≤ rest.length then
        some (.command (word hi lo) ⟨rest.take len.toNat, by
          rw [List.length_take]
          exact (Nat.min_le_left _ _).trans_lt len.toNat_lt⟩, rest.drop len.toNat)
      else none
  | 0x02 :: lo :: hi :: lenLo :: lenHi :: rest =>
      if (word lenHi lenLo).toNat ≤ rest.length then
        some (.acl (word hi lo) ⟨rest.take (word lenHi lenLo).toNat, by
          rw [List.length_take]
          exact (Nat.min_le_left _ _).trans_lt (word lenHi lenLo).toNat_lt⟩,
          rest.drop (word lenHi lenLo).toNat)
      else none
  | _ => none

theorem decode_encode (p : H4) (rest : List UInt8) :
    decode (p.encode ++ rest) = some (p, rest) := by
  cases p with
  | command opcode params =>
      obtain ⟨bytes, hbytes⟩ := params
      have hlen : (UInt8.ofNat bytes.length).toNat = bytes.length := by
        rw [UInt8.toNat_ofNat']
        omega
      show decode (0x01 :: opcode.toUInt8 :: (opcode >>> 8).toUInt8 ::
        UInt8.ofNat bytes.length :: (bytes ++ rest)) = _
      simp [decode, hlen]
  | acl flags payload =>
      obtain ⟨bytes, hbytes⟩ := payload
      have hdecode : ∀ len : UInt16, len.toNat = bytes.length →
          decode (0x02 :: flags.toUInt8 :: (flags >>> 8).toUInt8 :: len.toUInt8 ::
            (len >>> 8).toUInt8 :: (bytes ++ rest)) = some (.acl flags ⟨bytes, hbytes⟩, rest) := by
        intro len hlen
        simp [decode, hlen]
      apply hdecode
      rw [UInt16.toNat_ofNat']
      exact Nat.mod_eq_of_lt hbytes

/-- The packet is an HCI command. -/
def isCommand : H4 → Bool
  | .command _ _ => true
  | .acl _ _ => false

/-- The format of a stream of packets. -/
def format : Delimited.Format H4 UInt8 where
  encode := encode
  decode := decode
  encode_ne_nil := fun p => by cases p <;> exact List.cons_ne_nil _ _
  decode_encode := decode_encode

end H4

/-! ## The packets of the queue -/

/-- A packet of which `send` passes a whole H4 packet of this type, or nothing. -/
def Whole (command : Bool) (packet : Frame) : Prop :=
  vhciPacket packet = [] ∨ ∃ p : H4, p.isCommand = command ∧ vhciPacket packet = p.encode

/-- A length, that many bytes, and whatever else is in the buffer. -/
theorem vhciPacket_eq {n : UInt16} {bytes rest : List UInt8} (h : n.toNat = bytes.length) :
    vhciPacket (be16 n ++ bytes ++ rest) = bytes := by
  have hlen : (n >>> 8).toUInt8.toNat * 256 + n.toUInt8.toNat = bytes.length := by
    rw [high_toNat, low_toNat, ← h]
    omega
  show (bytes ++ rest).take ((n >>> 8).toUInt8.toNat * 256 + n.toUInt8.toNat) = bytes
  rw [hlen, List.take_left]

theorem encode_of_hciCommand {bytes : List UInt8} (h : HciCommand bytes) :
    ∃ p : H4, p.isCommand = true ∧ bytes = p.encode := by
  obtain ⟨opcode, paramLen, params, rfl, hlen⟩ := h
  have hlt : params.length < 256 := hlen ▸ paramLen.toNat_lt
  have hparamLen : UInt8.ofNat params.length = paramLen := by rw [← hlen, UInt8.ofNat_toNat]
  refine ⟨.command opcode ⟨params, hlt⟩, rfl, ?_⟩
  rw [H4.encode, hparamLen]

theorem encode_of_aclPacket {pdu bytes : List UInt8} (h : AclPacket pdu bytes) :
    ∃ p : H4, p.isCommand = false ∧ bytes = p.encode := by
  obtain ⟨aclFlags, aclLen, l2capLen, cid, rfl, hacl, -⟩ := h
  have hlen : (le16 l2capLen ++ le16 cid ++ pdu).length = aclLen.toNat := by
    rw [hacl]
    simp
    omega
  have hlt : (le16 l2capLen ++ le16 cid ++ pdu).length < 65536 := hlen ▸ aclLen.toNat_lt
  have haclLen : UInt16.ofNat (le16 l2capLen ++ le16 cid ++ pdu).length = aclLen := by
    rw [hlen, UInt16.ofNat_toNat]
  refine ⟨.acl aclFlags ⟨le16 l2capLen ++ le16 cid ++ pdu, hlt⟩, rfl, ?_⟩
  rw [H4.encode, haclLen]
  simp

/-- What answers an event is a command. -/
def answersEvent : Answered → Bool
  | .hci => true
  | _ => false

theorem whole_of_wellFramed {answered : Answered} {packet : Frame}
    (h : WellFramed answered packet) : Whole (answersEvent answered) packet := by
  obtain ⟨n, bytes, rest, rfl, hn, -, -, hpayload⟩ := h
  rw [Whole, vhciPacket_eq hn]
  right
  cases answered with
  | hci => exact encode_of_hciCommand hpayload
  | signalling identifier =>
      obtain ⟨pdu, hacl, -⟩ := hpayload
      exact encode_of_aclPacket hacl
  | sdp =>
      obtain ⟨pdu, hacl, -⟩ := hpayload
      exact encode_of_aclPacket hacl

/-- The identifier may have wrapped around. -/
theorem whole_connConfReq (packet : Packet) : Whole false (connConfReq packet) := by
  have hframed : WellFramed (.signalling 0) (connConfReq packet) := by
    unfold connConfReq
    by_cases hpsm : packet.ObexPsm
    · rw [if_pos hpsm]
      exact signal_wellFramed (by simp) rfl (by decide) rfl rfl rfl
        ⟨fun _ => ⟨by simp, Options.single rfl⟩, by simp⟩ fun h => absurd rfl h
    · rw [if_neg hpsm]
      exact signal_wellFramed (by simp) rfl (by decide) rfl rfl rfl
        ⟨fun _ => ⟨by simp, Options.single rfl⟩, by simp⟩ fun h => absurd rfl h
  exact whole_of_wellFramed hframed

theorem whole_confFrame (g : Globals) (packet : Packet) : Whole false (confFrame g packet) := by
  by_cases h : ConfAnswered packet ∨ ConfEchoed packet
  · exact whole_of_wellFramed (confFrame_wellFramed_iff.mpr h)
  · rw [not_or] at h
    rw [confFrame_other h.1 h.2]
    exact Or.inl rfl

theorem whole_signalling (g : Globals) (packet : Packet) :
    ∀ frame ∈ (signalling g packet).2, Whole false frame := by
  have hanswer := signalling_answer g packet
  generalize signalling g packet = answer at hanswer ⊢
  cases hanswer with
  | infoReq => exact fun frame h => whole_of_wellFramed (infoReq_wellFramed frame h)
  | connReq =>
      simp only [connReq, List.forall_mem_cons, List.not_mem_nil, false_imp_iff, implies_true,
        and_true]
      exact ⟨whole_of_wellFramed connRes_wellFramed, whole_connConfReq packet⟩
  | confReq => exact fun frame h => List.mem_singleton.mp h ▸ whole_confFrame g packet
  | confRes => exact fun frame h => whole_of_wellFramed (confRes_wellFramed frame h)
  | disconnReq => exact fun frame h => whole_of_wellFramed (disconnReq_wellFramed frame h)
  | unknown => simp

/-- A reply of `obex_ftp` is an ACL packet. -/
theorem whole_reply {g : Globals} {packet : Packet} {r : Obex.Reply} {frame : Frame}
    (h : r.frame g packet <+: frame) : Whole false frame := by
  obtain ⟨rest, rfl⟩ := h
  have hrange : (r.pdu g packet).length ≤ 14 := by
    rw [Obex.Reply.pdu_length]
    cases r <;> decide
  let fcs := le16 (crc16 0 ((r.layout g packet).drop 7))
  have hfcs : fcs.length = 2 := le16_length _
  have hsplit : r.frame g packet ++ rest =
      be16 (UInt16.ofNat ((r.pdu g packet).length + 11)) ++
        (0x02 :: (le16 packet.aclFlags ++ le16 (UInt16.ofNat ((r.pdu g packet).length + 6)) ++
          le16 (UInt16.ofNat ((r.pdu g packet).length + 2)) ++ le16 g.srcCid ++
          (r.pdu g packet ++ fcs))) ++ rest := by
    rw [← uint8ToStream_be16 (by omega)]
    simp [Obex.Reply.frame, Obex.Reply.layout, aclHeader, uint8ToStream, uint16ToStream,
      h4TypeAcl, fcs]
  rw [Whole, hsplit, vhciPacket_eq]
  · right
    refine encode_of_aclPacket ⟨_, _, _, _, rfl, ?_, ?_⟩
    · rw [UInt16.toNat_ofNat', List.length_append, hfcs]
      omega
    · rw [UInt16.toNat_ofNat', List.length_append, hfcs]
      omega
  · rw [UInt16.toNat_ofNat']
    simp [hfcs]
    omega

/-- **Every packet that a handler queues** is passed on whole: commands answer events, and
ACL packets answer ACL packets. -/
theorem whole_queued (g : Globals) (packet : Packet) :
    ∀ frame ∈ (hostRcvPkt g packet).queued, Whole (packet 0 = 0x04) frame := by
  unfold hostRcvPkt
  split_ifs with hevent
  · rw [decide_eq_true hevent]
    exact fun frame h => whole_of_wellFramed (hciEventHandler_wellFramed g packet frame h)
  · rw [decide_eq_false hevent]
    unfold l2capCmdHandler
    split
    · exact whole_signalling g packet
    · intro frame hframe
      obtain ⟨r, -, hprefix⟩ := Lists.exists_of_forall₂ (Obex.obexFtp_frames g packet) hframe
      exact whole_reply hprefix
    · exact fun frame h => whole_of_wellFramed (sdp_wellFramed g packet frame h)
  · simp

/-! ## The stream -/

variable {s : Host} {turns : List Turn}

/-- An entry of the queue that is sent was queued by a handler. -/
theorem whole_sent (hrun : run Host.step .start turns = some s) :
    ∀ e ∈ trace Host.step Host.sent .start turns, ∃ command, Whole command e.2 := by
  have hreplies := sent_hostRcvPkt hrun
  have hcommands := sent_btAdvtTask hrun
  rintro ⟨caller, frame⟩ he
  have hmem : frame ∈ Fifo.ofWriter caller (trace Host.step Host.sent .start turns) :=
    List.mem_filterMap.mpr ⟨(caller, frame), he, by simp⟩
  cases caller with
  | hostRcvPkt =>
      have hqueued : frame ∈ replies (received turns) := by
        rw [← hreplies]
        exact List.mem_append_left _ hmem
      obtain ⟨_, packet, _, g, _, _, hframe⟩ := mem_trace.mp hqueued
      exact ⟨_, whole_queued g packet frame hframe⟩
  | btAdvtTask =>
      have hqueued : frame ∈ commands (passes turns) := by
        rw [← hcommands]
        exact List.mem_append_left _ hmem
      obtain ⟨_, sendAvail, _, task, _, _, hframe⟩ := mem_trace.mp hqueued
      exact ⟨_, whole_of_wellFramed (btAdvtTask_wellFramed task sendAvail frame hframe)⟩

/-- What `esp_vhci_host_send_packet` is called with in a run. -/
def given (turns : List Turn) : List (List UInt8) :=
  (trace Host.step Host.sent .start turns).map fun e => vhciPacket e.2

/-- Whole packets, and nothing else, are the texts of a sequence of H4 packets. -/
theorem exists_packets {calls : List (List UInt8)}
    (h : ∀ bytes ∈ calls, bytes = [] ∨ ∃ p : H4, bytes = p.encode) :
    ∃ packets : List H4, calls.flatten = packets.flatMap H4.encode ∧
      packets.map H4.encode = calls.filter fun bytes => bytes ≠ [] := by
  induction calls with
  | nil => exact ⟨[], rfl, rfl⟩
  | cons bytes rest ih =>
      obtain ⟨hbytes, hrest⟩ := List.forall_mem_cons.mp h
      obtain ⟨packets, hflatten, hmap⟩ := ih hrest
      rcases hbytes with rfl | ⟨p, rfl⟩
      · exact ⟨packets, hflatten, by simpa using hmap⟩
      · have hne : p.encode ≠ [] := H4.format.encode_ne_nil p
        refine ⟨p :: packets, ?_, ?_⟩
        · rw [List.flatten_cons, List.flatMap_cons, hflatten]
        · rw [List.map_cons, hmap, List.filter_cons_of_pos (by simpa using hne)]

/-- **The stream to the controller** decodes to one H4 packet for each call of
`esp_vhci_host_send_packet` that passes any bytes. -/
theorem stream_decodes (hrun : run Host.step .start turns = some s) :
    ∃ packets : List H4, H4.format.decodeAll (given turns).flatten = some packets ∧
      packets.map H4.encode = (given turns).filter fun bytes => bytes ≠ [] := by
  have hwhole : ∀ bytes ∈ given turns, bytes = [] ∨ ∃ p : H4, bytes = p.encode := by
    intro bytes hbytes
    obtain ⟨e, he, rfl⟩ := List.mem_map.mp hbytes
    obtain ⟨command, hwhole⟩ := whole_sent hrun e he
    exact hwhole.imp_right fun ⟨p, _, hp⟩ => ⟨p, hp⟩
  obtain ⟨packets, hflatten, hmap⟩ := exists_packets hwhole
  refine ⟨packets, ?_, hmap⟩
  rw [hflatten]
  exact Delimited.Format.decodeAll_flatMap packets

theorem stream_decodes_exchange :
    ∃ packets : List H4, H4.format.decodeAll (given exchange).flatten = some packets ∧
      packets.map H4.encode = (given exchange).filter fun bytes => bytes ≠ [] :=
  stream_decodes rfl

end HydroponicCloset.Transport
