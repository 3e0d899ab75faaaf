import HydroponicCloset.Channels.Session

/-!
# To which channel of the peer a reply goes

A peer that opens a channel says by which CID the handler must address it.
`bt_main.c` keeps the CID of the latest channel only, in `src_cid`, and every
reply is sent there: `replyCids_eq`.  So a reply goes to the channel it belongs
to exactly when the latest channel was given the same CID
(`reply_to_peer_iff`).

The OBEX replies need an argument of their own, since the header loop may write
several of them into one buffer.  `Addressed` is its invariant.
-/

namespace HydroponicCloset.Channels

open CMemory Wire Runs Bluetooth Obex Framing

/-! ## The channel id in a buffer -/

/-- The channel id that an ACL frame in the buffer is sent on. -/
def bufferCid (b : Buffer) : UInt16 := word (b.bytes 10) (b.bytes 9)

theorem queuePacket_getD (b : Buffer) {k : ℕ} (hk : k < maxCmdLen) :
    (queuePacket b).getD k 0 = b.bytes k := by
  simp [queuePacket, slice, List.getD_eq_getElem?_getD, hk]

theorem frameCid_queuePacket (b : Buffer) : frameCid (queuePacket b) = bufferCid b := by
  rw [frameCid, queuePacket_getD b (by decide), queuePacket_getD b (by decide)]
  rfl

theorem stream_bytes_of_lt (c : CmdBuf) (bytes : List UInt8) {k : ℕ} (hk : k < c.buf) :
    (c.stream bytes).cmdBuf.bytes k = c.cmdBuf.bytes k :=
  c.cmdBuf.write_bytes_of_lt bytes hk

/-- Streaming behind the channel id does not touch it. -/
theorem bufferCid_stream_of_le {c : CmdBuf} (h : 11 ≤ c.buf) (bytes : List UInt8) :
    bufferCid (c.stream bytes).cmdBuf = bufferCid c.cmdBuf := by
  rw [bufferCid, stream_bytes_of_lt c bytes (by omega), stream_bytes_of_lt c bytes (by omega)]
  rfl

/-- Bytes that start with an ACL header for a channel. -/
def HeaderFor (cid : UInt16) (bytes : List UInt8) : Prop :=
  11 ≤ bytes.length ∧ word (bytes.getD 10 0) (bytes.getD 9 0) = cid

theorem headerFor_aclHeader (packLen : ℕ) (aclFlags aclLen l2capLen cid : UInt16)
    (rest : List UInt8) :
    HeaderFor cid (aclHeader packLen aclFlags aclLen l2capLen cid ++ rest) := by
  refine ⟨?_, word_high_low cid⟩
  rw [List.length_append, aclHeader_length]
  omega

/-- A header at the front of a buffer sets the channel id. -/
theorem bufferCid_stream {c : CmdBuf} {cid : UInt16} {bytes : List UInt8} (h : c.buf = 0)
    (hbytes : HeaderFor cid bytes) : bufferCid (c.stream bytes).cmdBuf = cid := by
  obtain ⟨hlen, hcid⟩ := hbytes
  rw [bufferCid, CmdBuf.stream, h]
  simp only [Buffer.write_zero_bytes]
  have hget : ∀ k, k < bytes.length → ∀ d, (bytes[k]?).getD d = bytes.getD k 0 := by
    intro k hk d
    rw [List.getD_eq_getElem?_getD, List.getElem?_eq_getElem hk, Option.getD_some,
      Option.getD_some]
  rw [hget 10 (by omega), hget 9 (by omega), hcid]

/-- A reply is streamed to the front of a buffer, or behind one that is there
already. -/
theorem bufferCid_streamFcs {c : CmdBuf} {cid : UInt16} {bytes : List UInt8}
    (h : c.buf = 0 ∨ 11 ≤ c.buf ∧ bufferCid c.cmdBuf = cid) (hbytes : HeaderFor cid bytes) (n : ℕ) :
    11 ≤ (c.streamFcs bytes n).buf ∧ bufferCid (c.streamFcs bytes n).cmdBuf = cid := by
  have hlen : 11 ≤ (c.stream bytes).buf := Nat.le_add_left_of_le hbytes.1
  refine ⟨Nat.le_add_right_of_le hlen, ?_⟩
  calc bufferCid (c.streamFcs bytes n).cmdBuf = bufferCid (c.stream bytes).cmdBuf := by
        rw [CmdBuf.streamFcs, bufferCid_stream_of_le hlen]
    _ = cid := by
        rcases h with hfresh | ⟨hsent, hcid⟩
        · exact bufferCid_stream hfresh hbytes
        · rw [bufferCid_stream_of_le hsent, hcid]

/-! ## The OBEX replies -/

/-- The header loop keeps `src_cid`, and once it has a reply to send the buffer
carries it as the channel id. -/
structure Addressed (cid : UInt16) (s : PutState) : Prop where
  srcCid : s.globals.srcCid = cid
  fresh : s.send = false → s.cmd.buf = 0
  sent : s.send = true → 11 ≤ s.cmd.buf ∧ bufferCid s.cmd.cmdBuf = cid

theorem addressed_reply {cid : UInt16} {s : PutState} (h : Addressed cid s) (packet : Packet)
    {header : Header} (hreplies : header.replies = true) :
    11 ≤ (header.reply s.globals packet s.cmd).buf ∧
      bufferCid (header.reply s.globals packet s.cmd).cmdBuf = cid := by
  have hbuf : s.cmd.buf = 0 ∨ 11 ≤ s.cmd.buf ∧ bufferCid s.cmd.cmdBuf = s.globals.srcCid := by
    rw [h.srcCid]
    cases hsend : s.send with
    | false => exact Or.inl (h.fresh hsend)
    | true => exact Or.inr (h.sent hsend)
  rw [← h.srcCid]
  cases header with
  | srm mode =>
      simp only [Header.reply, srmReply, List.append_assoc]
      exact bufferCid_streamFcs hbuf (headerFor_aclHeader ..) _
  | endOfBody chunk =>
      simp only [Header.reply, endOfBodyReply, List.append_assoc]
      exact bufferCid_streamFcs hbuf (headerFor_aclHeader ..) _
  | _ => cases hreplies

/-- One header keeps it. -/
theorem addressed_putHeader {cid : UInt16} {s : PutState} (h : Addressed cid s)
    (packet : Packet) : Addressed cid (putHeader packet s) := by
  rw [putHeader_eq]
  cases headerAt packet s.i with
  | none => exact h
  | some found =>
      rw [Option.elim_some]
      have hsrc : (found.1.store s.globals).srcCid = cid :=
        (store_cids found.1 s.globals).2.1.trans h.srcCid
      cases hreplies : found.1.replies with
      | true =>
          have hsend : (found.1.step packet s found.2).send = true := by
            rw [Header.step, hreplies, Bool.or_true]
          refine ⟨hsrc, fun hfresh => ?_, fun _ => addressed_reply h packet hreplies⟩
          rw [hsend] at hfresh
          cases hfresh
      | false =>
          -- no reply: the buffer and `send` stay as they were
          have hcmd : (found.1.step packet s found.2).cmd = s.cmd :=
            Header.reply_of_not_replies hreplies ..
          have hsend : (found.1.step packet s found.2).send = s.send := by
            rw [Header.step, hreplies, Bool.or_false]
          refine ⟨hsrc, ?_, ?_⟩
          · rw [hcmd, hsend]
            exact h.fresh
          · rw [hcmd, hsend]
            exact h.sent

/-- The loop keeps it. -/
theorem addressed_putLoop {cid : UInt16} {packet : Packet} {fuel : ℕ} {s s' : PutState}
    (h : Addressed cid s) (hloop : putLoop packet fuel s = some s') : Addressed cid s' :=
  putLoop_invariant (Addressed cid) (fun _ h => addressed_putHeader h packet) h hloop

/-- **Every frame that `obex_ftp` queues** goes to `src_cid`. -/
theorem obexFtp_cid (g : Globals) (packet : Packet) :
    ∀ frame ∈ (obexFtp g packet).queued, frameCid frame = g.srcCid := by
  have hacks : ∀ frame ∈ ackFrames g packet, frameCid frame = g.srcCid := by
    intro frame hframe
    unfold ackFrames at hframe
    split_ifs at hframe
    · rw [List.mem_singleton.mp hframe, frameCid_queuePacket]
      simp only [recievedAck, List.append_assoc]
      exact (bufferCid_streamFcs (Or.inl rfl) (headerFor_aclHeader ..) _).2
    · cases hframe
  have hstart : Addressed g.srcCid (putStart g packet) :=
    ⟨rfl, fun _ => ackBuffer_buf g packet, nofun⟩
  intro frame hframe
  unfold obexFtp at hframe
  dsimp only at hframe
  split_ifs at hframe
  · rcases List.mem_append.mp hframe with hack | hreply
    · exact hacks frame hack
    · rw [List.mem_singleton.mp hreply, frameCid_queuePacket]
      simp only [connectReply, List.append_assoc]
      exact (bufferCid_streamFcs (Or.inl (ackBuffer_buf g packet)) (headerFor_aclHeader ..) _).2
  · cases hloop : putLoop packet packet.len.toNat (putStart g packet) with
    | none =>
        rw [hloop] at hframe
        exact hacks frame hframe
    | some s =>
        rw [hloop] at hframe
        rcases List.mem_append.mp hframe with hack | hreply
        · exact hacks frame hack
        · cases hsend : s.send with
          | false => simp [hsend] at hreply
          | true =>
              rw [hsend, if_pos rfl, List.mem_singleton] at hreply
              rw [hreply, frameCid_queuePacket]
              exact ((addressed_putLoop hstart hloop).sent hsend).2
  · exact hacks frame hframe
  · exact hacks frame hframe

/-! ## Replies -/

/-- The SDP responses go to `src_cid` as well. -/
theorem sdp_cid (g : Globals) (packet : Packet) :
    ∀ frame ∈ sdp g packet, frameCid frame = g.srcCid := by
  have hresponse : ∀ bytes, HeaderFor g.srcCid bytes → frameCid (queueFresh bytes) = g.srcCid := by
    intro bytes hbytes
    rw [queueFresh, frameCid_queuePacket]
    exact bufferCid_stream rfl hbytes
  unfold sdp
  split_ifs
  · simp only [List.mem_singleton, forall_eq, attRes, List.append_assoc]
    exact hresponse _ (headerFor_aclHeader ..)
  · simp only [List.mem_singleton, forall_eq, attRes, List.append_assoc]
    exact hresponse _ (headerFor_aclHeader ..)
  · simp
  · simp

/-- The channel that a packet addresses: a Configuration Request names it. -/
def addressedCid (packet : Packet) : UInt16 :=
  if packet.sigChannel = 0x01 then destinationCid packet else packet.sigChannel

/-- The CIDs of the peer in the replies to a packet: the source CID of a
Configuration Response to a Configuration Request, and the channel id of a reply
to an SDP or OBEX packet. -/
def replyCids (g : Globals) (packet : Packet) : List UInt16 :=
  let queued := (l2capCmdHandler g packet).queued
  if packet.sigChannel = 0x01 then
    if packet.command = l2capCmdConfReq then
      (queued.filter fun frame => frameCode frame = 0x05).map frameWord
    else []
  else queued.map frameCid

/-- **Every reply** goes to `src_cid`. -/
theorem replyCids_eq (g : Globals) (packet : Packet) :
    ∀ cid ∈ replyCids g packet, cid = g.srcCid := by
  unfold replyCids
  by_cases hsig : packet.sigChannel = 0x01
  · rw [if_pos hsig]
    by_cases hconf : packet.command = l2capCmdConfReq
    · have hqueued : (l2capCmdHandler g packet).queued = [confFrame g packet] := by
        rw [l2capCmdHandler_signalling g hsig, signalling_confReq g hconf]
      rw [if_pos hconf, hqueued]
      intro cid hcid
      obtain ⟨frame, hframe, rfl⟩ := List.mem_map.mp hcid
      obtain ⟨hmem, hcode⟩ := List.mem_filter.mp hframe
      rw [List.mem_singleton.mp hmem] at hcode ⊢
      by_cases hanswered : ConfAnswered packet
      · exact (confFrame_answered hanswered).word_eq
      exfalso
      by_cases hechoed : ConfEchoed packet
      · rw [(confFrame_echoed hechoed).code_eq] at hcode
        exact absurd hcode (by decide)
      · rw [confFrame_other hanswered hechoed] at hcode
        exact absurd hcode (by decide)
    · rw [if_neg hconf]
      simp
  · rw [if_neg hsig]
    intro cid hcid
    obtain ⟨frame, hframe, rfl⟩ := List.mem_map.mp hcid
    rw [l2capCmdHandler, multiplex, if_neg hsig] at hframe
    split_ifs at hframe
    · exact obexFtp_cid g packet frame hframe
    · exact sdp_cid g packet frame hframe

/-- The packet addresses this open channel. -/
def Addresses (s : Session) (packet : Packet) (c : Channel) : Prop :=
  c ∈ s.opened ∧ c.localCid = addressedCid packet

/-- **A reply goes to the channel of the peer** that the packet addresses exactly
when the peer gave the latest channel the same CID. -/
theorem reply_to_peer_iff {packets : List Packet} {s : Session}
    (hrun : run Session.step .start packets = some s) {packet : Packet} {c : Channel}
    (haddresses : Addresses s packet c) {cid : UInt16}
    (hreply : cid ∈ replyCids s.globals packet) :
    cid = c.peerCid ↔ s.accepted.head?.map Channel.peerCid = some c.peerCid := by
  have hinv := Session.inv_run hrun
  rw [replyCids_eq s.globals packet cid hreply, hinv.srcCid]
  cases haccepted : s.accepted with
  | nil =>
      have hmem := hinv.opened c haddresses.1
      rw [haccepted] at hmem
      cases hmem
  | cons latest rest => simp

/-- Two channels, and an SDP request on the second: the reply goes to the second. -/
theorem reply_to_peer_second :
    ∃ s, run Session.step .start [connectPacket 0x1009 0x40, connectPacket 0x0001 0x50] = some s ∧
      ((0x50 : UInt16) = 0x50 ↔ s.accepted.head?.map Channel.peerCid = some 0x50) := by
  have hsession : (run Session.step .start
      [connectPacket 0x1009 0x40, connectPacket 0x0001 0x50]).map (fun s =>
        (decide (⟨0x42, 0x50, false⟩ ∈ s.opened), replyCids s.globals (attributePacket 0x42))) =
          some (true, [0x50]) := by decide
  obtain ⟨s, hs, hpair⟩ := Option.map_eq_some_iff.mp hsession
  obtain ⟨hopened, hreplies⟩ := Prod.mk.inj hpair
  have haddresses : Addresses s (attributePacket 0x42) ⟨0x42, 0x50, false⟩ :=
    ⟨of_decide_eq_true hopened, by decide⟩
  exact ⟨s, hs, reply_to_peer_iff hs haddresses (by rw [hreplies]; exact List.mem_cons_self ..)⟩

/-- Two channels, and an SDP request on the first: the reply goes to the second. -/
theorem reply_to_wrong_peer :
    ∃ s, run Session.step .start [connectPacket 0x0001 0x40, connectPacket 0x1009 0x50] = some s ∧
      Addresses s (attributePacket 0x41) ⟨0x41, 0x40, false⟩ ∧
      0x50 ∈ replyCids s.globals (attributePacket 0x41) := by
  have hsession : (run Session.step .start
      [connectPacket 0x0001 0x40, connectPacket 0x1009 0x50]).map (fun s =>
        (decide (⟨0x41, 0x40, false⟩ ∈ s.opened), replyCids s.globals (attributePacket 0x41))) =
          some (true, [0x50]) := by decide
  obtain ⟨s, hs, hpair⟩ := Option.map_eq_some_iff.mp hsession
  obtain ⟨hopened, hreplies⟩ := Prod.mk.inj hpair
  refine ⟨s, hs, ⟨of_decide_eq_true hopened, by decide⟩, ?_⟩
  rw [hreplies]
  exact List.mem_cons_self ..

end HydroponicCloset.Channels
