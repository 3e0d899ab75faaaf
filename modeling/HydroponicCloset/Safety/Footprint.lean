import HydroponicCloset.Safety.Reads

/-!
# The lists are complete

What `host_rcv_pkt` does depends on the listed bytes and on `len` alone
(`hostRcvPkt_congr`).  So if the reads of a call stay inside the packet, what lies behind
it in memory makes no difference (`hostRcvPkt_confined`).
-/

namespace HydroponicCloset.Safety

open CMemory Wire Bluetooth Obex

variable {packet packet' : Packet} {g : Globals}

/-! ## Events and signalling -/

theorem hciEventHandler_congr (h : ∀ k ∈ hciEventReads packet, packet' k = packet k) :
    hciEventHandler g packet' = hciEventHandler g packet := by
  have hevent : packet' 1 = packet 1 := h 1 (List.mem_cons_self ..)
  have haddress : packet 1 = hciEvtConnReq ∨ packet 1 = hciEvtPinCodeReq →
      eventAddress packet' = eventAddress packet := by
    intro hread
    rw [hciEventReads, if_pos hread] at h
    unfold eventAddress
    rw [← map_forRange_one, ← map_forRange_one]
    exact List.map_congr_left fun k hk => h k (List.mem_cons_of_mem _ hk)
  unfold hciEventHandler
  rw [hevent]
  split_ifs with hconn hconnected hpin
  · rw [haddress (Or.inl hconn)]
  · rw [haddress (Or.inl hconn)]
  · rw [haddress (Or.inr hpin)]
  · rfl

theorem confReq_congr (hlen : packet'.len = packet.len)
    (h : ∀ k ∈ confReqReads packet, packet' k = packet k) (buf : CmdBuf) :
    confReq g buf packet' = confReq g buf packet := by
  by_cases hmtu : packet 17 = 0x01
  · by_cases hshort : packet.len < 22
    · simp [confReqReads, confCopied, hmtu, hshort] at h
      simp [confReq, Packet.aclFlags, Packet.sigChannel, hlen, hmtu, hshort, h]
    · by_cases hefm : packet 21 = 0x04
      · simp [confReqReads, confCopied, hmtu, hshort, hefm] at h
        simp [confReq, Packet.aclFlags, Packet.sigChannel, hlen, hmtu, hshort, hefm, h]
      · simp [confReqReads, hmtu, hshort, hefm] at h
        simp [confReq, hlen, hmtu, hshort, hefm, h]
  · by_cases hefm : packet 17 = 0x04
    · by_cases hmode : packet 19 = 0x00 ∨ packet 19 = 0x03
      · simp [confReqReads, confCopied, hefm, hmode] at h
        simp [confReq, Packet.aclFlags, Packet.sigChannel, hefm, h]
      · obtain ⟨hflow, hretransmission⟩ := not_or.mp hmode
        simp [confReqReads, hefm, hflow, hretransmission] at h
        simp [confReq, hefm, hflow, hretransmission, h]
    · simp [confReqReads, hmtu, hefm] at h
      simp [confReq, hmtu, hefm, h]

/-- What `l2cap_cmd_handler` reads of every packet. -/
structure SameStart (packet packet' : Packet) : Prop where
  aclFlags : packet'.aclFlags = packet.aclFlags
  sigChannel : packet'.sigChannel = packet.sigChannel
  command : packet'.command = packet.command

theorem signalling_congr (hlen : packet'.len = packet.len) (hstart : SameStart packet packet')
    (h : ∀ k ∈ signallingReads packet, packet' k = packet k) :
    signalling g packet' = signalling g packet := by
  obtain ⟨hidentifier, h⟩ := List.forall_mem_cons.mp h
  have hidentifier : packet'.identifier = packet.identifier := hidentifier
  unfold signalling
  rw [hstart.command]
  split_ifs with hinfo hconn hconf hres hdisconn
  · rw [if_pos hinfo] at h
    have htype : packet' 13 = packet 13 := h 13 (List.mem_singleton.mpr rfl)
    simp only [infoReq, hstart.aclFlags, hstart.sigChannel, hidentifier, htype]
  · rw [if_neg hinfo, if_pos hconn] at h
    obtain ⟨hfixed, h14⟩ := List.forall_mem_append.mp h
    have hsource : packet'.sourceCid = packet.sourceCid := by
      unfold Packet.sourceCid
      rw [hfixed 16 (by simp), hfixed 15 (by simp)]
    have hpsm : packet'.ObexPsm ↔ packet.ObexPsm := by
      unfold Packet.ObexPsm
      rw [hfixed 13 (by simp)]
      -- byte 14 is only read if byte 13 is that of the PSM
      refine and_congr_right fun hlow => ?_
      rw [if_pos hlow] at h14
      rw [h14 14 (List.mem_singleton.mpr rfl)]
    simp only [connReq, connRes, connConfReq, hstart.aclFlags, hstart.sigChannel, hidentifier,
      hpsm, hsource]
  · rw [if_neg hinfo, if_neg hconn, if_pos hconf] at h
    rw [confReq_congr hlen h]
  · simp only [confRes, hstart.aclFlags, hstart.sigChannel, hidentifier]
  · rw [if_neg hinfo, if_neg hconn, if_neg hconf, if_neg hres, if_pos hdisconn] at h
    simp only [disconnReq, hstart.aclFlags, hstart.sigChannel, hidentifier, h 14 (by simp),
      h 13 (by simp), h 16 (by simp), h 15 (by simp)]
  · rfl

/-! ## Service discovery -/

/-- The second byte of a service is only read if the first is right. -/
theorem service_congr {first : UInt8} (second : UInt8) (hfirst : packet' 17 = packet 17)
    (hsecond : packet 17 = first → packet' 18 = packet 18) :
    (packet' 17 = first ∧ packet' 18 = second) ↔ (packet 17 = first ∧ packet 18 = second) := by
  rw [hfirst]
  exact and_congr_right fun h => by rw [hsecond h]

theorem sdp_congr (hstart : SameStart packet packet')
    (h : ∀ k ∈ sdpReads packet, packet' k = packet k) : sdp g packet' = sdp g packet := by
  by_cases hreq : packet.command = sdpAttReq
  · rw [sdpReads, if_pos hreq] at h
    obtain ⟨hservice, hfound⟩ := List.forall_mem_append.mp h
    obtain ⟨h17, h18⟩ := List.forall_mem_cons.mp hservice
    have h18 : SdpService packet → packet' 18 = packet 18 := by
      intro hs
      rw [if_pos hs] at h18
      exact h18 18 (List.mem_singleton.mpr rfl)
    have hres : SdpFound packet → attRes g packet' = attRes g packet := by
      intro hf
      rw [if_pos hf] at hfound
      funext
      simp only [attRes, hstart.aclFlags, hfound 11 (by simp), hfound 10 (by simp)]
    have hobex := service_congr 0x00 h17 fun h => h18 (Or.inl h)
    have hpush := service_congr 0x05 h17 fun h => h18 (Or.inr (Or.inl h))
    have hpnp := service_congr 0x00 h17 fun h => h18 (Or.inr (Or.inr h))
    simp only [sdp, hstart.command, if_pos hreq, hobex, hpush, hpnp]
    split_ifs with hfirst hsecond
    · rw [hres (or_assoc.mp (Or.inl hfirst))]
    · rw [hres (Or.inr (Or.inr hsecond))]
    · rfl
  · simp only [sdp, hstart.command, if_neg hreq]

/-! ## OBEX -/

/-- The fields that `obex_ftp` takes from the start of the packet. -/
structure SameFrame (packet packet' : Packet) : Prop where
  aclFlags : packet'.aclFlags = packet.aclFlags
  frameType : packet'.frameType = packet.frameType
  obexCommand : packet'.obexCommand = packet.obexCommand
  obexReqseq : packet'.obexReqseq = packet.obexReqseq
  obexTxseq : packet'.obexTxseq = packet.obexTxseq

theorem putHeader_congr (hframe : SameFrame packet packet') {s : PutState}
    (h : ∀ k ∈ headerReads packet s.i, packet' k = packet k) :
    putHeader packet' s = putHeader packet s := by
  obtain ⟨hid, h⟩ := List.forall_mem_cons.mp h
  unfold putHeader
  dsimp only
  rw [hid]
  split_ifs with hconnection hname hlength hbody htype hsrm hend
  · rfl
  · rw [if_pos hname] at h
    obtain ⟨hhead, hcopied⟩ := List.forall_mem_append.mp h
    rw [hhead (s.i + 1) (by simp), hhead (s.i + 2) (by simp), copyLoop_eq, copyLoop_eq,
      List.map_congr_left hcopied]
  · rw [if_neg hname, if_pos hlength] at h
    have hshifted : [1, 2, 3, 4].foldl (fun acc j => shiftIn acc (packet' (s.i + j)))
        s.globals.fileLen = [1, 2, 3, 4].foldl (fun acc j => shiftIn acc (packet (s.i + j)))
          s.globals.fileLen := by
      simp only [List.foldl_cons, List.foldl_nil, h (s.i + 1) (by simp), h (s.i + 2) (by simp),
        h (s.i + 3) (by simp), h (s.i + 4) (by simp)]
    rw [hshifted]
  · rw [if_neg hname, if_neg hlength, if_pos hbody] at h
    obtain ⟨hhead, hcopied⟩ := List.forall_mem_append.mp h
    rw [hhead (s.i + 1) (by simp), hhead (s.i + 2) (by simp), copyLoop_eq, copyLoop_eq,
      List.map_congr_left hcopied]
  · rw [if_neg hname, if_neg hlength, if_neg hbody, if_pos htype] at h
    rw [h (s.i + 1) (by simp), h (s.i + 2) (by simp)]
  · simp only [srmReply, hframe.aclFlags, hframe.obexReqseq, hframe.obexTxseq]
  · simp only [endOfBodyReply, hframe.aclFlags, hframe.obexReqseq, hframe.obexTxseq]
  · rfl

theorem putLoop_congr (hlen : packet'.len = packet.len) (hframe : SameFrame packet packet')
    {fuel : ℕ} {s : PutState} (h : ∀ k ∈ putReads packet fuel s.i, packet' k = packet k) :
    putLoop packet' fuel s = putLoop packet fuel s := by
  induction fuel generalizing s with
  | zero =>
      unfold putLoop
      rw [hlen]
  | succ fuel ih =>
      unfold putLoop
      rw [hlen]
      split_ifs with hmore
      · rw [putReads, if_pos hmore] at h
        obtain ⟨hnow, hlater⟩ := List.forall_mem_append.mp h
        rw [putHeader_congr hframe hnow]
        exact ih (by rwa [putHeader_position])
      · rfl

theorem obexFtp_congr (hlen : packet'.len = packet.len)
    (h : ∀ k ∈ obexFtpReads packet packet.len.toNat, packet' k = packet k) :
    obexFtp g packet' = obexFtp g packet := by
  obtain ⟨hfixed, hput⟩ := List.forall_mem_append.mp h
  have h9 : packet' 9 = packet 9 := hfixed 9 (by simp)
  have hframe : SameFrame packet packet' := by
    constructor
    · rw [Packet.aclFlags, hfixed 2 (by simp), hfixed 1 (by simp)]
      rfl
    · rw [Packet.frameType, h9]
      rfl
    · rw [Packet.obexCommand, hfixed 11 (by simp)]
      rfl
    · rw [Packet.obexReqseq, hfixed 10 (by simp)]
      rfl
    · rw [Packet.obexTxseq, h9]
      rfl
  have hdue : AckDue packet' ↔ AckDue packet := by
    unfold AckDue
    rw [hframe.obexTxseq]
  have hack : recievedAck g packet' = recievedAck g packet := by
    funext c
    simp only [recievedAck, hframe.obexTxseq, hframe.aclFlags]
  have hframes : ackFrames g packet' = ackFrames g packet := by
    simp only [ackFrames, hdue, hack]
  have hbuffer : ackBuffer g packet' = ackBuffer g packet := by
    simp only [ackBuffer, hdue, hack]
  unfold obexFtp
  dsimp only
  rw [hframes, hbuffer, hframe.frameType, hframe.obexCommand, hlen]
  split_ifs with htype hconnect hcommand
  · simp only [connectReply, hframe.aclFlags]
  · rw [if_pos (show RunsLoop packet from ⟨htype, hcommand⟩)] at hput
    have hstart : putStart g packet' = putStart g packet := by rw [putStart, hbuffer]; rfl
    rw [hstart, putLoop_congr hlen hframe hput]
  · rfl
  · rfl

/-! ## The callback -/

/-- **A call depends on the listed bytes** and on `len` alone. -/
theorem hostRcvPkt_congr (hlen : packet'.len = packet.len)
    (h : ∀ k ∈ reads g packet packet.len.toNat, packet' k = packet k) :
    hostRcvPkt g packet' = hostRcvPkt g packet := by
  obtain ⟨hkind, h⟩ := List.forall_mem_cons.mp h
  unfold hostRcvPkt
  rw [hkind]
  split_ifs with hevent hacl
  · rw [if_pos hevent] at h
    rw [hciEventHandler_congr h]
  · rw [if_neg hevent, if_pos hacl] at h
    obtain ⟨hfixed, h⟩ := List.forall_mem_append.mp h
    have hstart : SameStart packet packet' := by
      constructor
      · rw [Packet.aclFlags, hfixed 2 (by simp), hfixed 1 (by simp)]
        rfl
      · rw [Packet.sigChannel, hfixed 8 (by simp), hfixed 7 (by simp)]
        rfl
      · exact hfixed 9 (by simp)
    have hhandler : multiplex g packet' = multiplex g packet := by
      unfold multiplex
      rw [hstart.sigChannel]
    unfold l2capCmdHandler
    rw [hhandler]
    cases hmultiplex : multiplex g packet with
    | signalling =>
        rw [hmultiplex] at h
        dsimp only
        rw [signalling_congr hlen hstart h]
    | obex =>
        rw [hmultiplex] at h
        exact obexFtp_congr hlen h
    | sdp =>
        rw [hmultiplex] at h
        dsimp only
        rw [sdp_congr hstart h]
  · rfl

/-- **Nothing behind the packet matters** to a call whose reads stay inside it. -/
theorem hostRcvPkt_confined
    (hreads : ∀ k ∈ reads g packet packet.len.toNat, k < packet.len.toNat)
    (hlen : packet'.len = packet.len) (h : ∀ k < packet.len.toNat, packet' k = packet k) :
    hostRcvPkt g packet' = hostRcvPkt g packet :=
  hostRcvPkt_congr hlen fun k hk => h k (hreads k hk)

end HydroponicCloset.Safety
