import HydroponicCloset.Obex.Headers
import Mathlib.Data.List.Forall2

/-!
# The frames that the OBEX handler queues

`obex_ftp` has four encoders: the acknowledgement, and the replies to Connect,
Single Response Mode and End-of-Body.  Each streams an ACL header, two control
bytes and an OBEX response, with lengths counted by hand, and then an FCS over a
region counted by hand.  `Reply.layout` lays the same bytes out from the control
bytes and the response alone, and `Reply.encode_eq` says that the hand-counted
numbers are right.

The buffer may hold an acknowledgement when a reply is built in it, and the
header loop may build several replies behind each other.  `Carries c bytes` says
that the buffer starts with `bytes` and that all of them were streamed since the
pointer was last set back; streaming more keeps it.  `replies` lists the replies
that a packet calls for, and `obexFtp_carries` shows that each buffer that is
queued carries the next of them.
-/

namespace HydroponicCloset.Obex

open CMemory Wire Bluetooth

/-! ## Numbers in a packet -/

/-- The transmit sequence number of a packet. -/
def txSeq (packet : Packet) : ℕ := (packet.obexTxseq >>> 1).toNat

/-- Its request sequence number. -/
def reqSeq (packet : Packet) : ℕ := packet.obexReqseq.toNat

theorem txSeq_lt (packet : Packet) : txSeq packet < 64 := by
  have hle : packet.obexTxseq.toNat ≤ 0b01111110 := by
    rw [Packet.obexTxseq, UInt8.toNat_and]
    exact Nat.and_le_right
  have hshift : txSeq packet = packet.obexTxseq.toNat / 2 := by
    rw [txSeq, UInt8.toNat_shiftRight, Nat.shiftRight_eq_div_pow]
    rfl
  omega

theorem reqSeq_lt (packet : Packet) : reqSeq packet < 64 := by
  have hle : reqSeq packet ≤ 0b00111111 := by
    rw [reqSeq, Packet.obexReqseq, UInt8.toNat_and]
    exact Nat.and_le_right
  omega

/-! ## The layout of a reply -/

/-- The four frames that `obex_ftp` builds. -/
inductive Reply
  | ack
  | connect
  | srm
  | endOfBody
  deriving DecidableEq

namespace Reply

/-- The two control bytes. -/
def control (packet : Packet) : Reply → List UInt8
  | .ack => [0x01, UInt8.ofNat (txSeq packet + 1)]
  | .connect => [0x00, 0x01]
  | .srm | .endOfBody => [UInt8.ofNat (reqSeq packet <<< 1), UInt8.ofNat (txSeq packet + 1)]

/-- The OBEX response; an acknowledgement has none. -/
def response (g : Globals) : Reply → List UInt8
  | .ack => []
  | .connect =>
      [0xa0, 0, 0x0c, 0x10, 0x00] ++ be16 (UInt16.ofNat maxObexPack) ++ [0xcb, 0, 0] ++
        be16 g.obexConnId
  | .srm => [0x90, 0x00, 0x05, 0x97, 0x01]
  | .endOfBody => [0xa0, 0x00, 0x03]

/-- Control bytes and response. -/
def pdu (g : Globals) (packet : Packet) (r : Reply) : List UInt8 :=
  r.control packet ++ r.response g

/-- The bytes up to the FCS, every length computed from what it counts. -/
def layout (g : Globals) (packet : Packet) (r : Reply) : List UInt8 :=
  let n := (r.pdu g packet).length
  aclHeader (n + 11) packet.aclFlags (UInt16.ofNat (n + 6)) (UInt16.ofNat (n + 2)) g.srcCid ++
    r.pdu g packet

/-- The encoder of `bt_main.c`. -/
def encode (g : Globals) (packet : Packet) (c : CmdBuf) : Reply → CmdBuf
  | .ack => recievedAck g packet c
  | .connect => connectReply g packet c
  | .srm => srmReply g packet c
  | .endOfBody => endOfBodyReply g packet c

theorem pdu_length (g : Globals) (packet : Packet) (r : Reply) :
    (r.pdu g packet).length = match r with
      | .ack => 2
      | .connect => 14
      | .srm => 7
      | .endOfBody => 5 := by
  cases r <;> rfl

theorem layout_length (g : Globals) (packet : Packet) (r : Reply) :
    (r.layout g packet).length = (r.pdu g packet).length + 11 := by
  rw [layout, List.length_append, aclHeader_length, Nat.add_comm]

end Reply

/-- **The hand-counted lengths are right**: of the frame, of the ACL packet, of the
L2CAP packet, and of the checksummed region. -/
theorem Reply.encode_eq (g : Globals) (packet : Packet) (c : CmdBuf) (r : Reply) :
    r.encode g packet c = c.streamFcs (r.layout g packet) ((r.layout g packet).length - 7) := by
  rw [layout_length, layout, pdu_length]
  cases r with
  | ack => rfl
  | connect =>
      have hid := uint8ToStream_be16 g.obexConnId.toNat_lt
      rw [UInt16.ofNat_toNat] at hid
      have hbytes : (Reply.connect).pdu g packet = uint8ToStream 0x00 ++
          uint8ToStream 0x01 ++ uint8ToStream 0xa0 ++ uint8ToStream 0 ++ uint8ToStream 0x0c ++
          uint8ToStream 0x10 ++ uint8ToStream 0x00 ++ uint8ToStream (maxObexPack / 256) ++
          uint8ToStream (maxObexPack % 256) ++ uint8ToStream 0xcb ++ uint16ToStream 0x00 ++
          uint8ToStream (g.obexConnId.toNat / 256) ++
          uint8ToStream (g.obexConnId.toNat % 256) := by
        rw [List.append_assoc _ (uint8ToStream (g.obexConnId.toNat / 256)), hid]
        rfl
      rw [hbytes, encode, connectReply]
      simp only [List.append_assoc]
      rfl
  | srm => rfl
  | endOfBody => rfl

/-- A reply with its FCS. -/
def Reply.frame (g : Globals) (packet : Packet) (r : Reply) : List UInt8 :=
  r.layout g packet ++ le16 (crc16 0 ((r.layout g packet).drop 7))

theorem Reply.frame_length (g : Globals) (packet : Packet) (r : Reply) :
    (r.frame g packet).length = (r.pdu g packet).length + 13 := by
  rw [frame, List.length_append, layout_length, le16_length]

theorem Reply.frame_length_le (g : Globals) (packet : Packet) (r : Reply) :
    (r.frame g packet).length ≤ maxCmdLen := by
  rw [frame_length, pdu_length]
  cases r <;> decide

/-- Only the reply to Connect depends on a global other than `src_cid`. -/
theorem Reply.frame_congr {g g' : Globals} (hcid : g.srcCid = g'.srcCid) (packet : Packet)
    {r : Reply} (hr : r ≠ .connect) : r.frame g packet = r.frame g' packet := by
  have hlayout : r.layout g packet = r.layout g' packet := by
    cases r with
    | connect => exact absurd rfl hr
    | _ => simp only [layout, pdu, response, hcid]
  rw [frame, frame, hlayout]

/-! ## Buffers that carry a reply -/

/-- The buffer starts with `bytes`, all streamed since the pointer was set back. -/
structure Carries (c : CmdBuf) (bytes : List UInt8) : Prop where
  front : slice c.cmdBuf.bytes 0 bytes.length = bytes
  streamed : bytes.length ≤ c.buf

theorem carries_stream {c : CmdBuf} (h : c.buf = 0) (bytes : List UInt8) :
    Carries (c.stream bytes) bytes := by
  refine ⟨?_, Nat.le_add_left ..⟩
  rw [CmdBuf.stream, h]
  exact c.cmdBuf.write_slice bytes

/-- Streaming more leaves what the buffer carries. -/
theorem Carries.stream {c : CmdBuf} {bytes : List UInt8} (h : Carries c bytes)
    (more : List UInt8) : Carries (c.stream more) bytes := by
  refine ⟨?_, Nat.le_add_right_of_le h.streamed⟩
  apply slice_eq_of_forall
  intro k hk
  have hkept : (c.stream more).cmdBuf.bytes k = c.cmdBuf.bytes k :=
    c.cmdBuf.write_bytes_of_lt more (Nat.lt_of_lt_of_le hk h.streamed)
  rw [Nat.zero_add, hkept, ← eq_of_slice_eq h.front hk, Nat.zero_add]

theorem Carries.streamFcs {c : CmdBuf} {bytes : List UInt8} (h : Carries c bytes)
    (more : List UInt8) (n : ℕ) : Carries (c.streamFcs more n) bytes :=
  (h.stream more).stream _

/-- **A reply built at the front** is carried whole, with the FCS of its own bytes,
whatever the buffer held before. -/
theorem carries_streamFcs {c : CmdBuf} (h : c.buf = 0) (bytes : List UInt8) :
    Carries (c.streamFcs bytes (bytes.length - 7))
      (bytes ++ le16 (crc16 0 (bytes.drop 7))) := by
  have hbytes := carries_stream h bytes
  have hregion : slice (c.stream bytes).cmdBuf.bytes 7 (bytes.length - 7) = bytes.drop 7 := by
    have hdrop := slice_drop hbytes.front 7
    rwa [Nat.zero_add] at hdrop
  have htwice : c.streamFcs bytes (bytes.length - 7) =
      c.stream (bytes ++ le16 (crc16 0 (bytes.drop 7))) := by
    rw [CmdBuf.streamFcs, hregion]
    simp only [CmdBuf.stream, Buffer.write_append, List.length_append, Nat.add_assoc]
    rfl
  rw [htwice]
  exact carries_stream h _

theorem carries_encode {c : CmdBuf} (h : c.buf = 0) (g : Globals) (packet : Packet) (r : Reply) :
    Carries (r.encode g packet c) (r.frame g packet) := by
  rw [Reply.encode_eq]
  exact carries_streamFcs h _

theorem Carries.encode {c : CmdBuf} {bytes : List UInt8} (h : Carries c bytes) (g : Globals)
    (packet : Packet) (r : Reply) : Carries (r.encode g packet c) bytes := by
  rw [Reply.encode_eq]
  exact h.streamFcs _ _

/-- What a buffer carries is what is sent first. -/
theorem Carries.isPrefix {c : CmdBuf} {bytes : List UInt8} (h : Carries c bytes)
    (hlen : bytes.length ≤ maxCmdLen) : bytes <+: queuePacket c.cmdBuf := by
  have hsplit : maxCmdLen = bytes.length + (maxCmdLen - bytes.length) := by omega
  rw [queuePacket, hsplit, slice_add, h.front]
  exact List.prefix_append ..

/-! ## The replies to a packet -/

/-- How a header is answered. -/
def Header.reply? : Header → Option Reply
  | .srm _ => some .srm
  | .endOfBody _ => some .endOfBody
  | _ => none

/-- The reply to Connect, or to the first header of a PUT that wants one. -/
def reply? (packet : Packet) : Option Reply :=
  if packet.frameType = 0 then
    if packet.obexCommand = 0x00 then some .connect
    else if packet.obexCommand = 0x02 then
      (headersOf packet).bind fun hs => hs.findSome? Header.reply?
    else none
  else none

/-- The frames that a packet calls for: an acknowledgement if it is due, and a
reply. -/
def replies (packet : Packet) : List Reply :=
  (if AckDue packet then [.ack] else []) ++ (reply? packet).toList

theorem Header.reply?_eq {h : Header} {r : Reply} (hr : h.reply? = some r) :
    r = .srm ∨ r = .endOfBody := by
  cases h with
  | srm mode => exact Or.inl (Option.some.inj hr).symm
  | endOfBody chunk => exact Or.inr (Option.some.inj hr).symm
  | _ => cases hr

/-- A PUT is only replied to for its headers. -/
theorem put_reply_eq {packet : Packet} {r : Reply}
    (h : ((headersOf packet).bind fun hs => hs.findSome? Header.reply?) = some r) :
    r = .srm ∨ r = .endOfBody := by
  obtain ⟨hs, -, hfirst⟩ := Option.bind_eq_some_iff.mp h
  obtain ⟨header, -, hr⟩ := List.exists_of_findSome?_eq_some hfirst
  exact Header.reply?_eq hr

theorem reply?_ne_ack (packet : Packet) : reply? packet ≠ some .ack := by
  unfold reply?
  split_ifs
  · nofun
  · intro hack
    rcases put_reply_eq hack with h | h <;> cases h
  · nofun
  · nofun

theorem reply?_eq_connect_iff (packet : Packet) :
    reply? packet = some .connect ↔ packet.frameType = 0 ∧ packet.obexCommand = 0x00 := by
  unfold reply?
  split_ifs with hframe hconnect
  · simp [hframe, hconnect]
  · simp only [hconnect, and_false, iff_false]
    intro hreply
    rcases put_reply_eq hreply with h | h <;> cases h
  · simp [hconnect]
  · simp [hframe]

theorem mem_replies {packet : Packet} {r : Reply} :
    r ∈ replies packet ↔ (r = .ack ∧ AckDue packet) ∨ reply? packet = some r := by
  by_cases hdue : AckDue packet <;> simp [replies, hdue]

/-- The command buffers that a call queues, each as it is then. -/
def queuedBuffers (g : Globals) (packet : Packet) : List CmdBuf :=
  (if AckDue packet then [recievedAck g packet .cleared] else []) ++
    if packet.frameType = 0 then
      if packet.obexCommand = 0x00 then [connectReply g packet (ackBuffer g packet)]
      else if packet.obexCommand = 0x02 then
        match putLoop packet packet.len.toNat (putStart g packet) with
        | none => []
        | some s => if s.send then [s.cmd] else []
      else []
    else []

theorem obexFtp_queued (g : Globals) (packet : Packet) :
    (obexFtp g packet).queued = (queuedBuffers g packet).map fun c => queuePacket c.cmdBuf := by
  have hacks : ackFrames g packet =
      (if AckDue packet then [recievedAck g packet .cleared] else []).map
        fun c => queuePacket c.cmdBuf := by
    unfold ackFrames
    split_ifs <;> rfl
  rw [queuedBuffers, List.map_append, ← hacks, obexFtp]
  by_cases hframe : packet.frameType = 0
  · by_cases hconnect : packet.obexCommand = 0x00
    · simp [hframe, hconnect]
    by_cases hput : packet.obexCommand = 0x02
    · simp only [hframe, hput, if_true]
      cases putLoop packet packet.len.toNat (putStart g packet) with
      | none => simp
      | some s => cases hsend : s.send <;> simp [hsend]
    · simp [hframe, hconnect, hput]
  · simp [hframe]

/-! ## The header loop -/

/-- The loop has handled the headers `hs`: if one of them wants a reply, the buffer
carries the reply to the first that does. -/
structure Pending (g : Globals) (packet : Packet) (hs : List Header) (s : PutState) : Prop where
  srcCid : s.globals.srcCid = g.srcCid
  send_eq : s.send = (hs.findSome? Header.reply?).isSome
  fresh : hs.findSome? Header.reply? = none → s.cmd.buf = 0
  carries : ∀ r, hs.findSome? Header.reply? = some r → Carries s.cmd (r.frame g packet)

theorem Header.store_srcCid (h : Header) (g : Globals) : (h.store g).srcCid = g.srcCid := by
  cases h <;> rfl

theorem Header.replies_eq (h : Header) : h.replies = h.reply?.isSome := by
  cases h <;> rfl

theorem Header.reply_eq_encode {h : Header} {r : Reply} (hr : h.reply? = some r) (g : Globals)
    (packet : Packet) (c : CmdBuf) : h.reply g packet c = r.encode g packet c ∧ r ≠ .connect := by
  cases h with
  | srm mode =>
      obtain rfl : Reply.srm = r := Option.some.inj hr
      exact ⟨rfl, nofun⟩
  | endOfBody chunk =>
      obtain rfl : Reply.endOfBody = r := Option.some.inj hr
      exact ⟨rfl, nofun⟩
  | _ => cases hr

/-- A header that wants no reply leaves the buffer. -/
theorem Header.reply_eq_self {h : Header} (hr : h.reply? = none) (g : Globals) (packet : Packet)
    (c : CmdBuf) : h.reply g packet c = c := by
  apply Header.reply_of_not_replies
  rw [h.replies_eq, hr]
  rfl

/-- One header: the first that wants a reply gets it, and later replies go behind
that one. -/
theorem Pending.step {g : Globals} {packet : Packet} {hs : List Header} {s : PutState}
    (hpending : Pending g packet hs s) (h : Header) (next : ℕ) :
    Pending g packet (hs ++ [h]) (h.step packet s next) := by
  have hsrc : (h.store s.globals).srcCid = g.srcCid :=
    (h.store_srcCid s.globals).trans hpending.srcCid
  have hfirst : (hs ++ [h]).findSome? Header.reply? =
      (hs.findSome? Header.reply?).or h.reply? := by
    simp [List.findSome?_append]
  have hsend : (s.send || h.replies) = ((hs ++ [h]).findSome? Header.reply?).isSome := by
    rw [hfirst, Option.isSome_or, hpending.send_eq, h.replies_eq]
  refine ⟨hsrc, hsend, ?_, ?_⟩
  · intro hnone
    obtain ⟨hquiet, hreply⟩ := Option.or_eq_none_iff.mp (hfirst.symm.trans hnone)
    show (h.reply s.globals packet s.cmd).buf = 0
    rw [Header.reply_eq_self hreply]
    exact hpending.fresh hquiet
  · intro r hr
    rw [hfirst] at hr
    show Carries (h.reply s.globals packet s.cmd) _
    cases hreply : h.reply? with
    | none =>
        rw [hreply, Option.or_none] at hr
        rw [Header.reply_eq_self hreply]
        exact hpending.carries r hr
    | some new =>
        obtain ⟨hencode, hnew⟩ := Header.reply_eq_encode hreply s.globals packet s.cmd
        rw [hencode]
        cases hold : hs.findSome? Header.reply? with
        | none =>
            rw [hold, Option.none_or, hreply] at hr
            obtain rfl := Option.some.inj hr
            rw [← Reply.frame_congr hpending.srcCid packet hnew]
            exact carries_encode (hpending.fresh hold) s.globals packet new
        | some old =>
            rw [hold, Option.some_or] at hr
            obtain rfl := Option.some.inj hr
            exact (hpending.carries old hold).encode s.globals packet new

/-! ## The handler -/

theorem pending_putStart (g : Globals) (packet : Packet) :
    Pending g packet [] (putStart g packet) :=
  ⟨rfl, rfl, fun _ => ackBuffer_buf g packet, nofun⟩

/-- **Each buffer that is queued** carries one of the replies that the packet calls
for, in this order. -/
theorem obexFtp_carries (g : Globals) (packet : Packet) :
    List.Forall₂ (fun r c => Carries c (r.frame g packet)) (replies packet)
      (queuedBuffers g packet) := by
  unfold replies queuedBuffers
  apply List.rel_append
  · split_ifs
    · exact .cons (carries_encode rfl g packet .ack) .nil
    · exact .nil
  · by_cases hframe : packet.frameType = 0
    · by_cases hconnect : packet.obexCommand = 0x00
      · simp only [reply?, hframe, hconnect, if_true]
        exact .cons (carries_encode (ackBuffer_buf g packet) g packet .connect) .nil
      by_cases hput : packet.obexCommand = 0x02
      · have hne : ¬ (0x02 : UInt8) = 0x00 := by decide
        have hheaders : headersOf packet = readHeaders packet packet.len.toNat
            (putStart g packet).i := by
          rw [headersOf, if_pos ⟨hframe, hput⟩]
          rfl
        simp only [reply?, hframe, hput, hne, if_true, if_false, hheaders]
        rcases putLoop_history (Pending g packet) (fun _ _ h next hs => hs.step h next)
          (pending_putStart g packet) with ⟨hloop, hread⟩ | ⟨s, hs, hloop, hread, hpending⟩
        · rw [hloop, hread]
          exact .nil
        · rw [hloop, hread, Option.bind_some]
          rw [List.nil_append] at hpending
          cases hfirst : hs.findSome? Header.reply? with
          | none => simp [hpending.send_eq, hfirst]
          | some r => simpa [hpending.send_eq, hfirst] using hpending.carries r hfirst
      · simp [reply?, hframe, hconnect, hput]
    · simp [reply?, hframe]

/-- **What `obex_ftp` queues** starts with the replies that the packet calls for. -/
theorem obexFtp_frames (g : Globals) (packet : Packet) :
    List.Forall₂ (fun r frame => r.frame g packet <+: frame) (replies packet)
      (obexFtp g packet).queued := by
  rw [obexFtp_queued, List.forall₂_map_right_iff]
  exact (obexFtp_carries g packet).imp fun r c h => h.isPrefix (r.frame_length_le g packet)

end HydroponicCloset.Obex
