import HydroponicCloset.Channels.Session
import HydroponicCloset.Lib.DataElement

/-!
# Service discovery

A peer looks for a service by a UUID, and is to be given the attributes of the services
that have it.  `sdp` knows two attribute lists, which it keeps as bytes, and picks one by
the UUID of the request.

The bytes are two service records, `objectPush` and `pnpInformation`.  `search` says what a
search is for: it finds the records with the UUID anywhere in them.  `sdp_search`: a
request for one UUID that comes on a channel of SDP is answered if and only if the UUID is
one of three, and the reader of responses, which knows data elements and nothing of this
program, finds the result of the search in the answer.  Which channels these are is up to
`multiplex`: a request on the channel whose number is `obex_cid` goes to OBEX, also when
that channel was opened for SDP.
-/

namespace HydroponicCloset.Discovery

open CMemory Wire Bluetooth Framing Channels DataElement

/-! ## Service records -/

/-- An attribute of a service: its id, and a data element. -/
structure Attribute where
  id : UInt16
  value : Element
  deriving DecidableEq

/-- A service record, as a list of attributes. -/
abbrev Record := List Attribute

/-- The elements of an attribute list: ids and values in turn. -/
def Record.elements (r : Record) : List Element := r.flatMap fun a => [.uint16 a.id, a.value]

/-- A sequence of data elements, with its size in one byte. -/
def sequence (es : List Element) (h : (es.flatMap Element.encode).length < 256) : Element :=
  .seq .field8 es h

/-- The service that takes files. -/
def objectPush : Record :=
  [⟨0x0000, .uint32 0x0001000e⟩,
    -- service classes
    ⟨0x0001, sequence [.uuid16 0x1105] (by decide)⟩,
    -- protocols: L2CAP, RFCOMM on channel 9, OBEX
    ⟨0x0004, sequence [sequence [.uuid16 0x0100] (by decide),
      sequence [.uuid16 0x0003, .uint8 9] (by decide),
      sequence [.uuid16 0x0008] (by decide)] (by decide)⟩,
    -- where it is browsed
    ⟨0x0005, sequence [.uuid16 0x1002] (by decide)⟩,
    -- profiles
    ⟨0x0009, sequence [sequence [.uuid16 0x1105, .uint16 0x0102] (by decide)] (by decide)⟩,
    -- the name, "Object Push"
    ⟨0x0100, .text [0x4f, 0x62, 0x6a, 0x65, 0x63, 0x74, 0x20, 0x50, 0x75, 0x73, 0x68]
      (by decide)⟩,
    -- the PSM
    ⟨0x0200, .uint16 0x1009⟩,
    -- the formats that are taken
    ⟨0x0303, sequence [.uint8 1, .uint8 2, .uint8 3, .uint8 4, .uint8 5, .uint8 6, .uint8 0xff]
      (by decide)⟩]

/-- The service that says what the device is. -/
def pnpInformation : Record :=
  [⟨0x0000, .uint32 0x00010002⟩, ⟨0x0001, sequence [.uuid16 0x1200] (by decide)⟩,
    ⟨0x0200, .uint16 0x0103⟩, ⟨0x0201, .uint16 0x0075⟩, ⟨0x0202, .uint16 0x0100⟩,
    ⟨0x0203, .uint16 0x0201⟩, ⟨0x0204, .bool true⟩, ⟨0x0205, .uint16 0x0001⟩]

/-- The records of the device. -/
def services : List Record := [objectPush, pnpInformation]

/-- The record has the UUID somewhere in its attributes. -/
def Record.Has (r : Record) (uuid : UInt16) : Prop := uuid ∈ r.flatMap fun a => a.value.uuids

instance (r : Record) (uuid : UInt16) : Decidable (r.Has uuid) :=
  inferInstanceAs (Decidable (_ ∈ _))

/-- The records that a search for the UUID finds. -/
def search (uuid : UInt16) : List Record := services.filter fun r => r.Has uuid

/-- The value of an attribute that is a word. -/
def Record.word? (r : Record) (id : UInt16) : Option UInt16 :=
  (r.find? fun a => a.id = id).bind fun a =>
    match a.value.type, a.value.data with
    | 1, [hi, lo] => some (word hi lo)
    | _, _ => none

/-! ## Reading attribute lists -/

/-- The id that an element is. -/
def readId (e : Element) : Option UInt16 :=
  match e.type, e.data with
  | 1, [hi, lo] => some (word hi lo)
  | _, _ => none

/-- Ids and values in turn. -/
def readRecord : List Element → Option Record
  | [] => some []
  | [_] => none
  | id :: value :: rest =>
      (readId id).bind fun id => (readRecord rest).map fun r => ⟨id, value⟩ :: r

/-- A sequence of attribute lists, and nothing behind it. -/
def readRecords (bytes : List UInt8) : Option (List Record) :=
  match Element.format.decodeAll bytes with
  | some [e] => e.children.bind fun lists =>
      lists.mapM fun list => list.children.bind readRecord
  | _ => none

theorem readRecord_elements (r : Record) : readRecord r.elements = some r := by
  induction r with
  | nil => rfl
  | cons a rest ih =>
      have hid : readId (.uint16 a.id) = some a.id := congrArg some (word_high_low a.id)
      have hrest : readRecord (rest.flatMap fun a => [.uint16 a.id, a.value]) = some rest := ih
      rw [Record.elements, List.flatMap_cons, List.cons_append, List.cons_append,
        List.nil_append, readRecord, hid, Option.bind_some, hrest]
      rfl

/-- **The record** in the attribute list of one service. -/
theorem readRecords_encode (r : Record) {inner outer : Size}
    (hinner : Fits 6 (r.elements.flatMap Element.encode).length inner)
    (houter : Fits 6 ([Element.seq inner r.elements hinner].flatMap Element.encode).length outer) :
    readRecords (Element.seq outer [.seq inner r.elements hinner] houter).encode = some [r] := by
  have hwhole : Element.format.decodeAll
      (Element.seq outer [.seq inner r.elements hinner] houter).encode =
        some [.seq outer [.seq inner r.elements hinner] houter] := by
    have hall := Delimited.Format.decodeAll_flatMap (f := Element.format)
      [.seq outer [.seq inner r.elements hinner] houter]
    rwa [List.flatMap_singleton] at hall
  unfold readRecords
  rw [hwhole]
  simp [Element.children_seq, readRecord_elements]

theorem readRecords_obexPush : readRecords obexPush = some [objectPush] := by
  have hbytes : obexPush =
      (sequence [sequence objectPush.elements (by decide)] (by decide)).encode := by decide
  rw [hbytes]
  exact readRecords_encode objectPush _ _

theorem readRecords_pnp : readRecords pnp = some [pnpInformation] := by
  have hbytes : pnp =
      (sequence [.seq .field16 pnpInformation.elements (by decide)] (by decide)).encode := by
    decide
  rw [hbytes]
  exact readRecords_encode pnpInformation _ _

/-! ## Reading responses -/

/-- What a peer reads in a response: the transaction that it answers, and the records. -/
structure Response where
  transaction : UInt16
  records : List Record
  deriving DecidableEq

/-- An SDP Attribute Response that is not continued. -/
def readResponse (frame : Frame) : Option Response :=
  let paramLen := word (frame.getD 14 0) (frame.getD 15 0)
  let count := word (frame.getD 16 0) (frame.getD 17 0)
  if frame.getD 11 0 = 0x07 ∧ paramLen.toNat = count.toNat + 3 ∧
      frame.getD (18 + count.toNat) 1 = 0 then
    (readRecords ((frame.drop 18).take count.toNat)).map
      (⟨word (frame.getD 12 0) (frame.getD 13 0), ·⟩)
  else none

/-- A request for the attributes of the services with one UUID. -/
structure Asks (packet : Packet) (uuid : UInt16) : Prop where
  command : packet.command = sdpAttReq
  pattern : packet 14 = 0x35 ∧ packet 15 = 0x03 ∧ packet 16 = 0x19
  uuid_eq : word (packet 17) (packet 18) = uuid

/-- The transaction of a request. -/
def transaction (packet : Packet) : UInt16 := word (packet 10) (packet 11)

/-! ## Searches -/

/-- The bytes of a response, up to the padding. -/
theorem frame_attRes (g : Globals) (packet : Packet) {packLen : ℕ}
    {aclLen l2capLen paramLen count : UInt16} {attributes : List UInt8}
    (hlen : attributes.length + 19 ≤ maxCmdLen) :
    queueFresh (attRes g packet packLen aclLen l2capLen paramLen count attributes) =
      aclHeader packLen packet.aclFlags aclLen l2capLen g.srcCid ++
        (0x07 :: (be16 (transaction packet) ++ le16 paramLen ++ le16 count ++ (attributes ++
          (0 :: List.replicate (maxCmdLen - (attributes.length + 19)) 0)))) := by
  have hlength : (attRes g packet packLen aclLen l2capLen paramLen count attributes).length =
      attributes.length + 19 := by
    simp [attRes]
    omega
  have htransaction : le16 (word (packet 11) (packet 10)) = be16 (transaction packet) := by
    simp [transaction, be16]
  rw [queueFresh, queuePacket_cleared (by rw [hlength]; exact hlen), padded, hlength]
  simp [attRes, htransaction, uint8ToStream, uint16ToStream]

/-- **A response is read**: its transaction, and the records of its attribute lists. -/
theorem readResponse_attRes (g : Globals) (packet : Packet) {packLen : ℕ}
    {aclLen l2capLen paramLen count : UInt16} {attributes : List UInt8} {records : List Record}
    (hlen : attributes.length + 19 ≤ maxCmdLen)
    (hcount : (word count.toUInt8 (count >>> 8).toUInt8).toNat = attributes.length)
    (hparam : (word paramLen.toUInt8 (paramLen >>> 8).toUInt8).toNat = attributes.length + 3)
    (hread : readRecords attributes = some records) :
    readResponse (queueFresh (attRes g packet packLen aclLen l2capLen paramLen count
      attributes)) = some ⟨transaction packet, records⟩ := by
  rw [frame_attRes g packet hlen]
  generalize hframe : aclHeader packLen packet.aclFlags aclLen l2capLen g.srcCid ++ _ = frame
  have hid : frame.getD 11 0 = 0x07 := hframe ▸ rfl
  have htransaction : word (frame.getD 12 0) (frame.getD 13 0) = transaction packet :=
    hframe ▸ word_high_low _
  have hparam' : (word (frame.getD 14 0) (frame.getD 15 0)).toNat = attributes.length + 3 := by
    rw [← hparam, ← hframe]
    rfl
  have hcount' : (word (frame.getD 16 0) (frame.getD 17 0)).toNat = attributes.length := by
    rw [← hcount, ← hframe]
    rfl
  have hlists : frame.drop 18 =
      attributes ++ (0 :: List.replicate (maxCmdLen - (attributes.length + 19)) 0) := hframe ▸ rfl
  have hlast : frame.getD (18 + attributes.length) 1 = 0 := by
    rw [List.getD_eq_getElem?_getD, ← List.getElem?_drop, hlists,
      List.getElem?_append_right (Nat.le_refl _), Nat.sub_self]
    rfl
  unfold readResponse
  dsimp only
  rw [hcount', hparam', hlists, List.take_left, htransaction, if_pos ⟨hid, rfl, hlast⟩, hread]
  rfl

theorem frameCid_attRes (g : Globals) (packet : Packet) {packLen : ℕ}
    {aclLen l2capLen paramLen count : UInt16} {attributes : List UInt8}
    (hlen : attributes.length + 19 ≤ maxCmdLen) :
    frameCid (queueFresh (attRes g packet packLen aclLen l2capLen paramLen count attributes)) =
      g.srcCid := by
  rw [frame_attRes g packet hlen]
  exact word_high_low g.srcCid

/-- The two bytes that `sdp` compares are the UUID. -/
theorem Asks.bytes_iff {packet : Packet} {uuid : UInt16} (h : Asks packet uuid) (hi lo : UInt8) :
    packet 17 = hi ∧ packet 18 = lo ↔ uuid = word hi lo := by
  rw [← h.uuid_eq]
  constructor
  · rintro ⟨rfl, rfl⟩
    rfl
  · intro heq
    have hhigh := congrArg (fun u : UInt16 => (u >>> 8).toUInt8) heq
    have hlow := congrArg UInt16.toUInt8 heq
    rw [high_word, high_word] at hhigh
    rw [low_word, low_word] at hlow
    exact ⟨hhigh, hlow⟩

theorem search_objectPush {uuid : UInt16} (h : uuid = 0x0100 ∨ uuid = 0x1105) :
    search uuid = [objectPush] := by
  rcases h with rfl | rfl <;> decide

theorem search_pnpInformation : search 0x1200 = [pnpInformation] := by decide

/-- Which requests are answered, and what a peer reads in an answer. -/
theorem Asks.answer {packet : Packet} {uuid : UInt16} (h : Asks packet uuid) (g : Globals) :
    (sdp g packet ≠ [] ↔ uuid = 0x0100 ∨ uuid = 0x1105 ∨ uuid = 0x1200) ∧
      ∀ frame ∈ sdp g packet, readResponse frame = some ⟨transaction packet, search uuid⟩ := by
  have hpush : (packet 17 = 0x01 ∧ packet 18 = 0x00) ∨ (packet 17 = 0x11 ∧ packet 18 = 0x05) ↔
      uuid = 0x0100 ∨ uuid = 0x1105 :=
    or_congr (h.bytes_iff 0x01 0x00) (h.bytes_iff 0x11 0x05)
  have hpnp : packet 17 = 0x12 ∧ packet 18 = 0x00 ↔ uuid = 0x1200 := h.bytes_iff 0x12 0x00
  rw [sdp, if_pos h.command]
  split_ifs with hfirst hsecond
  · refine ⟨iff_of_true (List.cons_ne_nil _ _) ((hpush.mp hfirst).imp_right Or.inl), ?_⟩
    simp only [List.mem_singleton, forall_eq]
    rw [search_objectPush (hpush.mp hfirst)]
    exact readResponse_attRes g packet (by decide) (by decide) (by decide) readRecords_obexPush
  · refine ⟨iff_of_true (List.cons_ne_nil _ _) (Or.inr (Or.inr (hpnp.mp hsecond))), ?_⟩
    simp only [List.mem_singleton, forall_eq]
    rw [hpnp.mp hsecond, search_pnpInformation]
    exact readResponse_attRes g packet (by decide) (by decide) (by decide) readRecords_pnp
  · refine ⟨iff_of_false (fun hnone => hnone rfl) ?_, by simp⟩
    rintro (hl2cap | hobex | hdevice)
    · exact hfirst (hpush.mpr (Or.inl hl2cap))
    · exact hfirst (hpush.mpr (Or.inr hobex))
    · exact hsecond (hpnp.mpr hdevice)

theorem frameCid_sdp {g : Globals} {packet : Packet} {frame : Frame} (h : frame ∈ sdp g packet) :
    frameCid frame = g.srcCid := by
  unfold sdp at h
  split_ifs at h
  · obtain rfl := List.mem_singleton.mp h
    exact frameCid_attRes g packet (by decide)
  · obtain rfl := List.mem_singleton.mp h
    exact frameCid_attRes g packet (by decide)
  · cases h
  · cases h

/-- **Searching for one UUID.**  A request that the multiplexer sends to SDP is answered if
the UUID is one of three, and an answer holds what the search finds, and goes to the peer's
latest channel. -/
theorem sdp_search {g : Globals} {packet : Packet} {uuid : UInt16} (hacl : packet 0 = 0x02)
    (hsdp : multiplex g packet = .sdp) (hasks : Asks packet uuid) :
    ((hostRcvPkt g packet).queued ≠ [] ↔ uuid = 0x0100 ∨ uuid = 0x1105 ∨ uuid = 0x1200) ∧
      ∀ frame ∈ (hostRcvPkt g packet).queued, frameCid frame = g.srcCid ∧
        readResponse frame = some ⟨transaction packet, search uuid⟩ := by
  have hqueued : (hostRcvPkt g packet).queued = sdp g packet := by
    rw [hostRcvPkt_acl g hacl, l2capCmdHandler, hsdp]
  obtain ⟨hanswered, hread⟩ := hasks.answer g
  rw [hqueued]
  exact ⟨hanswered, fun frame hframe => ⟨frameCid_sdp hframe, hread frame hframe⟩⟩

/-- An OBEX channel and a later one for SDP. -/
def twoChannels : Globals := { initial with obexCid := 0x40, srcCid := 0x51, destCid := 0x42 }

theorem sdp_search_attributes :
    ((hostRcvPkt twoChannels (attributePacket 0x41)).queued ≠ [] ↔
        (0x0100 : UInt16) = 0x0100 ∨ (0x0100 : UInt16) = 0x1105 ∨ (0x0100 : UInt16) = 0x1200) ∧
      ∀ frame ∈ (hostRcvPkt twoChannels (attributePacket 0x41)).queued,
        frameCid frame = twoChannels.srcCid ∧
          readResponse frame = some ⟨transaction (attributePacket 0x41), search 0x0100⟩ :=
  sdp_search (by decide) (by decide) ⟨rfl, by decide, rfl⟩

end HydroponicCloset.Discovery
