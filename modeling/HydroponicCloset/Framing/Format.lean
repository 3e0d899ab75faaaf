import HydroponicCloset.Bluetooth.L2cap

/-!
# Well-framed packets

`WellFramed` describes what a queue entry must be for the send task and for the
controller: the length in front, the packet type, and the lengths nested inside,
each of which must account for the bytes that follow it.

There is one lemma for each way in which `bt_main.c` lays out a frame:
`hciCommand_wellFramed`, `signal_wellFramed` and `attRes_wellFramed`.  They
reduce the frame to the arithmetic of its lengths.
-/

namespace HydroponicCloset.Framing

open CMemory Wire Bluetooth

/-! ## The formats -/

/-- An HCI command packet: type, opcode, and parameters of the length given. -/
def HciCommand (bytes : List UInt8) : Prop :=
  ∃ (opcode : UInt16) (paramLen : UInt8) (params : List UInt8),
    bytes = 0x01 :: (le16 opcode ++ paramLen :: params) ∧ paramLen.toNat = params.length

/-- An ACL packet that carries the L2CAP payload `pdu`. -/
def AclPacket (pdu bytes : List UInt8) : Prop :=
  ∃ aclFlags aclLen l2capLen cid : UInt16,
    bytes = 0x02 :: (le16 aclFlags ++ le16 aclLen ++ le16 l2capLen ++ le16 cid ++ pdu) ∧
      aclLen.toNat = pdu.length + 4 ∧ l2capLen.toNat = pdu.length

/-- The data of a signalling command: a Configuration Request has options after
four bytes, a Configuration Response after six. -/
def SignalData (code : UInt8) (data : List UInt8) : Prop :=
  (code = 0x04 → 4 ≤ data.length ∧ Options (data.drop 4)) ∧
    (code = 0x05 → 6 ≤ data.length ∧ Options (data.drop 6))

/-- A signalling command that answers one with the identifier `answered`. -/
def Signal (answered : UInt8) (pdu : List UInt8) : Prop :=
  ∃ (code identifier : UInt8) (length : UInt16) (data : List UInt8),
    pdu = code :: identifier :: (le16 length ++ data) ∧ length.toNat = data.length ∧
      (answered ≠ 0 → identifier ≠ 0) ∧ SignalData code data

/-- An SDP packet: PDU id, transaction id, and parameters of the length given. -/
def SdpPdu (pdu : List UInt8) : Prop :=
  ∃ (id : UInt8) (transaction paramLen : UInt16) (params : List UInt8),
    pdu = id :: (be16 transaction ++ be16 paramLen ++ params) ∧ paramLen.toNat = params.length

/-- What a frame answers. -/
inductive Answered
  | hci
  | signalling (identifier : UInt8)
  | sdp

/-- The `n` bytes behind the length. -/
def Payload : Answered → List UInt8 → Prop
  | .hci, bytes => HciCommand bytes
  | .signalling identifier, bytes => ∃ pdu, AclPacket pdu bytes ∧ Signal identifier pdu
  | .sdp, bytes => ∃ pdu, AclPacket pdu bytes ∧ SdpPdu pdu

/-- A queue entry: a length, that many bytes, and whatever else is in the
buffer. -/
def WellFramed (answered : Answered) (frame : Frame) : Prop :=
  ∃ (n : UInt16) (bytes rest : List UInt8), frame = be16 n ++ bytes ++ rest ∧
    n.toNat = bytes.length ∧ 0 < n.toNat ∧ n.toNat + 2 ≤ maxCmdLen ∧ Payload answered bytes

/-! ## The encoders -/

/-- A frame whose bytes start with a length and that many bytes. -/
theorem wellFramed_of_eq {answered : Answered} {n : ℕ} {bytes rest : List UInt8}
    (hn : n = bytes.length) (hpos : 0 < n) (hmax : n + 2 ≤ maxCmdLen)
    (hpayload : Payload answered bytes) :
    WellFramed answered
      (uint8ToStream (n / 256) ++ uint8ToStream (n % 256) ++ bytes ++ rest) := by
  have hlt : n < 65536 := by
    rw [maxCmdLen] at hmax
    omega
  have htoNat : (UInt16.ofNat n).toNat = n := by
    rw [UInt16.toNat_ofNat']
    omega
  refine ⟨UInt16.ofNat n, bytes, rest, by rw [uint8ToStream_be16 hlt], ?_, ?_, ?_, hpayload⟩
  · rw [htoNat, hn]
  · rwa [htoNat]
  · rwa [htoNat]

/-- The layout of HCI commands, in a buffer that may hold an older command. -/
theorem hciCommand_wellFramed (buf : Buffer) {n : ℕ} (opcode : UInt16) {params : List UInt8}
    (hn : n < 256) (hparams : params.length ≤ n) :
    WellFramed .hci (queuePacket (buf.write 0 (hciCommand (hciH4CmdPreambleSize + n) opcode n
      params))) := by
  have hlen : (hciCommand (hciH4CmdPreambleSize + n) opcode n params).length =
      params.length + 6 := by
    simp [hciCommand]
    omega
  have hmax : maxCmdLen = params.length + 6 + (maxCmdLen - (params.length + 6)) := by
    rw [maxCmdLen]
    omega
  -- the parameters, and as much of the older command as completes them
  let stale := slice (buf.write 0 (hciCommand (hciH4CmdPreambleSize + n) opcode n params)).bytes
    (params.length + 6) (maxCmdLen - (params.length + 6))
  have hstale : stale.length = maxCmdLen - (params.length + 6) := slice_length _ _ _
  rw [maxCmdLen] at hstale
  have hframe : queuePacket (buf.write 0 (hciCommand (hciH4CmdPreambleSize + n) opcode n params)) =
      uint8ToStream ((hciH4CmdPreambleSize + n) / 256) ++
        uint8ToStream ((hciH4CmdPreambleSize + n) % 256) ++
        (0x01 :: (le16 opcode ++ UInt8.ofNat n :: (params ++ stale.take (n - params.length)))) ++
        stale.drop (n - params.length) := by
    have hwrite := buf.write_slice (hciCommand (hciH4CmdPreambleSize + n) opcode n params)
    rw [hlen] at hwrite
    rw [queuePacket, hmax, slice_add, hwrite, Nat.zero_add]
    show _ ++ stale = _
    conv_lhs => rw [← List.take_append_drop (n - params.length) stale]
    simp [hciCommand, uint8ToStream, uint16ToStream, h4TypeCommand]
  have htotal : (params ++ stale.take (n - params.length)).length = n := by
    rw [List.length_append, List.length_take, hstale]
    omega
  rw [hframe]
  refine wellFramed_of_eq ?_ (by rw [hciH4CmdPreambleSize]; omega) ?_ ⟨opcode, _, _, rfl, ?_⟩
  · rw [List.length_cons, List.length_append, List.length_cons, htotal]
    simp [hciH4CmdPreambleSize]
    omega
  · rw [maxCmdLen, hciH4CmdPreambleSize]
    omega
  · rw [htotal, UInt8.toNat_ofNat']
    omega

/-- The layout of signalling commands. -/
theorem signal_wellFramed {packLen code identifier n : ℕ}
    {aclFlags aclLen l2capLen sigChannel length : UInt16} {data : List UInt8} {answered : UInt8}
    (hn : data.length = n) (hpack : packLen = n + 13) (hmax : packLen + 2 ≤ maxCmdLen)
    (hacl : aclLen.toNat = n + 8) (hl2cap : l2capLen.toNat = n + 4)
    (hlength : length.toNat = n) (hdata : SignalData (UInt8.ofNat code) data)
    (hidentifier : answered ≠ 0 → UInt8.ofNat identifier ≠ 0) :
    WellFramed (.signalling answered) (queueFresh (signal packLen aclFlags aclLen l2capLen
      sigChannel code identifier length data)) := by
  let pdu := UInt8.ofNat code :: UInt8.ofNat identifier :: (le16 length ++ data)
  have hpdu : pdu.length = data.length + 4 := by
    simp [pdu]
    omega
  rw [queueFresh, queuePacket_cleared (by rw [signal_length]; omega), padded]
  have hbytes : signal packLen aclFlags aclLen l2capLen sigChannel code identifier length data =
      uint8ToStream (packLen / 256) ++ uint8ToStream (packLen % 256) ++
        (0x02 :: (le16 aclFlags ++ le16 aclLen ++ le16 l2capLen ++ le16 sigChannel ++ pdu)) := by
    simp [signal, aclHeader, uint8ToStream, uint16ToStream, h4TypeAcl, pdu]
  rw [hbytes]
  refine wellFramed_of_eq ?_ (by omega) hmax ⟨pdu, ⟨_, _, _, _, rfl, ?_, ?_⟩, _, _, _, _, rfl,
    hlength.trans hn.symm, hidentifier, hdata⟩
  · simp [hpdu]
    omega
  · omega
  · omega

/-- The layout of SDP responses. -/
theorem attRes_wellFramed (g : Globals) (packet : Packet) (bigEndian : UInt16) {packLen : ℕ}
    {aclLen l2capLen paramLen count : UInt16} {attributes : List UInt8} {n : ℕ}
    (hn : attributes.length = n) (hpack : packLen = n + 17) (hmax : packLen + 2 ≤ maxCmdLen)
    (hacl : aclLen.toNat = n + 12) (hl2cap : l2capLen.toNat = n + 8)
    (hparam : le16 paramLen = be16 bigEndian) (hlength : bigEndian.toNat = n + 3) :
    WellFramed .sdp (queueFresh (attRes g packet packLen aclLen l2capLen paramLen count
      attributes)) := by
  let pdu := (0x07 : UInt8) :: (be16 (word (packet 10) (packet 11)) ++ be16 bigEndian ++
    (le16 count ++ attributes ++ [0]))
  have hpdu : pdu.length = attributes.length + 8 := by
    simp [pdu]
    omega
  have hlen : (attRes g packet packLen aclLen l2capLen paramLen count attributes).length =
      attributes.length + 19 := by
    simp [attRes]
    omega
  rw [queueFresh, queuePacket_cleared (by rw [hlen]; omega), padded]
  have hbytes : attRes g packet packLen aclLen l2capLen paramLen count attributes =
      uint8ToStream (packLen / 256) ++ uint8ToStream (packLen % 256) ++
        (0x02 :: (le16 packet.aclFlags ++ le16 aclLen ++ le16 l2capLen ++ le16 g.srcCid ++
          pdu)) := by
    simp [attRes, aclHeader, uint8ToStream, uint16ToStream, h4TypeAcl, pdu, hparam, be16]
  rw [hbytes]
  refine wellFramed_of_eq ?_ (by omega) hmax ⟨pdu, ⟨_, _, _, _, rfl, ?_, ?_⟩, _, _, _, _, rfl, ?_⟩
  · simp [hpdu]
    omega
  · omega
  · omega
  · simp [hlength, hn]
    omega

/-- The identifier of a signalling command is the byte at offset 12. -/
theorem WellFramed.identifier {answered : UInt8} {frame : Frame}
    (h : WellFramed (.signalling answered) frame) (hne : answered ≠ 0) :
    frame.getD 12 0 ≠ 0 := by
  obtain ⟨n, bytes, rest, rfl, -, -, -, pdu, hacl, hsignal⟩ := h
  obtain ⟨aclFlags, aclLen, l2capLen, cid, rfl, -, -⟩ := hacl
  obtain ⟨code, identifier, length, data, rfl, -, hidentifier, -⟩ := hsignal
  exact hidentifier hne

/-- An entry that starts with two zeros is no frame. -/
theorem not_wellFramed_of_zero {answered : Answered} {rest : List UInt8} :
    ¬ WellFramed answered (0 :: 0 :: rest) := by
  rintro ⟨n, bytes, rest', heq, -, hpos, -⟩
  obtain ⟨hhigh, htail⟩ := List.cons.inj heq
  obtain ⟨hlow, -⟩ := List.cons.inj htail
  have hn : n = 0 := by rw [← word_high_low n, ← hhigh, ← hlow]; rfl
  rw [hn] at hpos
  exact absurd hpos (by decide)

end HydroponicCloset.Framing
