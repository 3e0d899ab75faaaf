import HydroponicCloset.Lib.Crc
import HydroponicCloset.Obex.Sequence

/-!
# The frame check sequence of the OBEX frames

The FCS of a Bluetooth frame is the check with generator `x¹⁶ + x¹⁵ + x² + 1`,
least significant bit first, that starts from zero.  `crc16` computes it by table:
`crc16_eq_bitwise`.

`Checked frame n` says that a queue entry is a frame of `n` bytes behind its
length, with lengths that agree, and that it ends with the FCS of what lies between
the L2CAP length and the FCS.  Every frame that `obex_ftp` queues is
(`queued_checked`), and a receiver that runs the check over such a frame and its FCS
gets zero (`Checked.receiver_zero`).
-/

namespace HydroponicCloset.Obex

open CMemory Wire Bluetooth

/-! ## The table -/

/-- `x¹⁶ + x¹⁵ + x² + 1` -/
def generator : BitVec 16 := Crc.reflected 16 [15, 2, 0]

/-- The FCS, bit by bit. -/
def fcs (bytes : List UInt8) : UInt16 := ⟨Crc.bitwise generator 0 bytes⟩

/-- The table, as bit vectors. -/
def crcWords : List (BitVec 16) := crc16Table.map UInt16.toBitVec

/-- All 256 words. -/
theorem crcWords_isTable : Crc.IsTable generator crcWords := by
  unfold Crc.IsTable
  decide +kernel

/-- One byte: the code masks the low byte out of the sum of two words. -/
theorem crc16Byte_toBitVec (crc : UInt16) (byte : UInt8) :
    (crc16Byte crc byte).toBitVec = Crc.tableStep crcWords crc.toBitVec byte := by
  have hindex : ((crc ^^^ byte.toUInt16) &&& 0xff).toNat =
      (crc.toBitVec.setWidth 8 ^^^ byte.toBitVec).toNat := by
    rw [UInt16.toNat_and]
    show ((crc ^^^ byte.toUInt16).toNat &&& (2 ^ 8 - 1)) = _
    rw [Nat.and_two_pow_sub_one_eq_mod]
    have hsum : crc.toBitVec.setWidth 8 ^^^ byte.toBitVec =
        (crc ^^^ byte.toUInt16).toBitVec.setWidth 8 := by
      simp
    rw [hsum, BitVec.toNat_setWidth]
    rfl
  have hentry : ∀ i, (crc16Table.getD i 0).toBitVec = crcWords.getD i 0#16 := by
    intro i
    rw [crcWords, List.getD_eq_getElem?_getD, List.getD_eq_getElem?_getD, List.getElem?_map]
    cases crc16Table[i]? <;> rfl
  rw [crc16Byte, UInt16.toBitVec_xor, hentry, hindex, Crc.tableStep]
  rfl

/-- **`crc16` is the bitwise check**, from any initial value. -/
theorem crc16_toBitVec (crc : UInt16) (bytes : List UInt8) :
    (crc16 crc bytes).toBitVec = Crc.bitwise generator crc.toBitVec bytes := by
  rw [← Crc.bitwise_eq_tableDriven (by decide) crcWords_isTable]
  induction bytes generalizing crc with
  | nil => rfl
  | cons byte rest ih =>
      calc (crc16 crc (byte :: rest)).toBitVec
          = rest.foldl (Crc.tableStep crcWords) (crc16Byte crc byte).toBitVec := ih _
        _ = (byte :: rest).foldl (Crc.tableStep crcWords) crc.toBitVec := by
            rw [crc16Byte_toBitVec, List.foldl_cons]

theorem crc16_zero (bytes : List UInt8) : crc16 0 bytes = fcs bytes :=
  UInt16.toBitVec_inj.mp (crc16_toBitVec 0 bytes)

/-! ## Lengths -/

/-- The length for the send task, which comes first in a frame. -/
def lengthPrefix (frame : Frame) : ℕ := (word (frame.getD 0 0) (frame.getD 1 0)).toNat

/-- The length field of the ACL header. -/
def frameAclLen (frame : Frame) : ℕ := (word (frame.getD 6 0) (frame.getD 5 0)).toNat

/-- The length field of the L2CAP header. -/
def frameL2capLen (frame : Frame) : ℕ := (word (frame.getD 8 0) (frame.getD 7 0)).toNat

/-- The length field of an OBEX response. -/
def frameObexLen (frame : Frame) : ℕ := (word (frame.getD 14 0) (frame.getD 15 0)).toNat

/-- The `n` bytes behind the length are a frame with correct lengths and a correct
FCS. -/
structure Checked (frame : Frame) (n : ℕ) : Prop where
  length_eq : lengthPrefix frame = n
  fits : n + 2 ≤ frame.length
  acl_eq : frameAclLen frame + 5 = n
  l2cap_eq : frameL2capLen frame + 9 = n
  obex_eq : IFrame frame → frameObexLen frame + 13 = n
  fcs_eq : (frame.drop n).take 2 = le16 (fcs ((frame.drop 7).take (n - 7)))

/-- The bits of a word, byte by byte. -/
theorem lowBits_le16 (u : UInt16) :
    (le16 u).flatMap (fun byte => Crc.lowBits byte.toBitVec 8) = Crc.lowBits u.toBitVec 16 := by
  have hsplit : List.range 16 = List.range 8 ++ (List.range 8).map (8 + ·) := rfl
  simp only [le16, List.flatMap_cons, List.flatMap_nil, List.append_nil, Crc.lowBits]
  rw [hsplit, List.map_append, List.map_map]
  congr 1
  · apply List.map_congr_left
    intro i hi
    simp [List.mem_range.mp hi]
  · apply List.map_congr_left
    intro i hi
    simp [List.mem_range.mp hi]

/-- **The receiver** checks a frame together with its FCS, and gets zero. -/
theorem Checked.receiver_zero {frame : Frame} {n : ℕ} (h : Checked frame n) :
    fcs ((frame.drop 7).take (n - 5)) = 0 := by
  have hl2cap := h.l2cap_eq
  let region := (frame.drop 7).take (n - 7)
  have hsplit : (frame.drop 7).take (n - 5) = region ++ le16 (fcs region) := by
    rw [← h.fcs_eq, show n - 5 = n - 7 + 2 by omega, List.take_add, List.drop_drop,
      show 7 + (n - 7) = n by omega]
  have hbits : Crc.bitwise generator (fcs region).toBitVec (le16 (fcs region)) = 0 := by
    have hself := Crc.feed_self generator (fcs region).toBitVec
    rwa [← lowBits_le16] at hself
  apply UInt16.toBitVec_inj.mp
  show Crc.bitwise generator 0 _ = 0
  rw [hsplit, Crc.bitwise_append]
  exact hbits

/-- The lengths in an ACL header. -/
theorem lengths_aclHeader {packLen : ℕ} (h : packLen < 65536)
    (aclFlags aclLen l2capLen cid : UInt16) (rest : List UInt8) :
    lengthPrefix (aclHeader packLen aclFlags aclLen l2capLen cid ++ rest) = packLen ∧
      frameAclLen (aclHeader packLen aclFlags aclLen l2capLen cid ++ rest) = aclLen.toNat ∧
      frameL2capLen (aclHeader packLen aclFlags aclLen l2capLen cid ++ rest) =
        l2capLen.toNat := by
  refine ⟨?_, congrArg UInt16.toNat (word_high_low aclLen),
    congrArg UInt16.toNat (word_high_low l2capLen)⟩
  show (word (UInt8.ofNat (packLen / 256)) (UInt8.ofNat (packLen % 256))).toNat = packLen
  rw [word_toNat, UInt8.toNat_ofNat', UInt8.toNat_ofNat']
  omega

/-- The length in a response: the opcode, the two bytes themselves, and the rest. -/
theorem obexLen_reply {g : Globals} {packet : Packet} {r : Reply} {frame : Frame}
    (h : r.frame g packet <+: frame) (hiFrame : IFrame frame) :
    frameObexLen frame = (r.pdu g packet).length - 2 := by
  obtain ⟨rest, rfl⟩ := h
  rw [frameObexLen, word_toNat, Reply.pdu_length]
  cases r with
  | ack =>
      have hfirst : firstControl (Reply.ack.frame g packet ++ rest) = 0x01 := rfl
      rw [IFrame, hfirst] at hiFrame
      cases hiFrame
  | _ => rfl

/-- **A queue entry that starts with a reply** is a checked frame. -/
theorem checked_reply {g : Globals} {packet : Packet} {r : Reply} {frame : Frame}
    (h : r.frame g packet <+: frame) : Checked frame ((r.pdu g packet).length + 11) := by
  have hobex := obexLen_reply h
  have hlayout := r.layout_length g packet
  have hrange : 2 ≤ (r.pdu g packet).length ∧ (r.pdu g packet).length ≤ 14 := by
    rw [Reply.pdu_length]
    cases r <;> decide
  have hfits := h.length_le
  rw [Reply.frame_length] at hfits
  obtain ⟨rest, rfl⟩ := h
  have hsplit : r.frame g packet ++ rest =
      r.layout g packet ++ (le16 (fcs ((r.layout g packet).drop 7)) ++ rest) := by
    rw [Reply.frame, crc16_zero, List.append_assoc]
  obtain ⟨hlength, hacl, hl2cap⟩ :
      lengthPrefix (r.frame g packet ++ rest) = (r.pdu g packet).length + 11 ∧
        frameAclLen (r.frame g packet ++ rest) = (r.pdu g packet).length + 6 ∧
        frameL2capLen (r.frame g packet ++ rest) = (r.pdu g packet).length + 2 := by
    have hsix : (UInt16.ofNat ((r.pdu g packet).length + 6)).toNat =
        (r.pdu g packet).length + 6 := by
      rw [UInt16.toNat_ofNat']
      omega
    have htwo : (UInt16.ofNat ((r.pdu g packet).length + 2)).toNat =
        (r.pdu g packet).length + 2 := by
      rw [UInt16.toNat_ofNat']
      omega
    rw [hsplit, Reply.layout, List.append_assoc, ← hsix, ← htwo, UInt16.ofNat_toNat,
      UInt16.ofNat_toNat]
    exact lengths_aclHeader (by omega) packet.aclFlags _ _ g.srcCid _
  refine ⟨hlength, hfits, by omega, by omega, fun hiFrame => ?_, ?_⟩
  · rw [hobex hiFrame]
    omega
  · have hregion : ((r.frame g packet ++ rest).drop 7).take ((r.pdu g packet).length + 11 - 7) =
        (r.layout g packet).drop 7 := by
      rw [hsplit, List.drop_append_of_le_length (by omega), List.take_append_of_le_length
        (by rw [List.length_drop]; omega), List.take_of_length_le (by rw [List.length_drop]; omega)]
    rw [hregion, hsplit, ← hlayout, List.drop_left]
    rfl

/-- **Every frame that `obex_ftp` queues** is checked, all of it was streamed since the
pointer was set back to the front of the buffer for it, and the FCS of `crc16` is
the bitwise check. -/
theorem queued_checked (g : Globals) (packet : Packet) :
    (obexFtp g packet).queued = ((queuedBuffers g packet).map fun c => queuePacket c.cmdBuf) ∧
      (∀ c ∈ queuedBuffers g packet,
        ∃ n, n + 2 ≤ c.buf ∧ Checked (queuePacket c.cmdBuf) n) ∧
      ∀ crc bytes, (crc16 crc bytes).toBitVec = Crc.bitwise generator crc.toBitVec bytes := by
  refine ⟨obexFtp_queued g packet, ?_, crc16_toBitVec⟩
  intro c hc
  obtain ⟨r, -, hcarries⟩ := Lists.exists_of_forall₂ (obexFtp_carries g packet) hc
  refine ⟨(r.pdu g packet).length + 11, ?_, ?_⟩
  · have hstreamed := hcarries.streamed
    rwa [Reply.frame_length] at hstreamed
  · exact checked_reply (hcarries.isPrefix (r.frame_length_le g packet))

end HydroponicCloset.Obex
