import HydroponicCloset.Bluetooth.ConfReq
import HydroponicCloset.Lib.Lists
import HydroponicCloset.Obex.Replies

/-!
# Sequence numbers

A frame of the OBEX channel has two control bytes, at offsets 11 and 12 of the
queue entry.  An I-frame has a zero in the lowest bit and carries its own number
(TxSeq) and the number it expects next (ReqSeq); a receiver-ready frame carries
the second only.  Both numbers have six bits, and the two bits above ReqSeq say
how a message is split over frames.

`InSequence t r` is what the control bytes of a frame must be that answers an
I-frame with numbers `t` and `r`.  `obex_ftp` gets them right with two exceptions
(`inSequence_iff`): the reply to Connect has constants in their place, and `t + 1`
is stored without its carry being cut off, so that after 63 it runs into the bits
above.

The second part is about whole runs.  The receiver-ready frames follow from the
I-frames alone (`receive_window`): one for every eighth, wherever S-frames come in
between.
-/

namespace HydroponicCloset.Obex

open CMemory Wire Runs Bluetooth

/-! ## The control bytes of a frame -/

/-- The low byte of the control field. -/
def firstControl (frame : Frame) : UInt8 := frame.getD 11 0

/-- The high byte of the control field. -/
def secondControl (frame : Frame) : UInt8 := frame.getD 12 0

/-- The number of an I-frame. -/
def frameTxSeq (frame : Frame) : ℕ := ((firstControl frame &&& 0b01111110) >>> 1).toNat

/-- The number that is expected from the peer next. -/
def frameReqSeq (frame : Frame) : ℕ := (secondControl frame &&& 0b00111111).toNat

/-- The bits that say how a message is segmented; reserved in an S-frame. -/
def frameSar (frame : Frame) : ℕ := (secondControl frame >>> 6).toNat

/-- The frame carries data. -/
def IFrame (frame : Frame) : Prop := firstControl frame &&& 0b00000001 = 0

/-- An S-frame whose function bits are those of receiver-ready. -/
def ReceiverReady (frame : Frame) : Prop := firstControl frame &&& 0b00001101 = 0b00000001

instance (frame : Frame) : Decidable (IFrame frame) := inferInstanceAs (Decidable (_ = _))

instance (frame : Frame) : Decidable (ReceiverReady frame) := inferInstanceAs (Decidable (_ = _))

/-- The answer to an I-frame with the numbers `t` and `r`. -/
structure InSequence (t r : ℕ) (frame : Frame) : Prop where
  kind : firstControl frame = 0x01 ∨ firstControl frame &&& 0b10000001 = 0
  reqSeq_eq : frameReqSeq frame = (t + 1) % 64
  sar_eq : frameSar frame = 0
  txSeq_eq : IFrame frame → frameTxSeq frame = r

/-! ## Six bits -/

theorem ofNat_low_six {m : ℕ} (h : m < 256) :
    (UInt8.ofNat m &&& 0b00111111).toNat = m % 64 := by
  have hand := Nat.and_two_pow_sub_one_eq_mod m 6
  rw [UInt8.toNat_and, UInt8.toNat_ofNat', Nat.mod_eq_of_lt h]
  exact hand

theorem ofNat_high_two {m : ℕ} (h : m < 256) : (UInt8.ofNat m >>> 6).toNat = m / 64 := by
  rw [UInt8.toNat_shiftRight, UInt8.toNat_ofNat', Nat.mod_eq_of_lt h, Nat.shiftRight_eq_div_pow]
  rfl

/-- The number of a frame, shifted up beside the frame type. -/
theorem ofNat_double : ∀ r < 64, UInt8.ofNat (r <<< 1) &&& 0b10000001 = 0 ∧
    UInt8.ofNat (r <<< 1) &&& 0b00001101 ≠ 0b00000001 ∧
    ((UInt8.ofNat (r <<< 1) &&& 0b01111110) >>> 1).toNat = r := by
  decide

/-- The control bytes of a frame that starts with a reply. -/
theorem control_of_isPrefix {g : Globals} {packet : Packet} {r : Reply} {frame : Frame}
    (h : r.frame g packet <+: frame) :
    r.control packet = [firstControl frame, secondControl frame] := by
  obtain ⟨rest, rfl⟩ := h
  cases r <;> rfl

/-! ## One call -/

section Call

variable {g : Globals} {packet : Packet} {frame : Frame}

/-- The next number in the second control byte overflows after 63. -/
theorem inSequence_next {r : ℕ} (hsecond : UInt8.ofNat (txSeq packet + 1) = secondControl frame)
    (hkind : firstControl frame = 0x01 ∨ firstControl frame &&& 0b10000001 = 0)
    (hnumber : IFrame frame → frameTxSeq frame = r) :
    InSequence (txSeq packet) r frame ↔ txSeq packet ≠ 63 := by
  have hlt := txSeq_lt packet
  have hsar : frameSar frame = (txSeq packet + 1) / 64 := by
    rw [frameSar, ← hsecond, ofNat_high_two (by omega)]
  constructor
  · intro hframe
    have hzero := hframe.sar_eq
    omega
  · intro hne
    refine ⟨hkind, ?_, by omega, hnumber⟩
    rw [frameReqSeq, ← hsecond, ofNat_low_six (by omega)]

/-- An acknowledgement has no number of its own. -/
theorem inSequence_ack (h : Reply.ack.frame g packet <+: frame) :
    InSequence (txSeq packet) (reqSeq packet) frame ↔ txSeq packet ≠ 63 := by
  obtain ⟨hfirst, hsecond⟩ : 0x01 = firstControl frame ∧
      UInt8.ofNat (txSeq packet + 1) = secondControl frame := by
    simpa [Reply.control] using control_of_isPrefix h
  apply inSequence_next hsecond (Or.inl hfirst.symm)
  intro hiFrame
  rw [IFrame, ← hfirst] at hiFrame
  cases hiFrame

/-- The reply to Connect answers an I-frame with two zeros. -/
theorem inSequence_connect (h : Reply.connect.frame g packet <+: frame) :
    InSequence (txSeq packet) (reqSeq packet) frame ↔ txSeq packet = 0 ∧ reqSeq packet = 0 := by
  have hlt := txSeq_lt packet
  obtain ⟨hfirst, hsecond⟩ : 0x00 = firstControl frame ∧ 0x01 = secondControl frame := by
    simpa [Reply.control] using control_of_isPrefix h
  have hreqSeq : frameReqSeq frame = 1 := by rw [frameReqSeq, ← hsecond]; rfl
  have htxSeq : frameTxSeq frame = 0 := by rw [frameTxSeq, ← hfirst]; rfl
  have hiFrame : IFrame frame := by rw [IFrame, ← hfirst]; rfl
  constructor
  · intro hframe
    have hnext := hframe.reqSeq_eq
    have hnumber := hframe.txSeq_eq hiFrame
    omega
  · rintro ⟨ht, hr⟩
    refine ⟨Or.inr (by rw [← hfirst]; rfl), by omega, by rw [frameSar, ← hsecond]; rfl, ?_⟩
    exact fun _ => htxSeq.trans hr.symm

/-- A reply to a header has the number that the peer expects. -/
theorem inSequence_header {r : Reply} (hr : r = .srm ∨ r = .endOfBody)
    (h : r.frame g packet <+: frame) :
    InSequence (txSeq packet) (reqSeq packet) frame ↔ txSeq packet ≠ 63 := by
  obtain ⟨hfirst, hsecond⟩ : UInt8.ofNat (reqSeq packet <<< 1) = firstControl frame ∧
      UInt8.ofNat (txSeq packet + 1) = secondControl frame := by
    have hcontrol := control_of_isPrefix h
    rcases hr with rfl | rfl <;> simpa [Reply.control] using hcontrol
  obtain ⟨hkind, -, hnumber⟩ := ofNat_double _ (reqSeq_lt packet)
  apply inSequence_next hsecond (Or.inr (by rw [← hfirst, hkind]))
  intro _
  rw [frameTxSeq, ← hfirst, hnumber]

/-- The numbers for which the encoder of a reply is right. -/
def Reply.Fits (packet : Packet) : Reply → Prop
  | .connect => txSeq packet = 0 ∧ reqSeq packet = 0
  | _ => txSeq packet ≠ 63

theorem inSequence_reply {r : Reply} (h : r.frame g packet <+: frame) :
    r.Fits packet ↔ InSequence (txSeq packet) (reqSeq packet) frame := by
  cases r with
  | ack => exact (inSequence_ack h).symm
  | connect => exact (inSequence_connect h).symm
  | srm => exact (inSequence_header (Or.inl rfl) h).symm
  | endOfBody => exact (inSequence_header (Or.inr rfl) h).symm

/-- The acknowledgement of number 63 is always due. -/
theorem ack_mem_replies (h : txSeq packet = 63) : Reply.ack ∈ replies packet := by
  have hdue : AckDue packet := by
    show (txSeq packet + 1) % 8 = 0
    omega
  exact mem_replies.mpr (Or.inl ⟨rfl, hdue⟩)

theorem connect_mem_replies (hiFrame : packet.frameType = 0) :
    Reply.connect ∈ replies packet ↔ packet.obexCommand = 0x00 := by
  rw [mem_replies, reply?_eq_connect_iff]
  constructor
  · rintro (⟨heq, -⟩ | ⟨-, hconnect⟩)
    · cases heq
    · exact hconnect
  · exact fun hconnect => Or.inr ⟨hiFrame, hconnect⟩

/-- **The sequence numbers of the answers to an I-frame** are right unless it has
the number 63, or is a Connect that is not the first frame. -/
theorem inSequence_iff (g : Globals) {packet : Packet} (hiFrame : packet.frameType = 0) :
    (∀ frame ∈ (obexFtp g packet).queued,
        InSequence (txSeq packet) (reqSeq packet) frame) ↔
      txSeq packet ≠ 63 ∧
        (packet.obexCommand = 0x00 → txSeq packet = 0 ∧ reqSeq packet = 0) := by
  have hreplies : (∀ r ∈ replies packet, r.Fits packet) ↔
      ∀ frame ∈ (obexFtp g packet).queued, InSequence (txSeq packet) (reqSeq packet) frame :=
    Lists.forall_mem_iff_of_forall₂ (fun _ _ h => inSequence_reply h) (obexFtp_frames g packet)
  rw [← hreplies]
  constructor
  · intro h
    refine ⟨fun hlast => ?_, fun hconnect => ?_⟩
    · exact h .ack (ack_mem_replies hlast) hlast
    · exact h .connect ((connect_mem_replies hiFrame).mpr hconnect)
  · rintro ⟨hne, hzero⟩ r hr
    cases r with
    | connect => exact hzero ((connect_mem_replies hiFrame).mp hr)
    | _ => exact hne

/-- A PUT I-frame without headers, with the number `t`. -/
def numbered (t : ℕ) : Packet :=
  .ofBytes [0x02, 0x00, 0x20, 12, 0, 8, 0, 0x41, 0x00, UInt8.ofNat (t <<< 1), 0x00, 0x82, 0x00,
    0x03, 0, 0]

theorem inSequence_numbered :
    (∀ frame ∈ (obexFtp initial (numbered 7)).queued,
        InSequence (txSeq (numbered 7)) (reqSeq (numbered 7)) frame) ↔
      txSeq (numbered 7) ≠ 63 ∧ ((numbered 7).obexCommand = 0x00 →
        txSeq (numbered 7) = 0 ∧ reqSeq (numbered 7) = 0) :=
  inSequence_iff initial (by decide)

/-- The acknowledgement of the frame with number 63. -/
theorem ack_overflows :
    (numbered 63).frameType = 0 ∧ (obexFtp initial (numbered 63)).next.isSome ∧
      ¬ ∀ frame ∈ (obexFtp initial (numbered 63)).queued,
        InSequence (txSeq (numbered 63)) (reqSeq (numbered 63)) frame := by
  refine ⟨by decide, by decide, fun h => ?_⟩
  have hack : (obexFtp initial (numbered 63)).queued =
      [queuePacket (recievedAck initial (numbered 63) .cleared).cmdBuf] := rfl
  have hsar := (h _ (by rw [hack]; exact List.mem_singleton.mpr rfl)).sar_eq
  exact absurd hsar (by decide)

end Call

/-! ## Runs -/

/-- `obex_ftp` as a machine that takes packets. -/
def handle (g : Globals) (packet : Packet) : Option Globals := (obexFtp g packet).next

/-- The frames it queues for a packet. -/
def sent (g : Globals) (packet : Packet) : List Frame := (obexFtp g packet).queued

/-- The ReqSeq of a receiver-ready frame. -/
def acknowledged (frame : Frame) : Option ℕ :=
  if ReceiverReady frame then some (frameReqSeq frame) else none

/-- What the receiver-ready frames for a packet acknowledge. -/
def acknowledges (packet : Packet) : List ℕ :=
  if AckDue packet then [(txSeq packet + 1) % 64] else []

/-- Of the replies only the acknowledgement is a receiver-ready frame. -/
theorem acknowledged_reply {g : Globals} {packet : Packet} {r : Reply} {frame : Frame}
    (h : r.frame g packet <+: frame) :
    acknowledged frame = if r = .ack then some ((txSeq packet + 1) % 64) else none := by
  have hlt := txSeq_lt packet
  have hcontrol := control_of_isPrefix h
  cases r with
  | ack =>
      obtain ⟨hfirst, hsecond⟩ : 0x01 = firstControl frame ∧
          UInt8.ofNat (txSeq packet + 1) = secondControl frame := by
        simpa [Reply.control] using hcontrol
      have hready : ReceiverReady frame := by rw [ReceiverReady, ← hfirst]; rfl
      rw [acknowledged, if_pos hready, if_pos rfl, frameReqSeq, ← hsecond,
        ofNat_low_six (by omega)]
  | connect =>
      obtain ⟨hfirst, -⟩ : 0x00 = firstControl frame ∧ 0x01 = secondControl frame := by
        simpa [Reply.control] using hcontrol
      have hready : ¬ ReceiverReady frame := by rw [ReceiverReady, ← hfirst]; decide
      rw [acknowledged, if_neg hready, if_neg nofun]
  | _ =>
      obtain ⟨hfirst, -⟩ : UInt8.ofNat (reqSeq packet <<< 1) = firstControl frame ∧
          UInt8.ofNat (txSeq packet + 1) = secondControl frame := by
        simpa [Reply.control] using hcontrol
      have hready : ¬ ReceiverReady frame := by
        rw [ReceiverReady, ← hfirst]
        exact (ofNat_double _ (reqSeq_lt packet)).2.1
      rw [acknowledged, if_neg hready, if_neg nofun]

theorem filterMap_replies (packet : Packet) :
    (replies packet).filterMap
        (fun r => if r = .ack then some ((txSeq packet + 1) % 64) else none) =
      acknowledges packet := by
  have hreply : (reply? packet).toList.filterMap
      (fun r => if r = .ack then some ((txSeq packet + 1) % 64) else none) = [] := by
    rw [List.filterMap_eq_nil_iff]
    intro r hr
    have hne : r ≠ .ack := by
      rintro rfl
      exact reply?_ne_ack packet (Option.mem_toList.mp hr)
    rw [if_neg hne]
  rw [replies, List.filterMap_append, hreply, List.append_nil, acknowledges]
  split_ifs <;> rfl

theorem filterMap_sent (g : Globals) (packet : Packet) :
    (sent g packet).filterMap acknowledged = acknowledges packet := by
  rw [← filterMap_replies packet]
  symm
  apply Lists.filterMap_eq_of_forall₂ _ (obexFtp_frames g packet)
  intro r frame h
  exact (acknowledged_reply h).symm

/-- The handler takes a frame for an I-frame. -/
def Numbered (packet : Packet) : Prop := packet.frameType = 0

instance (packet : Packet) : Decidable (Numbered packet) := inferInstanceAs (Decidable (_ = _))

/-- Bit 1 of the first control byte, which is reserved in an S-frame. -/
def Reserved (packet : Packet) : Prop := packet 9 &&& 0b00000010 = 0

instance (packet : Packet) : Decidable (Reserved packet) := inferInstanceAs (Decidable (_ = _))

/-- An acknowledgement is due after an odd number only, and the lowest bit of the
number is bit 1 of the control byte. -/
theorem not_ackDue {packet : Packet} (h : Reserved packet) : ¬ AckDue packet := by
  have hbit : (packet 9).toNat.testBit 1 = false := by
    have hand : (packet 9).toNat &&& 0b00000010 = 0 := by
      have hnat := congrArg UInt8.toNat h
      rwa [UInt8.toNat_and] at hnat
    have htest := Nat.testBit_and (packet 9).toNat 0b00000010 1
    rw [hand, show Nat.testBit 0b00000010 1 = true from rfl, Bool.and_true] at htest
    exact htest.symm.trans (Nat.zero_testBit 1)
  have heven : (txSeq packet).testBit 0 = false := by
    rw [txSeq, Packet.obexTxseq, UInt8.toNat_shiftRight, UInt8.toNat_and]
    show (((packet 9).toNat &&& 0b01111110) >>> 1).testBit 0 = false
    rw [Nat.testBit_shiftRight, Nat.testBit_and, hbit, Bool.false_and]
  rw [Nat.testBit_zero, decide_eq_false_iff_not] at heven
  show ¬ (txSeq packet + 1) % 8 = 0
  omega

theorem acknowledges_reserved {packet : Packet} (h : Reserved packet) :
    acknowledges packet = [] := by
  rw [acknowledges, if_neg (not_ackDue h)]

/-- S-frames do not count. -/
theorem flatMap_acknowledges {packets : List Packet}
    (hreserved : ∀ packet ∈ packets, ¬ Numbered packet → Reserved packet) :
    packets.flatMap acknowledges = (packets.filter fun p => Numbered p).flatMap acknowledges := by
  induction packets with
  | nil => rfl
  | cons packet rest ih =>
      obtain ⟨hpacket, hrest⟩ := List.forall_mem_cons.mp hreserved
      by_cases hnumbered : Numbered packet
      · rw [List.filter_cons_of_pos (by simpa using hnumbered), List.flatMap_cons,
          List.flatMap_cons, ih hrest]
      · rw [List.filter_cons_of_neg (by simpa using hnumbered), List.flatMap_cons,
          acknowledges_reserved (hpacket hnumbered), ih hrest, List.nil_append]

/-- The multiples of eight up to `n`, as six bits. -/
def eighths (n : ℕ) : List ℕ := (List.range (n / 8)).map fun k => 8 * (k + 1) % 64

/-- Every eighth of the numbers from zero on. -/
theorem flatMap_range (n : ℕ) :
    ((List.range n).map (· % 64)).flatMap
        (fun t => if (t + 1) % 8 = 0 then [(t + 1) % 64] else []) = eighths n := by
  induction n with
  | zero => rfl
  | succ n ih =>
      rw [List.range_succ, List.map_append, List.flatMap_append, ih, List.map_singleton,
        List.flatMap_singleton]
      by_cases hdue : (n % 64 + 1) % 8 = 0
      · have hnext : (n + 1) / 8 = n / 8 + 1 := by omega
        have hnumber : (n % 64 + 1) % 64 = 8 * (n / 8 + 1) % 64 := by omega
        rw [if_pos hdue, eighths, eighths, hnext, List.range_succ, List.map_append, hnumber]
        rfl
      · have hsame : (n + 1) / 8 = n / 8 := by omega
        rw [if_neg hdue, eighths, eighths, hsame, List.append_nil]

/-- The packets are S-frames with the reserved bit clear, and I-frames numbered
from zero on. -/
structure InOrder (packets : List Packet) : Prop where
  numbers : (packets.filter fun p => Numbered p).map txSeq =
    (List.range (packets.countP fun p => Numbered p)).map (· % 64)
  reserved : ∀ packet ∈ packets, ¬ Numbered packet → Reserved packet

theorem InOrder.of_append {first second : List Packet} (h : InOrder (first ++ second)) :
    InOrder first := by
  refine ⟨?_, fun packet hmem => h.reserved packet (List.mem_append_left _ hmem)⟩
  have hnumbers := h.numbers
  rw [List.filter_append, List.map_append, List.countP_append, List.range_add,
    List.map_append] at hnumbers
  exact (List.append_inj hnumbers (by simp [List.countP_eq_length_filter])).1

/-- **The receiver-ready frames of a run** acknowledge every eighth I-frame. -/
theorem acknowledged_trace {g g' : Globals} {packets : List Packet}
    (hrun : run handle g packets = some g') (horder : InOrder packets) :
    (trace handle sent g packets).filterMap acknowledged =
      eighths (packets.countP fun p => Numbered p) := by
  have hacknowledges : ∀ frames : List Packet, frames.flatMap acknowledges =
      (frames.map txSeq).flatMap fun t => if (t + 1) % 8 = 0 then [(t + 1) % 64] else [] := by
    intro frames
    rw [List.flatMap_map]
    rfl
  calc (trace handle sent g packets).filterMap acknowledged
      = packets.flatMap acknowledges := filterMap_trace filterMap_sent hrun
    _ = (packets.filter fun p => Numbered p).flatMap acknowledges :=
        flatMap_acknowledges horder.reserved
    _ = eighths (packets.countP fun p => Numbered p) := by
        rw [hacknowledges, horder.numbers, flatMap_range]

/-- An S-frame queues nothing. -/
theorem sent_reserved (g : Globals) {packet : Packet} (hnumbered : ¬ Numbered packet)
    (hreserved : Reserved packet) : sent g packet = [] := by
  have hframe : ¬ packet.frameType = 0 := hnumbered
  have hreply : reply? packet = none := by rw [reply?, if_neg hframe]
  have hreplies : replies packet = [] := by
    rw [replies, if_neg (not_ackDue hreserved), hreply]
    rfl
  have hframes := obexFtp_frames g packet
  rw [hreplies] at hframes
  exact List.forall₂_nil_left_iff.mp hframes

/-- **The receive window never closes.**  In a run of I-frames in order, with
S-frames anywhere between them, the receiver-ready frames acknowledge every eighth
I-frame, no S-frame is answered, and at no time are eight I-frames unacknowledged;
`conf_req` offers a window of ten. -/
theorem receive_window {g g' : Globals} {packets : List Packet}
    (hrun : run handle g packets = some g') (horder : InOrder packets) :
    (trace handle sent g packets).filterMap acknowledged =
        eighths (packets.countP fun p => Numbered p) ∧
      (∀ packet ∈ packets, ¬ Numbered packet → ∀ g, sent g packet = []) ∧
      (∀ first, first <+: packets → (first.countP fun p => Numbered p) <
        8 * ((trace handle sent g first).filterMap acknowledged).length + 8) ∧
      (ertm.getD 3 0).toNat = 10 := by
  refine ⟨acknowledged_trace hrun horder, ?_, ?_, by decide⟩
  · intro packet hmem hnumbered g
    exact sent_reserved g hnumbered (horder.reserved packet hmem hnumbered)
  · rintro first ⟨second, rfl⟩
    obtain ⟨mid, hfirst, -⟩ := run_append_eq_some hrun
    rw [acknowledged_trace hfirst horder.of_append, eighths, List.length_map, List.length_range]
    omega

/-- A receiver-ready frame of the peer. -/
def supervisory : Packet :=
  .ofBytes [0x02, 0x00, 0x20, 8, 0, 4, 0, 0x41, 0x00, 0x01, 0x01, 0, 0]

/-- Nine I-frames, with an S-frame after the third. -/
def interleaved : List Packet :=
  [0, 1, 2].map numbered ++ supervisory :: [3, 4, 5, 6, 7, 8].map numbered

theorem receive_window_interleaved :
    ∃ g', run handle initial interleaved = some g' ∧
      (trace handle sent initial interleaved).filterMap acknowledged =
          eighths (interleaved.countP fun p => Numbered p) ∧
        (∀ packet ∈ interleaved, ¬ Numbered packet → ∀ g, sent g packet = []) ∧
        (∀ first, first <+: interleaved → (first.countP fun p => Numbered p) <
          8 * ((trace handle sent initial first).filterMap acknowledged).length + 8) ∧
        (ertm.getD 3 0).toNat = 10 := by
  obtain ⟨g', hrun⟩ := Option.isSome_iff_exists.mp
    (show (run handle initial interleaved).isSome = true by decide)
  exact ⟨g', hrun, receive_window hrun ⟨by decide, by decide⟩⟩

end HydroponicCloset.Obex
