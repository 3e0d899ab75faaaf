import HydroponicCloset.Lib.CrcErrors
import HydroponicCloset.Obex.Fcs

/-!
# Errors on the way to the peer

The FCS is there for the peer to notice when a frame has been damaged.
`corrupted_rejected` says what it notices: in any frame that `obex_ftp` queues, one, two or
any odd number of wrong bits, and any wrong bits that lie within sixteen.
-/

namespace HydroponicCloset.Obex

open CMemory Wire Bluetooth Crc

/-- The bits of some bytes, as the check takes them. -/
def bits (bytes : List UInt8) : List Bool := bytes.flatMap fun byte => lowBits byte.toBitVec 8

/-- What the peer checks of a frame: everything from the L2CAP length to the FCS. -/
def covered (frame : Frame) : List UInt8 := (frame.drop 7).take (lengthPrefix frame - 5)

/-- Wrong bits that the peer notices. -/
def Detectable (errors : List Bool) : Prop :=
  errors.count true % 2 = 1 ∨ errors.count true = 2 ∨
    ∃ before burst after,
      errors = List.replicate before false ++ burst ++ List.replicate after false ∧
        burst.length ≤ 16 ∧ true ∈ burst

theorem bits_length (bytes : List UInt8) : (bits bytes).length = 8 * bytes.length := by
  induction bytes with
  | nil => rfl
  | cons byte rest ih =>
      have hbyte : (lowBits byte.toBitVec 8).length = 8 := by simp [lowBits]
      rw [bits, List.flatMap_cons, List.length_append, hbyte, List.length_cons]
      show 8 + (bits rest).length = _
      omega

theorem generator_top : generator.getLsbD 15 = true := by decide

theorem generator_odd : registerParity generator = true := by decide

/-- The register stays away from one for longer than any frame. -/
theorem generator_avoids : avoids generator 1#16 160 generator = true := by decide +kernel

theorem check_ne_zero {errors : List Bool} (hlength : errors.length ≤ 160)
    (h : Detectable errors) : feed generator 0#16 errors ≠ 0#16 := by
  rcases h with hodd | hpair | ⟨before, burst, after, rfl, hburst, herror⟩
  · exact odd_ne_zero generator_odd hodd
  · refine pair_ne_zero generator_top ?_ hpair
    intro k hk
    exact shifts_ne_of_avoids generator_avoids (by omega)
  · exact burst_ne_zero generator_top hburst herror before after

/-- What is covered of a queued frame, and how long it is. -/
theorem covered_queued {g : Globals} {packet : Packet} {frame : Frame}
    (h : frame ∈ (obexFtp g packet).queued) :
    crc16 0 (covered frame) = 0 ∧ (covered frame).length ≤ 20 := by
  obtain ⟨r, -, hprefix⟩ := Lists.exists_of_forall₂ (obexFtp_frames g packet) h
  have hchecked := checked_reply hprefix
  have hpdu : (r.pdu g packet).length ≤ 14 := by
    rw [Reply.pdu_length]
    cases r <;> decide
  refine ⟨?_, ?_⟩
  · rw [crc16_zero, covered, hchecked.length_eq]
    exact hchecked.receiver_zero
  · rw [covered, hchecked.length_eq, List.length_take]
    omega

/-- **The peer notices.**  It accepts a frame as it was queued, and rejects it with
detectable errors anywhere from the L2CAP length to the FCS. -/
theorem corrupted_rejected (g : Globals) (packet : Packet) :
    ∀ frame ∈ (obexFtp g packet).queued, crc16 0 (covered frame) = 0 ∧
      ∀ received : List UInt8, received.length = (covered frame).length →
        Detectable (differences (bits (covered frame)) (bits received)) →
          crc16 0 received ≠ 0 := by
  intro frame hframe
  obtain ⟨hzero, hshort⟩ := covered_queued hframe
  refine ⟨hzero, fun received hlength herrors haccepted => ?_⟩
  have hsame : (bits (covered frame)).length = (bits received).length := by
    rw [bits_length, bits_length, hlength]
  have herrorsLength : (differences (bits (covered frame)) (bits received)).length ≤ 160 := by
    rw [differences, List.length_zipWith, bits_length, bits_length, hlength]
    omega
  have hcheck : ∀ bytes, crc16 0 bytes = 0 → feed generator 0#16 (bits bytes) = 0#16 := by
    intro bytes hbytes
    have hbitwise := crc16_toBitVec 0 bytes
    rw [hbytes] at hbitwise
    exact hbitwise.symm
  have hsum := feed_errors generator 0#16 hsame
  rw [hcheck _ haccepted, hcheck _ hzero, BitVec.zero_xor] at hsum
  exact check_ne_zero herrorsLength herrors hsum.symm

/-- A request to connect. -/
def connectRequest : Packet := .ofBytes [0x02, 0, 0, 0, 0, 0, 0, 0x41, 0x00, 0x00, 0x00, 0x80]

/-- One wrong bit in the reply. -/
theorem corrupted_rejected_connect :
    ∃ frame ∈ (obexFtp initial connectRequest).queued,
      crc16 0 ((covered frame).set 9 ((covered frame).getD 9 0 ^^^ 1)) ≠ 0 := by
  let reply := queuePacket (connectReply initial connectRequest .cleared).cmdBuf
  have hqueued : reply ∈ (obexFtp initial connectRequest).queued := by decide +kernel
  refine ⟨reply, hqueued, ?_⟩
  refine (corrupted_rejected initial connectRequest reply hqueued).2 _ (by simp) ?_
  exact Or.inl (by decide +kernel)

end HydroponicCloset.Obex
