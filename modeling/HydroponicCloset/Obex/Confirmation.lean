import HydroponicCloset.Obex.Fcs

/-!
# The confirmation of a transfer

The End-of-Body header of a PUT is answered with the response code for success.  A header
that asks for Single Response Mode is answered too, with the code for "continue".  If both
come in one packet, both replies are built in the one command buffer, but the buffer is
queued once, and the length in front of it is that of the first reply.  So the transfer is
confirmed if and only if the End-of-Body header is the first of the two
(`confirmed_iff`).
-/

namespace HydroponicCloset.Obex

open CMemory Bluetooth

/-- The code of an OBEX response. -/
def responseCode (frame : Frame) : UInt8 := frame.getD 13 0

/-- Among the frames is one response: it says success, and its FCS is correct. -/
def Confirmed (frames : List Frame) : Prop :=
  ∃ frame n, frames.filter (fun f => IFrame f) = [frame] ∧ responseCode frame = 0xa0 ∧
    Checked frame n

/-- The header ends a file. -/
def Header.IsEndOfBody : Header → Bool
  | .endOfBody _ => true
  | _ => false

variable {g : Globals} {packet : Packet}

/-! ## The responses among the frames -/

/-- The replies that are responses. -/
def Reply.responds : Reply → Bool
  | .ack => false
  | _ => true

/-- The number of a frame is shifted up, and leaves the bit for the frame type clear. -/
theorem ofNat_double_even : ∀ r < 64, UInt8.ofNat (r <<< 1) &&& 0b00000001 = 0 := by
  decide

theorem responds_iff {r : Reply} {frame : Frame} (h : r.frame g packet <+: frame) :
    r.responds ↔ IFrame frame := by
  have hcontrol := control_of_isPrefix h
  cases r with
  | ack =>
      obtain ⟨hfirst, -⟩ : 0x01 = firstControl frame ∧
          UInt8.ofNat (txSeq packet + 1) = secondControl frame := by
        simpa [Reply.control] using hcontrol
      rw [IFrame, ← hfirst]
      decide
  | connect =>
      obtain ⟨hfirst, -⟩ : 0x00 = firstControl frame ∧ 0x01 = secondControl frame := by
        simpa [Reply.control] using hcontrol
      rw [IFrame, ← hfirst]
      decide
  | _ =>
      obtain ⟨hfirst, -⟩ : UInt8.ofNat (reqSeq packet <<< 1) = firstControl frame ∧
          UInt8.ofNat (txSeq packet + 1) = secondControl frame := by
        simpa [Reply.control] using hcontrol
      rw [IFrame, ← hfirst]
      exact iff_of_true rfl (ofNat_double_even _ (reqSeq_lt packet))

/-- Behind the control bytes is the code of the response. -/
theorem responseCode_reply {r : Reply} {frame : Frame} (hr : r = .srm ∨ r = .endOfBody)
    (h : r.frame g packet <+: frame) : responseCode frame = 0xa0 ↔ r = .endOfBody := by
  obtain ⟨rest, rfl⟩ := h
  rcases hr with rfl | rfl
  · have hcode : responseCode (Reply.srm.frame g packet ++ rest) = 0x90 := rfl
    rw [hcode]
    decide
  · exact iff_of_true rfl rfl

/-- A frame queued for a PUT whose first reply is known. -/
theorem responses_put {r : Reply} (hr : r = .srm ∨ r = .endOfBody)
    (hreply : reply? packet = some r) :
    ∃ frame, (obexFtp g packet).queued.filter (fun f => IFrame f) = [frame] ∧
      r.frame g packet <+: frame := by
  have hresponds : (replies packet).filter Reply.responds = [r] := by
    have hself : r.responds = true := by rcases hr with rfl | rfl <;> rfl
    have hack : Reply.responds .ack = false := rfl
    rw [replies, hreply]
    split_ifs <;> simp [hack, hself]
  have hframes := List.rel_filter (R := fun (r : Reply) frame => r.frame g packet <+: frame)
    (p := Reply.responds) (q := fun f => IFrame f)
    (fun _ _ h => (responds_iff h).trans (decide_eq_true_iff).symm) (obexFtp_frames g packet)
  rw [hresponds] at hframes
  obtain ⟨frame, rest, hframe, hnil, heq⟩ := List.forall₂_cons_left_iff.mp hframes
  rw [List.forall₂_nil_left_iff.mp hnil] at heq
  exact ⟨frame, heq, hframe⟩

/-- The reply decides whether the transfer is confirmed. -/
theorem confirmed_reply {r : Reply} (hr : r = .srm ∨ r = .endOfBody)
    (hreply : reply? packet = some r) :
    Confirmed (obexFtp g packet).queued ↔ r = .endOfBody := by
  obtain ⟨frame, hframes, hframe⟩ := responses_put (g := g) hr hreply
  rw [← responseCode_reply hr hframe]
  constructor
  · rintro ⟨frame', n, hframes', hcode, -⟩
    obtain rfl : frame = frame' := by simpa [hframes] using hframes'
    exact hcode
  · exact fun hcode => ⟨frame, _, hframes, hcode, checked_reply hframe⟩

/-! ## The first header that wants a reply -/

theorem findSome?_reply? {before after : List Header} {chunk : List UInt8}
    (hnone : ∀ h ∈ before, h.IsEndOfBody = false) :
    (before ++ .endOfBody chunk :: after).findSome? Header.reply? = some .endOfBody ↔
      ∀ mode, .srm mode ∉ before := by
  have hreply : ∀ h ∈ before, ∀ r, h.reply? = some r → r = .srm := by
    intro h hmem r hr
    have hend := hnone h hmem
    cases h with
    | srm mode => exact (Option.some.inj hr).symm
    | endOfBody chunk => cases hend
    | _ => cases hr
  rw [List.findSome?_append]
  cases hfirst : before.findSome? Header.reply? with
  | none =>
      refine iff_of_true rfl fun mode hmem => ?_
      cases List.findSome?_eq_none_iff.mp hfirst _ hmem
  | some r =>
      obtain ⟨h, hmem, hr⟩ := List.exists_of_findSome?_eq_some hfirst
      obtain rfl := hreply h hmem r hr
      refine iff_of_false nofun fun hsrm => ?_
      cases h with
      | srm mode => exact hsrm mode hmem
      | _ => cases hr

/-- The only End-of-Body header is where its split is. -/
theorem not_isEndOfBody {before after : List Header} {chunk : List UInt8}
    (hone : (before ++ .endOfBody chunk :: after).countP Header.IsEndOfBody = 1) :
    ∀ h ∈ before, h.IsEndOfBody = false := by
  rw [List.countP_append, List.countP_cons_of_pos rfl] at hone
  have hnone : before.countP Header.IsEndOfBody = 0 := by omega
  simpa using List.countP_eq_zero.mp hnone

/-- **A finished transfer is confirmed** if and only if the packet has no header that asks
for Single Response Mode before its End-of-Body header. -/
theorem confirmed_iff (g : Globals) {packet : Packet} {hs : List Header}
    (hframe : PutFrame packet hs) (hsupported : ∀ h ∈ hs, h.Supported)
    (hone : hs.countP Header.IsEndOfBody = 1) :
    Confirmed (obexFtp g packet).queued ↔
      ∀ before after, hs = before ++ .endOfBody [] :: after → ∀ mode, .srm mode ∉ before := by
  have hput : ¬ (0x02 : UInt8) = 0x00 := by decide
  have hreply : reply? packet = hs.findSome? Header.reply? := by
    rw [reply?, if_pos hframe.iFrame, hframe.put, if_neg hput, if_pos rfl,
      headers_eq_some hframe hsupported, Option.bind_some]
  have hsome : 0 < hs.countP Header.IsEndOfBody := by omega
  obtain ⟨before, h, after, hsplit, hend, -⟩ := Lists.exists_countP_eq hsome
  obtain rfl : h = .endOfBody [] := by
    have hsupp : h.Supported := hsupported h (by rw [hsplit]; simp)
    cases h with
    | endOfBody chunk =>
        obtain rfl : chunk = [] := hsupp
        rfl
    | _ => cases hend
  have hreplies : (hs.findSome? Header.reply?).isSome := by
    rw [List.findSome?_isSome_iff]
    exact ⟨.endOfBody [], by rw [hsplit]; simp, rfl⟩
  obtain ⟨r, hr⟩ := Option.isSome_iff_exists.mp hreplies
  obtain ⟨header, -, hheader⟩ := List.exists_of_findSome?_eq_some hr
  have hconfirmed : Confirmed (obexFtp g packet).queued ↔
      hs.findSome? Header.reply? = some .endOfBody := by
    rw [hr, Option.some_inj]
    exact confirmed_reply (Header.reply?_eq hheader) (hreply.trans hr)
  rw [hconfirmed]
  constructor
  · rintro hfirst before after rfl
    exact (findSome?_reply? (not_isEndOfBody hone)).mp hfirst
  · intro hsrm
    have hbefore := hsrm before after hsplit
    rw [hsplit] at hone ⊢
    exact (findSome?_reply? (not_isEndOfBody hone)).mpr hbefore

/-- A small file in one packet, its body before the request for Single Response Mode. -/
def endFirst : List Header := [.name (nameValue [0x61]), .body [0x62], .endOfBody [], .srm 1]

theorem confirmed_endFirst : Confirmed (obexFtp initial (putPacket endFirst)).queued := by
  have hone : endFirst.countP Header.IsEndOfBody = 1 := rfl
  apply (confirmed_iff initial (putFrame_putPacket (by decide))
    (by simp [endFirst, Header.Supported]) hone).mpr
  intro before after hsplit
  have hfirst : endFirst.findSome? Header.reply? = some .endOfBody := rfl
  rw [hsplit] at hone hfirst
  exact (findSome?_reply? (not_isEndOfBody hone)).mp hfirst

/-- With the request first, the only response says "continue". -/
theorem continued_srmFirst :
    ¬ Confirmed (obexFtp initial (putPacket [.srm 1, .body [0x62], .endOfBody []])).queued := by
  have hreply : reply? (putPacket [.srm 1, .body [0x62], .endOfBody []]) = some .srm := by decide
  rw [confirmed_reply (Or.inl rfl) hreply]
  decide

end HydroponicCloset.Obex
