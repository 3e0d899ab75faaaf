import HydroponicCloset.Channels.Session
import HydroponicCloset.Lib.Lists

/-!
# How channel ids are allocated

`dest_cid` starts at 0x41 and goes up by one with every Connection Request, in
sixteen bits.  The channels are numbered in the order of their requests, so the
CIDs stay distinct and in the dynamic range until the counter comes round to
zero, which is at request number 65472: `allocated_iff`.
-/

namespace HydroponicCloset.Channels

open CMemory Lists Wire Runs Bluetooth Obex Framing

/-- The local CIDs in the Connection Responses that are queued for a packet. -/
def responseCids (g : Globals) (packet : Packet) : List UInt16 :=
  if packet.sigChannel = 0x01 then
    ((l2capCmdHandler g packet).queued.filter fun frame => frameCode frame = 0x03).map frameWord
  else []

/-- The CIDs given out for a packet are dynamic, and no open channel has them. -/
def Fresh (s : Session) (packet : Packet) : Prop :=
  ∀ cid ∈ responseCids s.globals packet, 0x40 ≤ cid ∧ ∀ c ∈ s.opened, c.localCid ≠ cid

/-- The number of Connection Requests. -/
def connReqs (packets : List Packet) : ℕ := packets.countP fun packet => decide (ConnReq packet)

theorem responseCids_connReq (g : Globals) {packet : Packet} (h : ConnReq packet) :
    responseCids g packet = [g.destCid] := by
  have hres : Reads (connRes g packet) _ _ _ _ := connRes_reads
  have hreq : frameCode (connConfReq packet) = 0x04 := connConfReq_reads.code_eq
  have hother : ¬ (0x04 : UInt8) = 0x03 := by decide
  rw [responseCids, if_pos h.1, l2capCmdHandler_signalling g h.1, signalling_connReq g h.2]
  simp [connReq, hres.code_eq, hres.word_eq, hreq, hother]

theorem responseCids_other (g : Globals) {packet : Packet} (h : ¬ ConnReq packet) :
    responseCids g packet = [] := by
  by_cases hsig : packet.sigChannel = 0x01
  · have hconn : packet.command ≠ l2capCmdConnReq := fun hconn => h ⟨hsig, hconn⟩
    have hcodes : ∀ response ∈ (signalling g packet).2, frameCode response ≠ 0x03 := by
      intro response hresponse
      by_cases hdisconn : packet.command = l2capCmdDisconnReq
      · rw [signalling_disconnReq g hdisconn] at hresponse
        rw [(disconnReq_reads hresponse).code_eq]
        decide
      · exact ((signalling_other g hconn hdisconn).2 response hresponse).1
    rw [responseCids, if_pos hsig, l2capCmdHandler_signalling g hsig, List.map_eq_nil_iff,
      List.filter_eq_nil_iff]
    intro response hresponse
    simpa using hcodes response hresponse
  · rw [responseCids, if_neg hsig]

/-- **One Connection Request** is given a fresh CID exactly as long as the counter
has not come round. -/
theorem fresh_iff {packets : List Packet} {s : Session}
    (hrun : run Session.step .start packets = some s) (hbound : connReqs packets ≤ 65471)
    {packet : Packet} (h : ConnReq packet) : Fresh s packet ↔ connReqs packets < 65471 := by
  have hinv := Session.inv_run hrun
  have hlength : s.accepted.length = connReqs packets := Session.accepted_length hrun
  have hdest := hinv.destCid
  rw [Fresh, responseCids_connReq _ h]
  simp only [List.mem_singleton, forall_eq]
  rw [hlength] at hdest
  constructor
  · rintro ⟨hdynamic, -⟩
    have hle : 0x40 ≤ s.globals.destCid.toNat := UInt16.le_iff_toNat_le.mp hdynamic
    omega
  · intro hlt
    refine ⟨UInt16.le_iff_toNat_le.mpr ?_, ?_⟩
    · show 0x40 ≤ s.globals.destCid.toNat
      omega
    · intro c hc heq
      obtain ⟨k, hk, hnumber⟩ := hinv.numbered c (hinv.opened c hc)
      rw [heq] at hnumber
      omega

/-- **Every CID is fresh** when it is given out if and only if there are at most
65471 Connection Requests. -/
theorem allocated_iff {packets : List Packet} {s : Session}
    (hrun : run Session.step .start packets = some s) :
    (∀ pre packet post mid, packets = pre ++ packet :: post →
      run Session.step .start pre = some mid → Fresh mid packet) ↔
        connReqs packets ≤ 65471 := by
  constructor
  · intro h
    by_contra hmany
    obtain ⟨pre, packet, post, rfl, hconn, hcount⟩ :=
      exists_countP_eq (show 65471 < packets.countP fun packet => decide (ConnReq packet) by
        rw [connReqs] at hmany
        omega)
    obtain ⟨mid, hmid, -⟩ := run_append_eq_some hrun
    have hlt := (fresh_iff hmid (le_of_eq hcount) (of_decide_eq_true hconn)).mp
      (h pre packet post mid rfl hmid)
    rw [connReqs, hcount] at hlt
    exact absurd hlt (lt_irrefl _)
  · rintro hfew pre packet post mid rfl hmid
    by_cases hconn : ConnReq packet
    · have hpre : connReqs pre < 65471 := by
        calc connReqs pre < connReqs pre + connReqs (packet :: post) := by
              rw [Nat.lt_add_right_iff_pos, connReqs,
                List.countP_cons_of_pos (by simpa using hconn)]
              exact Nat.succ_pos _
          _ = connReqs (pre ++ packet :: post) := List.countP_append.symm
          _ ≤ 65471 := hfew
      exact (fresh_iff hmid hpre.le hconn).mpr hpre
    · intro cid hcid
      rw [responseCids_other _ hconn] at hcid
      cases hcid

/-- Two channels are opened, the first is closed, and a third is opened. -/
def reopening : List Packet :=
  [connectPacket 0x0001 0x40, connectPacket 0x1009 0x50, disconnectPacket 0x41 0x40,
    connectPacket 0x0001 0x60]

theorem allocated_reopening :
    ∃ s, run Session.step .start reopening = some s ∧
      ((∀ pre packet post mid, reopening = pre ++ packet :: post →
        run Session.step .start pre = some mid → Fresh mid packet) ↔
          connReqs reopening ≤ 65471) := by
  obtain ⟨s, hs⟩ : ∃ s, run Session.step .start reopening = some s :=
    Session.run_signalling _ (by decide)
  exact ⟨s, hs, allocated_iff hs⟩

/-- Request number 65472 is given the CID zero. -/
theorem allocated_zero :
    ∃ mid, run Session.step .start (List.replicate 65471 (connectPacket 0x1009 0x50)) = some mid ∧
      responseCids mid.globals (connectPacket 0x1009 0x50) = [0] := by
  have hconn : ConnReq (connectPacket 0x1009 0x50) := by decide
  obtain ⟨mid, hmid⟩ : ∃ mid, run Session.step .start
      (List.replicate 65471 (connectPacket 0x1009 0x50)) = some mid := by
    refine Session.run_signalling _ fun packet hpacket => ?_
    rw [List.eq_of_mem_replicate hpacket]
    exact hconn.1
  refine ⟨mid, hmid, ?_⟩
  have hlength : mid.accepted.length = 65471 := by
    rw [Session.accepted_length hmid, List.countP_replicate, if_pos (by simpa using hconn)]
  have hzero : mid.globals.destCid = 0 := by
    apply UInt16.toNat_inj.mp
    rw [(Session.inv_run hmid).destCid, hlength]
    rfl
  rw [responseCids_connReq _ hconn, hzero]

end HydroponicCloset.Channels
