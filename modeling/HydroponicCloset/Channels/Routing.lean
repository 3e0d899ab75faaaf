import HydroponicCloset.Channels.Session

/-!
# Which packets reach the OBEX handler

`l2cap_cmd_handler` compares the channel id of a packet with `obex_cid`, which
is one byte wide and is never reset.  So the packets of the latest OBEX channel
reach `obex_ftp` exactly as long as the channel's CID fits one byte
(`reaches_obex_iff`), and a packet of no open OBEX channel reaches it in three
situations (`only_open_reaches_iff`): on channel 0 before the first OBEX
channel, on the latest OBEX channel after it was closed, and on the channel
whose CID is the low byte of the latest one's.
-/

namespace HydroponicCloset.Channels

open CMemory Wire Runs Bluetooth Obex Framing

variable {packets : List Packet} {s : Session}

/-- The channel id of an open OBEX channel. -/
def OpenObex (s : Session) (cid : UInt16) : Prop :=
  ∃ c ∈ s.opened, c.obex = true ∧ c.localCid = cid

theorem multiplex_obex_iff {g : Globals} {packet : Packet} :
    multiplex g packet = .obex ↔
      packet.sigChannel ≠ 0x01 ∧ packet.sigChannel = g.obexCid.toUInt16 := by
  unfold multiplex
  split_ifs with hsig hobex
  · exact iff_of_false nofun fun h => h.1 hsig
  · exact iff_of_true rfl ⟨hsig, hobex⟩
  · exact iff_of_false nofun fun h => hobex h.2

/-- A word is the byte it is cut down to exactly if it fits. -/
theorem eq_low_iff (u : UInt16) : u = u.toUInt8.toUInt16 ↔ u.toNat < 0x100 := by
  have hu := u.toNat_lt
  rw [eq_toUInt16_iff, low_toNat]
  omega

theorem obexCid_of_latest {c : Channel} (h : s.Inv)
    (hlatest : s.accepted.find? Channel.obex = some c) :
    s.globals.obexCid = c.localCid.toUInt8 := by
  rw [h.obexCid, hlatest]
  rfl

/-- **Every packet of the latest OBEX channel** reaches the OBEX handler exactly
as long as its CID fits one byte. -/
theorem reaches_obex_iff (hrun : run Session.step .start packets = some s) {c : Channel}
    (hlatest : s.accepted.find? Channel.obex = some c) (hdynamic : 0x40 ≤ c.localCid)
    {packet : Packet} (haddressed : packet.sigChannel = c.localCid) :
    multiplex s.globals packet = .obex ↔ c.localCid ≤ 0xff := by
  have hne : c.localCid ≠ 0x01 := by
    rintro heq
    rw [heq] at hdynamic
    exact absurd hdynamic (by decide)
  have hobex := obexCid_of_latest (Session.inv_run hrun) hlatest
  rw [multiplex_obex_iff, haddressed, hobex, and_iff_right hne, eq_low_iff, UInt16.le_iff_toNat_le]
  exact Nat.lt_succ_iff

theorem reaches_obex_first :
    ∃ s, run Session.step .start [connectPacket 0x1009 0x50] = some s ∧
      (multiplex s.globals (attributePacket 0x41) = .obex ↔ (0x41 : UInt16) ≤ 0xff) := by
  have hlatest : (run Session.step .start [connectPacket 0x1009 0x50]).map (fun s =>
      s.accepted.find? Channel.obex) = some (some ⟨0x41, 0x50, true⟩) := by decide
  obtain ⟨s, hs, hfind⟩ := Option.map_eq_some_iff.mp hlatest
  exact ⟨s, hs, reaches_obex_iff hs hfind (by decide) (attributePacket_sigChannel _)⟩

/-- After 191 other channels the OBEX channel is given the CID 0x100, and its
packets are taken for SDP requests. -/
theorem obex_channel_not_reached :
    ∃ s c, run Session.step .start (List.replicate 191 (connectPacket 0x0001 0x40) ++
        [connectPacket 0x1009 0x50]) = some s ∧
      s.accepted.find? Channel.obex = some c ∧ c ∈ s.opened ∧ c.localCid = 0x100 ∧
      multiplex s.globals (attributePacket c.localCid) = .sdp := by
  obtain ⟨mid, hmid⟩ : ∃ mid, run Session.step .start
      (List.replicate 191 (connectPacket 0x0001 0x40)) = some mid := by
    refine Session.run_signalling _ fun packet hpacket => ?_
    rw [List.eq_of_mem_replicate hpacket]
    decide
  have hlength : mid.accepted.length = 191 := by
    rw [Session.accepted_length hmid, List.countP_replicate]
    decide
  have hcid : mid.globals.destCid = 0x100 := by
    apply UInt16.toNat_inj.mp
    rw [(Session.inv_run hmid).destCid, hlength]
    rfl
  obtain ⟨s, hs⟩ : ∃ s, run Session.step mid [connectPacket 0x1009 0x50] = some s :=
    Session.run_signalling _ (by simp only [List.mem_singleton, forall_eq]; decide)
  have hstep : mid.step (connectPacket 0x1009 0x50) = some s := by simpa [run_cons] using hs
  have hconn : ConnReq (connectPacket 0x1009 0x50) := by decide
  refine ⟨s, mid.channel (connectPacket 0x1009 0x50), by rw [run_append, hmid]; exact hs, ?_⟩
  cases Session.next_of_step hstep with
  | connect =>
      refine ⟨rfl, List.mem_cons_self .., hcid, ?_⟩
      have hsig : (attributePacket mid.globals.destCid).sigChannel = 0x100 := by
        rw [attributePacket_sigChannel, hcid]
      have hobex : (connReq mid.globals (connectPacket 0x1009 0x50)).1.obexCid = 0 := by
        show mid.globals.destCid.toUInt8 = 0
        rw [hcid]
        rfl
      show multiplex _ (attributePacket mid.globals.destCid) = .sdp
      rw [multiplex, hsig, hobex, if_neg (by decide), if_neg (by decide)]
  | disconnect hdisconn => exact absurd (hconn.2.symm.trans hdisconn.2) (by decide)
  | other hother => exact absurd hconn hother

/-- Where a packet may go: not to channel 0 before the first OBEX channel, to the
latest OBEX channel only while it is open, and, once CIDs take more than a
byte, to the low byte of the latest one only if that is an open OBEX channel. -/
def Routable (s : Session) (cid : UInt16) : Prop :=
  match s.accepted.find? Channel.obex with
  | none => cid ≠ 0
  | some c =>
      if c.localCid.toNat < 0x100 then cid = c.localCid → cid = 0x01 ∨ c ∈ s.opened
      else cid = c.localCid.toUInt8.toUInt16 → cid = 0x01 ∨ OpenObex s cid

/-- The latest OBEX channel is open if any OBEX channel with its CID is. -/
theorem mem_opened_iff {c : Channel} (h : s.Inv)
    (hlatest : s.accepted.find? Channel.obex = some c) :
    c ∈ s.opened ↔ OpenObex s c.localCid := by
  constructor
  · intro hopened
    exact ⟨c, hopened, List.find?_some hlatest, rfl⟩
  · rintro ⟨c', hc', hobex, hcid⟩
    exact (h.latest c hlatest).resolve_right fun hclosed => hclosed c' hc' hobex hcid

/-- **Only packets of an open OBEX channel** reach the OBEX handler, as long as
every packet is routable. -/
theorem only_open_reaches_iff (hrun : run Session.step .start packets = some s) (packet : Packet) :
    (multiplex s.globals packet = .obex → OpenObex s packet.sigChannel) ↔
      Routable s packet.sigChannel := by
  have hinv := Session.inv_run hrun
  rw [multiplex_obex_iff, Routable]
  cases hlatest : s.accepted.find? Channel.obex with
  | none =>
      have hobex : s.globals.obexCid = 0 := by
        rw [hinv.obexCid, hlatest]
        rfl
      have hclosed : ¬ OpenObex s packet.sigChannel := by
        rintro ⟨c, hc, hcobex, -⟩
        exact absurd hcobex (by simpa using List.find?_eq_none.mp hlatest c (hinv.opened c hc))
      rw [hobex]
      show _ ↔ packet.sigChannel ≠ 0
      constructor
      · intro h hzero
        exact hclosed (h ⟨by rw [hzero]; decide, hzero⟩)
      · intro hne h
        exact absurd h.2 hne
  | some c =>
      have hobex := obexCid_of_latest hinv hlatest
      have hopened := mem_opened_iff hinv hlatest
      rw [hobex]
      dsimp only
      by_cases hfits : c.localCid.toNat < 0x100
      · rw [if_pos hfits, ← (eq_low_iff _).mpr hfits, hopened]
        constructor
        · intro h haddressed
          rw [or_iff_not_imp_left]
          intro hne
          exact haddressed ▸ h ⟨hne, haddressed⟩
        · rintro h ⟨hne, haddressed⟩
          exact haddressed ▸ (h haddressed).resolve_left hne
      · rw [if_neg hfits, and_imp]
        constructor
        · intro h haddressed
          rw [or_iff_not_imp_left]
          exact fun hne => h hne haddressed
        · intro h hne haddressed
          exact (h haddressed).resolve_left hne

theorem only_open_reaches_first :
    ∃ s, run Session.step .start [connectPacket 0x1009 0x50] = some s ∧
      ((multiplex s.globals (attributePacket 0x41) = .obex →
        OpenObex s (attributePacket 0x41).sigChannel) ↔
          Routable s (attributePacket 0x41).sigChannel) := by
  obtain ⟨s, hs⟩ : ∃ s, run Session.step .start [connectPacket 0x1009 0x50] = some s :=
    Session.run_signalling _ (by simp only [List.mem_singleton, forall_eq]; decide)
  exact ⟨s, hs, only_open_reaches_iff hs _⟩

/-- The peer closes its only channel, and the packets it sends there still reach
the OBEX handler. -/
theorem closed_channel_reaches :
    ∃ s, run Session.step .start [connectPacket 0x1009 0x50, disconnectPacket 0x41 0x50] = some s ∧
      multiplex s.globals (attributePacket 0x41) = .obex ∧
      ¬ OpenObex s (attributePacket 0x41).sigChannel := by
  have hsession : (run Session.step .start
      [connectPacket 0x1009 0x50, disconnectPacket 0x41 0x50]).map (fun s =>
        (multiplex s.globals (attributePacket 0x41), s.opened)) = some (.obex, []) := by decide
  obtain ⟨s, hs, hpair⟩ := Option.map_eq_some_iff.mp hsession
  obtain ⟨hobex, hopened⟩ := Prod.mk.inj hpair
  refine ⟨s, hs, hobex, ?_⟩
  rintro ⟨c, hc, -⟩
  rw [hopened] at hc
  cases hc

end HydroponicCloset.Channels
