import HydroponicCloset.Framing.Fields
import HydroponicCloset.Obex.Headers

/-!
# The channels of a connection

A peer opens a channel by a Connection Request and closes it by a Disconnection
Request.  `bt_main.c` keeps no table of channels: all it remembers is in
`src_cid`, `dest_cid` and `obex_cid`.  A `Session` adds the table.  It is filled
in from the responses that the handler queues, as the peer reads them.

`next_of_step` lists what a packet can do to a session, and every invariant is
derived from it.
-/

namespace HydroponicCloset.Channels

open CMemory Wire Runs Bluetooth Obex Framing

/-- A channel: the CID the handler gave it, the CID of the peer, and whether it
was opened for OBEX. -/
structure Channel where
  localCid : UInt16
  peerCid : UInt16
  obex : Bool
  deriving DecidableEq

/-- The globals, the channels accepted so far (the latest first), and those of
them that are open. -/
structure Session where
  globals : Globals
  accepted : List Channel
  opened : List Channel

/-! ## Packets -/

/-- A Connection Request. -/
def ConnReq (packet : Packet) : Prop :=
  packet.sigChannel = 0x01 ∧ packet.command = l2capCmdConnReq

/-- A Disconnection Request. -/
def DisconnReq (packet : Packet) : Prop :=
  packet.sigChannel = 0x01 ∧ packet.command = l2capCmdDisconnReq

instance (packet : Packet) : Decidable (ConnReq packet) := inferInstanceAs (Decidable (_ ∧ _))

instance (packet : Packet) : Decidable (DisconnReq packet) := inferInstanceAs (Decidable (_ ∧ _))

/-- The destination CID of a Configuration or Disconnection Request. -/
def destinationCid (packet : Packet) : UInt16 := word (packet 14) (packet 13)

/-- A Connection Request for a PSM, from a CID of the peer. -/
def connectPacket (psm peerCid : UInt16) : Packet :=
  .ofBytes ([0x02, 0x00, 0x20, 12, 0, 8, 0, 0x01, 0x00, 0x02, 0x01, 4, 0] ++ le16 psm ++
    le16 peerCid)

/-- A Disconnection Request. -/
def disconnectPacket (localCid peerCid : UInt16) : Packet :=
  .ofBytes ([0x02, 0x00, 0x20, 12, 0, 8, 0, 0x01, 0x00, 0x06, 0x02, 4, 0] ++ le16 localCid ++
    le16 peerCid)

/-- An SDP request for the OBEX attributes, on any channel. -/
def attributePacket (cid : UInt16) : Packet :=
  .ofBytes ([0x02, 0x00, 0x20, 14, 0, 10, 0] ++ le16 cid ++
    [0x06, 0x00, 0x01, 0x00, 0x05, 0x35, 0x03, 0x19, 0x01, 0x00])

theorem attributePacket_sigChannel (cid : UInt16) : (attributePacket cid).sigChannel = cid :=
  word_high_low cid

/-! ## Steps -/

namespace Session

/-- Before the first packet. -/
def start : Session := ⟨initial, [], []⟩

/-- Enter a response that was queued for `packet` into the table: a Connection
Response opens a channel, a Disconnection Response closes one. -/
def enter (packet : Packet) (s : Session) (response : Frame) : Session :=
  if frameCode response = 0x03 then
    let channel := ⟨frameWord response, packet.sourceCid, packet.ObexPsm⟩
    { s with accepted := channel :: s.accepted, opened := channel :: s.opened }
  else if frameCode response = 0x07 then
    { s with opened := s.opened.filter fun c => c.localCid ≠ frameWord response }
  else s

/-- One packet. -/
def step (s : Session) (packet : Packet) : Option Session :=
  let outcome := l2capCmdHandler s.globals packet
  outcome.next.map fun g =>
    let entered := if packet.sigChannel = 0x01 then outcome.queued.foldl (enter packet) s else s
    { entered with globals := g }

/-- The channel that a Connection Request opens. -/
def channel (s : Session) (packet : Packet) : Channel :=
  ⟨s.globals.destCid, packet.sourceCid, packet.ObexPsm⟩

/-- What a packet can do to a session. -/
inductive Next (s : Session) (packet : Packet) : Session → Prop
  | connect (h : ConnReq packet) :
      Next s packet ⟨(connReq s.globals packet).1, s.channel packet :: s.accepted,
        s.channel packet :: s.opened⟩
  | disconnect (h : DisconnReq packet) :
      Next s packet { s with opened := s.opened.filter fun c => c.localCid ≠ destinationCid packet }
  | other {g : Globals} (hconn : ¬ ConnReq packet) (hdisconn : ¬ DisconnReq packet)
      (hobex : g.obexCid = s.globals.obexCid) (hsrc : g.srcCid = s.globals.srcCid)
      (hdest : g.destCid = s.globals.destCid) : Next s packet { s with globals := g }

end Session

/-- No header stores to the CIDs. -/
theorem store_cids (h : Header) (g : Globals) :
    (h.store g).obexCid = g.obexCid ∧ (h.store g).srcCid = g.srcCid ∧
      (h.store g).destCid = g.destCid := by
  cases h <;> exact ⟨rfl, rfl, rfl⟩

theorem foldl_store_cids (hs : List Header) (g : Globals) :
    (hs.foldl Header.store g).obexCid = g.obexCid ∧ (hs.foldl Header.store g).srcCid = g.srcCid ∧
      (hs.foldl Header.store g).destCid = g.destCid := by
  refine ⟨?_, ?_, ?_⟩
  · exact foldl_store_kept Globals.obexCid (fun h g => (store_cids h g).1) hs g
  · exact foldl_store_kept Globals.srcCid (fun h g => (store_cids h g).2.1) hs g
  · exact foldl_store_kept Globals.destCid (fun h g => (store_cids h g).2.2) hs g

theorem confReq_cids (g : Globals) (packet : Packet) :
    (confReq g .cleared packet).1.obexCid = g.obexCid ∧
      (confReq g .cleared packet).1.srcCid = g.srcCid ∧
      (confReq g .cleared packet).1.destCid = g.destCid := by
  unfold confReq
  split_ifs <;> exact ⟨rfl, rfl, rfl⟩

theorem confFrame_code (g : Globals) (packet : Packet) :
    frameCode (confFrame g packet) ≠ 0x03 ∧ frameCode (confFrame g packet) ≠ 0x07 := by
  by_cases hanswered : ConfAnswered packet
  · rw [(confFrame_answered hanswered).code_eq]
    decide
  by_cases hechoed : ConfEchoed packet
  · rw [(confFrame_echoed hechoed).code_eq]
    decide
  · rw [confFrame_other hanswered hechoed]
    decide

/-- Any command but these two changes none of the three globals, and its responses
open and close no channel. -/
theorem signalling_other (g : Globals) {packet : Packet}
    (hconn : packet.command ≠ l2capCmdConnReq) (hdisconn : packet.command ≠ l2capCmdDisconnReq) :
    ((signalling g packet).1.obexCid = g.obexCid ∧ (signalling g packet).1.srcCid = g.srcCid ∧
      (signalling g packet).1.destCid = g.destCid) ∧
    ∀ response ∈ (signalling g packet).2,
      frameCode response ≠ 0x03 ∧ frameCode response ≠ 0x07 := by
  have hanswer := signalling_answer g packet
  generalize signalling g packet = answer at hanswer ⊢
  cases hanswer with
  | infoReq _ =>
      refine ⟨⟨rfl, rfl, rfl⟩, fun response hresponse => ?_⟩
      rw [infoReq_code hresponse]
      decide
  | connReq h => exact absurd h hconn
  | confReq _ =>
      simp only [List.mem_singleton, forall_eq]
      exact ⟨confReq_cids g packet, confFrame_code g packet⟩
  | confRes _ =>
      refine ⟨⟨rfl, rfl, rfl⟩, fun response hresponse => ?_⟩
      rw [(confRes_reads hresponse).code_eq]
      decide
  | disconnReq h => exact absurd h hdisconn
  | unknown _ => exact ⟨⟨rfl, rfl, rfl⟩, by simp⟩

/-- A packet on the signalling channel is handled as a command. -/
theorem l2capCmdHandler_signalling (g : Globals) {packet : Packet}
    (hsig : packet.sigChannel = 0x01) :
    l2capCmdHandler g packet =
      ⟨(signalling g packet).2, some (signalling g packet).1⟩ := by
  rw [l2capCmdHandler, multiplex, if_pos hsig]

namespace Session

theorem enter_connRes (s : Session) (packet : Packet) :
    s.enter packet (connRes s.globals packet) =
      { s with accepted := s.channel packet :: s.accepted
               opened := s.channel packet :: s.opened } := by
  have hreads : Reads (connRes s.globals packet) _ _ _ _ := connRes_reads
  rw [enter, if_pos hreads.code_eq, hreads.word_eq]
  rfl

theorem enter_disconnRes (s : Session) (packet : Packet) {response : Frame}
    (h : response ∈ disconnReq packet) :
    s.enter packet response =
      { s with opened := s.opened.filter fun c => c.localCid ≠ destinationCid packet } := by
  have hreads := disconnReq_reads h
  have hcode : ¬ frameCode response = 0x03 := by
    rw [hreads.code_eq]
    decide
  rw [enter, if_neg hcode, if_pos hreads.code_eq, hreads.word_eq]
  rfl

theorem enter_other (s : Session) (packet : Packet) {response : Frame}
    (hconn : frameCode response ≠ 0x03) (hdisconn : frameCode response ≠ 0x07) :
    s.enter packet response = s := by
  rw [enter, if_neg hconn, if_neg hdisconn]

theorem foldl_enter_other (s : Session) (packet : Packet) {responses : List Frame}
    (h : ∀ response ∈ responses, frameCode response ≠ 0x03 ∧ frameCode response ≠ 0x07) :
    responses.foldl (enter packet) s = s := by
  induction responses with
  | nil => rfl
  | cons response rest ih =>
      obtain ⟨⟨hconn, hdisconn⟩, hrest⟩ := List.forall_mem_cons.mp h
      rw [List.foldl_cons, enter_other s packet hconn hdisconn, ih hrest]

/-- The signalling commands. -/
theorem next_of_signalling (s : Session) {packet : Packet} (hsig : packet.sigChannel = 0x01) :
    Next s packet { (signalling s.globals packet).2.foldl (enter packet) s with
      globals := (signalling s.globals packet).1 } := by
  by_cases hconn : packet.command = l2capCmdConnReq
  · have hconf : frameCode (connConfReq packet) = 0x04 := connConfReq_reads.code_eq
    rw [signalling_connReq _ hconn]
    simp only [connReq, List.foldl_cons, List.foldl_nil]
    rw [enter_connRes, enter_other _ packet (by rw [hconf]; decide) (by rw [hconf]; decide)]
    exact .connect ⟨hsig, hconn⟩
  by_cases hdisconn : packet.command = l2capCmdDisconnReq
  · have hentered : (disconnReq packet).foldl (enter packet) s =
        { s with opened := s.opened.filter fun c => c.localCid ≠ destinationCid packet } :=
      enter_disconnRes s packet (List.mem_singleton.mpr rfl)
    rw [signalling_disconnReq _ hdisconn, hentered]
    exact .disconnect ⟨hsig, hdisconn⟩
  · obtain ⟨⟨hobex, hsrc, hdest⟩, hcodes⟩ := signalling_other s.globals hconn hdisconn
    rw [foldl_enter_other s packet hcodes]
    exact .other (fun h => hconn h.2) (fun h => hdisconn h.2) hobex hsrc hdest

/-- **What a packet can do.** -/
theorem next_of_step {s s' : Session} {packet : Packet} (h : s.step packet = some s') :
    Next s packet s' := by
  obtain ⟨g, hg, rfl⟩ := Option.map_eq_some_iff.mp h
  by_cases hsig : packet.sigChannel = 0x01
  · rw [l2capCmdHandler_signalling _ hsig] at hg ⊢
    obtain rfl := Option.some.inj hg
    simp only [if_pos hsig]
    exact next_of_signalling s hsig
  · have hconn : ¬ ConnReq packet := fun h => hsig h.1
    have hdisconn : ¬ DisconnReq packet := fun h => hsig h.1
    simp only [if_neg hsig]
    rw [l2capCmdHandler] at hg
    cases hmultiplex : multiplex s.globals packet with
    | signalling =>
        unfold multiplex at hmultiplex
        split_ifs at hmultiplex
    | obex =>
        rw [hmultiplex, obexFtp_next] at hg
        obtain ⟨hs, -, rfl⟩ := Option.map_eq_some_iff.mp hg
        obtain ⟨hobex, hsrc, hdest⟩ := foldl_store_cids hs s.globals
        exact .other hconn hdisconn hobex hsrc hdest
    | sdp =>
        rw [hmultiplex] at hg
        obtain rfl := Option.some.inj hg
        exact .other hconn hdisconn rfl rfl rfl

end Session

/-! ## What the globals know of the channels -/

namespace Session

/-- The globals remember the peer of the latest channel, the low byte of the
latest OBEX channel, and how many channels there were. -/
structure Inv (s : Session) : Prop where
  srcCid : s.globals.srcCid = (s.accepted.head?.map Channel.peerCid).getD 0
  obexCid : s.globals.obexCid =
    ((s.accepted.find? Channel.obex).map fun c => c.localCid.toUInt8).getD 0
  destCid : s.globals.destCid.toNat = (0x41 + s.accepted.length) % 65536
  opened : ∀ c ∈ s.opened, c ∈ s.accepted
  numbered : ∀ c ∈ s.accepted, ∃ k < s.accepted.length, c.localCid.toNat = (0x41 + k) % 65536
  latest : ∀ c, s.accepted.find? Channel.obex = some c →
    c ∈ s.opened ∨ ∀ c' ∈ s.opened, c'.obex = true → c'.localCid ≠ c.localCid

theorem inv_start : Inv start where
  srcCid := rfl
  obexCid := rfl
  destCid := rfl
  opened := by simp [start]
  numbered := by simp [start]
  latest := by simp [start]

theorem inv_connect {s : Session} (h : Inv s) (packet : Packet) :
    Inv ⟨(connReq s.globals packet).1, s.channel packet :: s.accepted,
      s.channel packet :: s.opened⟩ where
  srcCid := rfl
  obexCid := by
    by_cases hpsm : packet.ObexPsm
    · simp [connReq, channel, hpsm]
    · simpa [connReq, channel, hpsm] using h.obexCid
  destCid := by
    have hdest := h.destCid
    simp only [connReq, List.length_cons, UInt16.toNat_add, UInt16.toNat_ofNat]
    omega
  opened := by
    intro c hc
    rcases List.mem_cons.mp hc with rfl | hc
    · exact List.mem_cons_self ..
    · exact List.mem_cons_of_mem _ (h.opened c hc)
  numbered := by
    intro c hc
    rcases List.mem_cons.mp hc with rfl | hc
    · exact ⟨s.accepted.length, by simp, h.destCid⟩
    · obtain ⟨k, hk, heq⟩ := h.numbered c hc
      exact ⟨k, by rw [List.length_cons]; omega, heq⟩
  latest := by
    intro c hc
    by_cases hpsm : packet.ObexPsm
    · obtain rfl : s.channel packet = c := by simpa [channel, hpsm] using hc
      exact Or.inl (List.mem_cons_self ..)
    · have hfind : s.accepted.find? Channel.obex = some c := by simpa [channel, hpsm] using hc
      rcases h.latest c hfind with hopened | hclosed
      · exact Or.inl (List.mem_cons_of_mem _ hopened)
      · right
        intro c' hc' hobex
        rcases List.mem_cons.mp hc' with rfl | hc'
        · simp [channel, hpsm] at hobex
        · exact hclosed c' hc' hobex

theorem inv_disconnect {s : Session} (h : Inv s) (cid : UInt16) :
    Inv { s with opened := s.opened.filter fun c => c.localCid ≠ cid } where
  srcCid := h.srcCid
  obexCid := h.obexCid
  destCid := h.destCid
  opened := fun c hc => h.opened c (List.mem_filter.mp hc).1
  numbered := h.numbered
  latest := by
    intro c hc
    by_cases hcid : c.localCid = cid
    · right
      intro c' hc' _
      have hne := (List.mem_filter.mp hc').2
      rw [hcid]
      simpa using hne
    · rcases h.latest c hc with hopened | hclosed
      · exact Or.inl (List.mem_filter.mpr ⟨hopened, by simpa using hcid⟩)
      · exact Or.inr fun c' hc' => hclosed c' (List.mem_filter.mp hc').1

/-- **One packet** keeps the invariant. -/
theorem inv_next {s s' : Session} {packet : Packet} (h : Inv s) (hnext : Next s packet s') :
    Inv s' := by
  cases hnext with
  | connect hconn => exact inv_connect h packet
  | disconnect hdisconn => exact inv_disconnect h _
  | other hconn hdisconn hobex hsrc hdest =>
      exact ⟨hsrc.trans h.srcCid, hobex.trans h.obexCid, hdest ▸ h.destCid, h.opened, h.numbered,
        h.latest⟩

/-- **Every session** that packets lead to has it. -/
theorem inv_run {packets : List Packet} {s : Session} (hrun : run step start packets = some s) :
    Inv s :=
  run_invariant Inv (fun _ _ _ h hstep => inv_next h (next_of_step hstep)) inv_start hrun

/-- Signalling packets are always answered. -/
theorem run_signalling (s : Session) {packets : List Packet}
    (hsig : ∀ packet ∈ packets, packet.sigChannel = 0x01) :
    ∃ s', run step s packets = some s' := by
  induction packets generalizing s with
  | nil => exact ⟨s, rfl⟩
  | cons packet rest ih =>
      obtain ⟨hpacket, hrest⟩ := List.forall_mem_cons.mp hsig
      obtain ⟨mid, hmid⟩ : ∃ mid, s.step packet = some mid := by
        simp [step, l2capCmdHandler_signalling _ hpacket]
      obtain ⟨s', hs'⟩ := ih mid hrest
      exact ⟨s', by rw [run_cons, hmid]; exact hs'⟩

/-- Every Connection Request is accepted. -/
theorem accepted_length {packets : List Packet} {s : Session}
    (hrun : run step start packets = some s) :
    s.accepted.length = packets.countP fun packet => decide (ConnReq packet) := by
  refine run_history (fun packets s => s.accepted.length =
    packets.countP fun packet => decide (ConnReq packet)) rfl ?_ hrun
  intro packets s packet s' hlen hstep
  rw [List.countP_append]
  cases next_of_step hstep with
  | connect hconn => simp [hlen, hconn]
  | disconnect hdisconn =>
      have hconn : ¬ ConnReq packet := by
        intro hconn
        exact absurd (hconn.2.symm.trans hdisconn.2) (by decide)
      simp [hlen, hconn]
  | other hconn => simp [hlen, hconn]

end Session

end HydroponicCloset.Channels
