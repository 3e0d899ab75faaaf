import HydroponicCloset.Obex.Replies

/-!
# Packets that come twice

A peer that does not see an acknowledgement sends its frame again.  Handling a packet
twice does what handling it once does (`retransmission_harmless`).  The header loop takes
its way through the packet and every byte it writes from the packet alone: each buffer is
overwritten with the same bytes as before, and the four bytes of a Length header push out
whatever `file_len` was.  The frames that are queued depend on two globals beside the
packet, which no header stores to.
-/

namespace HydroponicCloset.Obex

open CMemory Wire Bluetooth

/-! ## The globals -/

/-- The three globals that headers store to, each by itself. -/
theorem foldl_store_eq (hs : List Header) (g : Globals) :
    hs.foldl Header.store g = { g with
      buffer1 := (hs.filterMap Header.name?).foldl
        (fun b value => b.putString (oddBytes value)) g.buffer1
      buffer2 := (hs.filterMap Header.body?).foldl Buffer.putString g.buffer2
      fileLen := (hs.filterMap Header.length?).foldl (fun _ value => value) g.fileLen } := by
  induction hs generalizing g with
  | nil => rfl
  | cons h rest ih =>
      rw [List.foldl_cons, ih]
      cases h <;> rfl

/-- The latest length stays. -/
theorem foldl_latest_twice (lengths : List UInt32) (old : UInt32) :
    lengths.foldl (fun _ value => value) (lengths.foldl (fun _ value => value) old) =
      lengths.foldl (fun _ value => value) old := by
  cases lengths with
  | nil => rfl
  | cons value rest => rfl

/-- **Storing headers twice** is storing them once. -/
theorem foldl_store_twice (hs : List Header) (g : Globals) :
    hs.foldl Header.store (hs.foldl Header.store g) = hs.foldl Header.store g := by
  have hname : Buffer.Overwrites fun b =>
      (hs.filterMap Header.name?).foldl (fun b value => b.putString (oddBytes value)) b :=
    Buffer.overwrites_foldl (fun value => Buffer.overwrites_write 0 (oddBytes value ++ [0])) _
  have hbody : Buffer.Overwrites fun b =>
      (hs.filterMap Header.body?).foldl Buffer.putString b :=
    Buffer.overwrites_foldl (fun chunk => Buffer.overwrites_write 0 (chunk ++ [0])) _
  rw [foldl_store_eq hs (hs.foldl Header.store g), foldl_store_eq hs g]
  simp only [hname.twice, hbody.twice, foldl_latest_twice]

/-! ## The frames -/

variable {g g' : Globals} {packet : Packet}

/-- Two states of the header loop that differ in what is stored only. -/
structure SameCmd (s s' : PutState) : Prop where
  i_eq : s'.i = s.i
  cmd_eq : s'.cmd = s.cmd
  send_eq : s'.send = s.send
  srcCid_eq : s'.globals.srcCid = s.globals.srcCid

theorem ackBuffer_congr (hcid : g'.srcCid = g.srcCid) :
    ackBuffer g' packet = ackBuffer g packet := by
  simp only [ackBuffer, recievedAck, hcid]

theorem ackFrames_congr (hcid : g'.srcCid = g.srcCid) :
    ackFrames g' packet = ackFrames g packet := by
  simp only [ackFrames, recievedAck, hcid]

theorem SameCmd.putHeader {s s' : PutState} (h : SameCmd s s') :
    SameCmd (putHeader packet s) (putHeader packet s') := by
  rw [putHeader_eq, putHeader_eq, h.i_eq]
  cases headerAt packet s.i with
  | none => exact h
  | some found =>
      obtain ⟨header, next⟩ := found
      have hcid := h.srcCid_eq
      refine ⟨rfl, ?_, ?_, ?_⟩
      · show header.reply s'.globals packet s'.cmd = header.reply s.globals packet s.cmd
        rw [h.cmd_eq]
        cases header <;> simp only [Header.reply, srmReply, endOfBodyReply, hcid]
      · show (s'.send || header.replies) = (s.send || header.replies)
        rw [h.send_eq]
      · show (header.store s'.globals).srcCid = (header.store s.globals).srcCid
        rw [header.store_srcCid, header.store_srcCid, hcid]

theorem SameCmd.putLoop {fuel : ℕ} {s s' : PutState} (h : SameCmd s s') :
    (putLoop packet fuel s').map (fun t => (t.cmd, t.send)) =
      (putLoop packet fuel s).map (fun t => (t.cmd, t.send)) := by
  induction fuel generalizing s s' with
  | zero =>
      rw [Bluetooth.putLoop, Bluetooth.putLoop, h.i_eq]
      split_ifs
      · rfl
      · rw [Option.map_some, Option.map_some, h.cmd_eq, h.send_eq]
  | succ fuel ih =>
      rw [Bluetooth.putLoop, Bluetooth.putLoop, h.i_eq]
      split_ifs
      · exact ih h.putHeader
      · rw [Option.map_some, Option.map_some, h.cmd_eq, h.send_eq]

/-- **What is queued** depends on two globals only. -/
theorem obexFtp_queued_congr (hcid : g'.srcCid = g.srcCid)
    (hconn : g'.obexConnId = g.obexConnId) :
    (obexFtp g' packet).queued = (obexFtp g packet).queued := by
  have hacks : ackFrames g' packet = ackFrames g packet := ackFrames_congr hcid
  have hbuffer : ackBuffer g' packet = ackBuffer g packet := ackBuffer_congr hcid
  have hstart : SameCmd (putStart g packet) (putStart g' packet) := ⟨rfl, hbuffer, rfl, hcid⟩
  have hloop : (putLoop packet packet.len.toNat (putStart g' packet)).map
        (fun t => (t.cmd, t.send)) =
      (putLoop packet packet.len.toNat (putStart g packet)).map (fun t => (t.cmd, t.send)) :=
    hstart.putLoop
  unfold obexFtp
  dsimp only
  rw [hacks, hbuffer]
  split_ifs with hframe hconnect hput
  · simp only [connectReply, hcid, hconn]
  · cases hsecond : putLoop packet packet.len.toNat (putStart g' packet) with
    | none =>
        rw [hsecond, Option.map_none] at hloop
        rw [Option.map_eq_none_iff.mp hloop.symm]
    | some s' =>
        rw [hsecond, Option.map_some] at hloop
        obtain ⟨s, hfirst, hsame⟩ := Option.map_eq_some_iff.mp hloop.symm
        obtain ⟨hcmd, hsend⟩ := Prod.mk.inj hsame
        rw [hfirst]
        dsimp only
        rw [hcmd, hsend]
  · rfl
  · rfl

/-- **Retransmissions are harmless**: the second time a packet is handled, the same frames
are queued, and all globals stay as they are. -/
theorem retransmission_harmless (h : (obexFtp g packet).next = some g') :
    obexFtp g' packet = obexFtp g packet := by
  rw [obexFtp_next] at h
  obtain ⟨hs, hheaders, rfl⟩ := Option.map_eq_some_iff.mp h
  have hcid : (hs.foldl Header.store g).srcCid = g.srcCid :=
    foldl_store_kept Globals.srcCid (fun h _ => by cases h <;> rfl) hs g
  have hconn : (hs.foldl Header.store g).obexConnId = g.obexConnId :=
    foldl_store_kept Globals.obexConnId (fun h _ => by cases h <;> rfl) hs g
  have hnext : (obexFtp (hs.foldl Header.store g) packet).next = (obexFtp g packet).next := by
    rw [obexFtp_next, obexFtp_next, hheaders, Option.map_some, Option.map_some,
      foldl_store_twice]
  exact congrArg₂ Outcome.mk (obexFtp_queued_congr hcid hconn) hnext

/-- A PUT I-frame with a name, a length, a part of a file and the end of it. -/
def resent : Packet := putPacket [.name (nameValue [0x61]), .length 2, .body [0x62], .endOfBody []]

theorem retransmission_harmless_resent :
    ∃ g', (obexFtp initial resent).next = some g' ∧ obexFtp g' resent = obexFtp initial resent := by
  obtain ⟨g', hnext⟩ := Option.isSome_iff_exists.mp
    (show (obexFtp initial resent).next.isSome = true by decide)
  exact ⟨g', hnext, retransmission_harmless hnext⟩

end HydroponicCloset.Obex
