import HydroponicCloset.Bluetooth.ConfReq
import HydroponicCloset.Bluetooth.ObexFtp
import HydroponicCloset.Bluetooth.Hci

/-!
# The L2CAP handler

`l2cap_cmd_handler` sends a packet on channel 1 through the signalling commands,
one on channel `obex_cid` to `obex_ftp`, and reads any other as an SDP request.
`host_rcv_pkt` is the callback that every received packet enters by.
-/

namespace HydroponicCloset.Bluetooth

open CMemory Wire

/-- `L2CAP_CMD_CONN_REQ` -/
def l2capCmdConnReq : UInt8 := 0x02

/-- `L2CAP_CMD_CONF_REQ` -/
def l2capCmdConfReq : UInt8 := 0x04

/-- `L2CAP_CMD_DISCONN_REQ` -/
def l2capCmdDisconnReq : UInt8 := 0x06

/-- `L2CAP_CMD_INFO_REQ` -/
def l2capCmdInfoReq : UInt8 := 0x0A

/-- `SDP_ATT_REQ` -/
def sdpAttReq : UInt8 := 0x06

/-- Queue a buffer that was cleared and then filled. -/
def queueFresh (bytes : List UInt8) : Frame :=
  queuePacket (CmdBuf.cleared.stream bytes).cmdBuf

/-! ## Signalling commands -/

/-- Information request. -/
def infoReq (packet : Packet) : List Frame :=
  if packet 13 = 0x02 then
    [queueFresh (signal 21 packet.aclFlags 16 12 packet.sigChannel 0x0b
      packet.identifier.toNat 8
      (uint16ToStream 0x02 ++ uint16ToStream 0 ++ uint16ToStream 0x02b8 ++ uint16ToStream 0))]
  else if packet 13 = 0x03 then
    [queueFresh (signal 25 packet.aclFlags 20 16 packet.sigChannel 0x0b
      packet.identifier.toNat 12
      (uint16ToStream 0x0003 ++ uint16ToStream 0 ++ uint16ToStream 0x86 ++ uint16ToStream 0 ++
        uint16ToStream 0 ++ uint16ToStream 0))]
  else []

/-- The source CID of a Connection Request. -/
def Packet.sourceCid (packet : Packet) : UInt16 := word (packet 16) (packet 15)

/-- The PSM of a Connection Request is 0x1009. -/
def Packet.ObexPsm (packet : Packet) : Prop := packet 13 = 0x09 ∧ packet 14 = 0x10

instance (packet : Packet) : Decidable packet.ObexPsm :=
  inferInstanceAs (Decidable (_ ∧ _))

/-- The response to a Connection Request, which always accepts. -/
def connRes (g : Globals) (packet : Packet) : Frame :=
  queueFresh (signal 21 packet.aclFlags 16 12 packet.sigChannel 0x03
    packet.identifier.toNat 8
    (uint16ToStream g.destCid ++ uint16ToStream packet.sourceCid ++ uint16ToStream 0 ++
      uint16ToStream 0))

/-- The Configuration Request that follows a Connection Response. -/
def connConfReq (packet : Packet) : Frame :=
  queueFresh (signal 28 packet.aclFlags 23 19 packet.sigChannel 0x04
    (packet.identifier.toNat + 1) 15
    (uint16ToStream packet.sourceCid ++ uint16ToStream 0 ++
      if packet.ObexPsm then
        uint8ToStream 0x04 ++ uint8ToStream 0x09 ++ uint8ToStream 0x03 ++ uint8ToStream 63 ++
          uint8ToStream 3 ++ uint16ToStream 2000 ++ uint16ToStream 12000 ++ uint16ToStream 1012
      else
        uint8ToStream 4 ++ uint8ToStream 9 ++ uint16ToStream 0 ++ uint16ToStream 0 ++
          uint16ToStream 0 ++ uint16ToStream 0 ++ uint8ToStream 0))

/-- Connection request. -/
def connReq (g : Globals) (packet : Packet) : Globals × List Frame :=
  ({ g with
      srcCid := packet.sourceCid
      obexCid := if packet.ObexPsm then g.destCid.toUInt8 else g.obexCid
      destCid := g.destCid + 1 },
    [connRes g packet, connConfReq packet])

/-- Configuration response, which is answered with a Configuration Response. -/
def confRes (g : Globals) (packet : Packet) : List Frame :=
  [queueFresh (signal 19 packet.aclFlags 14 10 packet.sigChannel 0x05
    packet.identifier.toNat 6
    (uint16ToStream g.srcCid ++ uint16ToStream 0 ++ uint16ToStream 0))]

/-- Disconnection request. -/
def disconnReq (packet : Packet) : List Frame :=
  [queueFresh (signal 17 packet.aclFlags 12 8 packet.sigChannel 0x07
    packet.identifier.toNat 4
    (uint16ToStream (word (packet 14) (packet 13)) ++
      uint16ToStream (word (packet 16) (packet 15))))]

/-- The commands on the signalling channel. -/
def signalling (g : Globals) (packet : Packet) : Globals × List Frame :=
  if packet.command = l2capCmdInfoReq then (g, infoReq packet)
  else if packet.command = l2capCmdConnReq then connReq g packet
  else if packet.command = l2capCmdConfReq then
    let r := confReq g .cleared packet
    -- queued whatever `conf_req` left in the buffer
    (r.1, [queuePacket r.2.cmdBuf])
  else if packet.command = l2capCmdConfRes then (g, confRes g packet)
  else if packet.command = l2capCmdDisconnReq then (g, disconnReq packet)
  else (g, [])

/-! ## Service discovery -/

/-- `obex_push` -/
def obexPush : List UInt8 :=
  [0x35, 0x66, 0x35, 0x64, 0x09, 0x00, 0x00, 0x0a, 0x00, 0x01, 0x00, 0x0e, 0x09, 0x00,
    0x01, 0x35, 0x03, 0x19, 0x11, 0x05, 0x09, 0x00, 0x04, 0x35, 0x11, 0x35, 0x03, 0x19,
    0x01, 0x00, 0x35, 0x05, 0x19, 0x00, 0x03, 0x08, 0x09, 0x35, 0x03, 0x19, 0x00, 0x08,
    0x09, 0x00, 0x05, 0x35, 0x03, 0x19, 0x10, 0x02, 0x09, 0x00, 0x09, 0x35, 0x08, 0x35,
    0x06, 0x19, 0x11, 0x05, 0x09, 0x01, 0x02, 0x09, 0x01, 0x00, 0x25, 0x0b, 0x4f, 0x62,
    0x6a, 0x65, 0x63, 0x74, 0x20, 0x50, 0x75, 0x73, 0x68, 0x09, 0x02, 0x00, 0x09, 0x10,
    0x09, 0x09, 0x03, 0x03, 0x35, 0x0e, 0x08, 0x01, 0x08, 0x02, 0x08, 0x03, 0x08, 0x04,
    0x08, 0x05, 0x08, 0x06, 0x08, 0xff]

/-- `pnp` -/
def pnp : List UInt8 :=
  [0x35, 0x36, 0x36, 0x00, 0x33, 0x09, 0x00, 0x00, 0x0a, 0x00, 0x01, 0x00, 0x02, 0x09,
    0x00, 0x01, 0x35, 0x03, 0x19, 0x12, 0x00, 0x09, 0x02, 0x00, 0x09, 0x01, 0x03, 0x09,
    0x02, 0x01, 0x09, 0x00, 0x75, 0x09, 0x02, 0x02, 0x09, 0x01, 0x00, 0x09, 0x02, 0x03,
    0x09, 0x02, 0x01, 0x09, 0x02, 0x04, 0x28, 0x01, 0x09, 0x02, 0x05, 0x09, 0x00, 0x01]

/-- An SDP Attribute Response: transaction id, parameter length, byte count, the
attribute list and an empty continuation state. -/
def attRes (g : Globals) (packet : Packet) (packLen : ℕ)
    (aclLen l2capLen paramLen count : UInt16) (attributes : List UInt8) : List UInt8 :=
  aclHeader packLen packet.aclFlags aclLen l2capLen g.srcCid ++ uint8ToStream 0x07 ++
    uint16ToStream (word (packet 11) (packet 10)) ++ uint16ToStream paramLen ++
    uint16ToStream count ++ attributes ++ uint8ToStream 0

/-- Requests on any other channel. -/
def sdp (g : Globals) (packet : Packet) : List Frame :=
  if packet.command = sdpAttReq then
    if (packet 17 = 0x01 ∧ packet 18 = 0x00) ∨ (packet 17 = 0x11 ∧ packet 18 = 0x05) then
      [queueFresh (attRes g packet 121 116 112 0x6b00 0x6800 obexPush)]
    else if packet 17 = 0x12 ∧ packet 18 = 0x00 then
      [queueFresh (attRes g packet 73 68 64 0x3b00 0x3800 pnp)]
    else []
  else []

/-! ## Dispatch -/

/-- The part of `l2cap_cmd_handler` that a packet goes to. -/
inductive Handler
  | signalling
  | obex
  | sdp
  deriving DecidableEq

/-- The tests on `sig_channel`. -/
def multiplex (g : Globals) (packet : Packet) : Handler :=
  if packet.sigChannel = 0x01 then .signalling
  else if packet.sigChannel = g.obexCid.toUInt16 then .obex
  else .sdp

/-- `l2cap_cmd_handler(packet, len)` -/
def l2capCmdHandler (g : Globals) (packet : Packet) : Outcome :=
  match multiplex g packet with
  | .signalling => ⟨(signalling g packet).2, some (signalling g packet).1⟩
  | .obex => obexFtp g packet
  | .sdp => ⟨sdp g packet, some g⟩

/-- `host_rcv_pkt(data, len)` -/
def hostRcvPkt (g : Globals) (packet : Packet) : Outcome :=
  if packet 0 = 0x04 then ⟨hciEventHandler g packet, some g⟩
  else if packet 0 = 0x02 then l2capCmdHandler g packet
  else ⟨[], some g⟩

/-- An ACL packet goes to the L2CAP handler. -/
theorem hostRcvPkt_acl (g : Globals) {packet : Packet} (hacl : packet 0 = 0x02) :
    hostRcvPkt g packet = l2capCmdHandler g packet := by
  have hevent : ¬ packet 0 = 0x04 := by
    rw [hacl]
    decide
  rw [hostRcvPkt, if_neg hevent, if_pos hacl]

end HydroponicCloset.Bluetooth
