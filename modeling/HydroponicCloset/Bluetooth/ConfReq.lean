import HydroponicCloset.Bluetooth.Types

/-!
# The configuration process

`conf_req` answers a Configuration Request.  It looks at the first option of
the request, at byte 17, and knows four cases: an MTU option alone, an MTU
option followed by an extended feature mask, and an extended feature mask alone
in flow control or in retransmission mode.  The last two answer with a command
whose code is `0x04`.  A request outside the four cases leaves the buffer as it
was.
-/

namespace HydroponicCloset.Bluetooth

open CMemory Wire

/-- `L2CAP_CMD_CONF_RES` -/
def l2capCmdConfRes : UInt8 := 0x05

/-- `ertm` -/
def ertm : List UInt8 :=
  [0x04, 0x09, 0x03, 0x0a, 0x14, 0xd0, 0x07, 0xe0, 0x2e, 0xf2, 0x03]

/-- `conf_req(buf, packet, len)` -/
def confReq (g : Globals) (buf : CmdBuf) (packet : Packet) : Globals × CmdBuf :=
  -- only an MTU request
  if packet 17 = 0x01 ∧ packet.len < 22 then
    ({ g with mtu := word (packet 20) (packet 19) },
      buf.stream (signal 23 packet.aclFlags 18 14 packet.sigChannel
        l2capCmdConfRes.toNat (packet 10).toNat 10
        (uint16ToStream g.srcCid ++ uint16ToStream 0 ++ uint16ToStream 0 ++
          uint8ToStream 0x01 ++ uint8ToStream 0x02 ++
          uint16ToStream (word (packet 20) (packet 19)))))
  -- MTU and EFM request
  else if packet 17 = 0x01 ∧ packet 21 = 0x04 then
    ({ g with mtu := word (packet 20) (packet 19) },
      buf.stream (signal 34 packet.aclFlags 29 25 packet.sigChannel
        l2capCmdConfRes.toNat (packet 10).toNat 21
        (uint16ToStream g.srcCid ++ uint16ToStream 0 ++ uint16ToStream 0 ++
          uint8ToStream 0x01 ++ uint8ToStream 0x02 ++
          uint16ToStream (word (packet 20) (packet 19)) ++
          uint8ToStream 0x04 ++ uint8ToStream 0x09 ++ uint8ToStream 0x03 ++
          uint8ToStream 0x0a ++ uint8ToStream 0x14 ++ uint16ToStream 2000 ++
          uint16ToStream 12000 ++ uint16ToStream 1010)))
  -- only an EFM request (flow control mode)
  else if packet 17 = 0x04 ∧ packet 19 = 0x00 then
    ({ g with mtu := 1024 },
      buf.stream (signal 21 packet.aclFlags 16 12 packet.sigChannel 0x04
        (packet 10).toNat 8
        (uint16ToStream g.srcCid ++ uint16ToStream 0 ++
          uint8ToStream 0x01 ++ uint8ToStream 0x02 ++ uint16ToStream 1024)))
  -- only an EFM request (retransmission and flow control mode)
  else if packet 17 = 0x04 ∧ packet 19 = 0x03 then
    ({ g with mtu := 1024 },
      buf.stream (signal 32 packet.aclFlags 27 23 packet.sigChannel 0x04
        (packet 10).toNat 19
        (uint16ToStream g.srcCid ++ uint16ToStream 0 ++
          uint8ToStream 0x01 ++ uint8ToStream 0x02 ++ uint16ToStream 1024 ++ ertm)))
  else (g, buf)

/-! ## The requests that are answered with a response -/

/-- The first two cases of `conf_req`, which write a Configuration Response. -/
def ConfAnswered (packet : Packet) : Prop :=
  packet 17 = 0x01 ∧ (packet.len < 22 ∨ packet 21 = 0x04)

/-- The last two cases of `conf_req`, which write a Configuration Request. -/
def ConfEchoed (packet : Packet) : Prop :=
  packet 17 = 0x04 ∧ (packet 19 = 0x00 ∨ packet 19 = 0x03)

instance (packet : Packet) : Decidable (ConfAnswered packet) :=
  inferInstanceAs (Decidable (_ ∧ _))

instance (packet : Packet) : Decidable (ConfEchoed packet) :=
  inferInstanceAs (Decidable (_ ∧ _))

end HydroponicCloset.Bluetooth
