import HydroponicCloset.Bluetooth.Crc16

/-!
# The OBEX handler

`obex_ftp`, as `bt_main.c` has it.  Every packet whose transmit sequence number
ends a group of eight is acknowledged first.  A Connect is answered at once; a
PUT runs over its headers from offset 14 up to the two bytes of the FCS.

The header loop has no increment of its own: `putHeader` is one iteration, and
advances `i` in the branch it takes, if it takes one.  `putLoop` iterates it.
Every iteration that makes progress moves `i` by at least one, so `len`
iterations are enough for a loop that ends at all, and `none` says that the call
never returns.
-/

namespace HydroponicCloset.Bluetooth

open CMemory Wire

namespace Packet

/-- `frame_type`: zero for an I-frame. -/
def frameType (packet : Packet) : UInt8 := packet 9 &&& 0b00000001

/-- `command` of an OBEX packet. -/
def obexCommand (packet : Packet) : UInt8 := packet 11 &&& 0b01111111

/-- `obex_reqseq` -/
def obexReqseq (packet : Packet) : UInt8 := packet 10 &&& 0b00111111

/-- `obex_txseq`, still shifted left by one. -/
def obexTxseq (packet : Packet) : UInt8 := packet 9 &&& 0b01111110

end Packet

/-- Stream some bytes and then the FCS of the `n` bytes from `cmd_buf[7]` on. -/
def CmdBuf.streamFcs (c : CmdBuf) (bytes : List UInt8) (n : ℕ) : CmdBuf :=
  let c := c.stream bytes
  c.stream (uint16ToStream (crc16 0 (slice c.cmdBuf.bytes 7 n)))

/-- The acknowledgement sent after every eighth packet. -/
def recievedAck (g : Globals) (packet : Packet) (c : CmdBuf) : CmdBuf :=
  let tx := (packet.obexTxseq >>> 1).toNat + 1
  c.streamFcs (aclHeader 13 packet.aclFlags 8 4 g.srcCid ++ uint8ToStream 0x01 ++
    uint8ToStream tx) 6

/-- The reply to an OBEX Connect. -/
def connectReply (g : Globals) (packet : Packet) (c : CmdBuf) : CmdBuf :=
  c.streamFcs (aclHeader 25 packet.aclFlags 20 16 g.srcCid ++ uint8ToStream 0x00 ++
    uint8ToStream 0x01 ++ uint8ToStream 0xa0 ++ uint8ToStream 0 ++ uint8ToStream 0x0c ++
    uint8ToStream 0x10 ++ uint8ToStream 0x00 ++ uint8ToStream (maxObexPack / 256) ++
    uint8ToStream (maxObexPack % 256) ++ uint8ToStream 0xcb ++ uint16ToStream 0x00 ++
    uint8ToStream (g.obexConnId.toNat / 256) ++ uint8ToStream (g.obexConnId.toNat % 256)) 18

/-- The reply to a Single Response Mode header. -/
def srmReply (g : Globals) (packet : Packet) (c : CmdBuf) : CmdBuf :=
  c.streamFcs (aclHeader 18 packet.aclFlags 13 9 g.srcCid ++
    uint8ToStream (packet.obexReqseq.toNat <<< 1) ++
    uint8ToStream ((packet.obexTxseq >>> 1).toNat + 1) ++ uint8ToStream 0x90 ++
    uint8ToStream 0x00 ++ uint8ToStream 0x05 ++ uint8ToStream 0x97 ++ uint8ToStream 0x01) 11

/-- The reply to an End-of-Body header. -/
def endOfBodyReply (g : Globals) (packet : Packet) (c : CmdBuf) : CmdBuf :=
  c.streamFcs (aclHeader 16 packet.aclFlags 11 7 g.srcCid ++
    uint8ToStream (packet.obexReqseq.toNat <<< 1) ++
    uint8ToStream ((packet.obexTxseq >>> 1).toNat + 1) ++ uint8ToStream 0xa0 ++
    uint8ToStream 0x00 ++ uint8ToStream 0x03) 9

/-- The variables the header loop changes. -/
structure PutState where
  i : ℕ
  globals : Globals
  cmd : CmdBuf
  send : Bool

/-- One iteration of the header loop. -/
def putHeader (packet : Packet) (s : PutState) : PutState :=
  let g := s.globals
  let i := s.i
  -- `head_len`, read by the three branches with a length of their own
  let headLen := (word (packet (i + 1)) (packet (i + 2))).toNat
  -- connection id
  if packet i = 0xcb then
    { s with i := i + 5 }
  -- file name
  else if packet i = 0x01 then
    let copied := copyLoop packet g.buffer1 (forRange (i + 4) (headLen + i) 2)
    { s with i := i + headLen, globals := { g with buffer1 := copied.2.set copied.1 0 } }
  -- file size
  else if packet i = 0xc3 then
    let fileLen := [1, 2, 3, 4].foldl (fun acc j => shiftIn acc (packet (i + j))) g.fileLen
    { s with i := i + 5, globals := { g with fileLen := fileLen } }
  -- file contents
  else if packet i = 0x48 then
    let copied := copyLoop packet g.buffer2 (forRange (i + 3) (headLen + i) 1)
    { s with i := i + headLen, globals := { g with buffer2 := copied.2.set copied.1 0 } }
  -- file type
  else if packet i = 0x42 then
    { s with i := i + headLen }
  -- enable single response mode
  else if packet i = 0x97 then
    { s with i := i + 2, cmd := srmReply g packet s.cmd, send := true }
  -- end of body
  else if packet i = 0x49 then
    { s with i := i + 3, cmd := endOfBodyReply g packet s.cmd, send := true }
  -- no branch is taken, and `i` stays where it is
  else s

/-- At most `fuel` iterations of the header loop. -/
def putLoop (packet : Packet) : ℕ → PutState → Option PutState
  | 0, s => if s.i + 2 < packet.len.toNat then none else some s
  | fuel + 1, s =>
      if s.i + 2 < packet.len.toNat then putLoop packet fuel (putHeader packet s) else some s

/-- `((obex_txseq >> 1) + 1) % 8 == 0` -/
def AckDue (packet : Packet) : Prop :=
  ((packet.obexTxseq >>> 1).toNat + 1) % 8 = 0

instance (packet : Packet) : Decidable (AckDue packet) :=
  inferInstanceAs (Decidable (_ = _))

/-- The command buffer after the acknowledgement, if one is due: the pointer is
set back, and the bytes stay. -/
def ackBuffer (g : Globals) (packet : Packet) : CmdBuf :=
  if AckDue packet then { recievedAck g packet .cleared with buf := 0 } else .cleared

/-- The acknowledgement, if one is due. -/
def ackFrames (g : Globals) (packet : Packet) : List Frame :=
  if AckDue packet then [queuePacket (recievedAck g packet .cleared).cmdBuf] else []

/-- The variables of the header loop when it starts. -/
def putStart (g : Globals) (packet : Packet) : PutState :=
  { i := 14, globals := g, cmd := ackBuffer g packet, send := false }

/-- `obex_ftp(packet, len)` -/
def obexFtp (g : Globals) (packet : Packet) : Outcome :=
  let acks := ackFrames g packet
  if packet.frameType = 0 then
    if packet.obexCommand = 0x00 then
      ⟨acks ++ [queuePacket (connectReply g packet (ackBuffer g packet)).cmdBuf], some g⟩
    else if packet.obexCommand = 0x02 then
      match putLoop packet packet.len.toNat (putStart g packet) with
      | none => ⟨acks, none⟩
      | some s => ⟨acks ++ if s.send then [queuePacket s.cmd.cmdBuf] else [], some s.globals⟩
    else ⟨acks, some g⟩
  else ⟨acks, some g⟩

end HydroponicCloset.Bluetooth
