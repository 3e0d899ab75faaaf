import HydroponicCloset.Lib.Memory
import HydroponicCloset.Lib.Wire

/-!
# The data of the Bluetooth stack

Packets, the file-scope variables of `bt_main.c`, and the macros of `bt_main.h`
that fill a command buffer.

A received packet is the memory its pointer points into, together with the
length the callback was given: the handlers index the packet without looking at
`len` first, and what lies beyond it is whatever that memory holds.

`queue_packet` copies `MAX_CMD_LEN` bytes into the send queue.  It waits while
the queue is full; the `send` task empties the queue, so the model appends.

The buffers have no end here.  What is said of frames and of files is said of
packets on which `obex_ftp` stays within its own; which these are is the subject
of `Safety.Writes`.
-/

namespace HydroponicCloset.Bluetooth

open CMemory Wire

/-! ## Constants

`MAX_CMD_LEN`, `MAX_OBEX_PACK`, `HCI_H4_CMD_PREAMBLE_SIZE` and the packet types
of `hci_packet_t`. -/

/-- `MAX_CMD_LEN` -/
def maxCmdLen : ℕ := 300

/-- `MAX_OBEX_PACK` -/
def maxObexPack : ℕ := 500

/-- `HCI_H4_CMD_PREAMBLE_SIZE` -/
def hciH4CmdPreambleSize : ℕ := 4

/-- `H4_TYPE_COMMAND` -/
def h4TypeCommand : ℕ := 1

/-- `H4_TYPE_ACL` -/
def h4TypeAcl : ℕ := 2

/-! ## Packets and frames -/

/-- A received packet: the memory at `packet`, and `len`. -/
structure Packet where
  data : ℕ → UInt8
  len : UInt16

instance : CoeFun Packet fun _ => ℕ → UInt8 := ⟨Packet.data⟩

namespace Packet

/-- A packet whose bytes are listed, in a memory that is zero elsewhere. -/
def ofBytes (bytes : List UInt8) : Packet :=
  ⟨fun k => bytes.getD k 0, UInt16.ofNat bytes.length⟩

/-- The connection handle and its flags. -/
def aclFlags (packet : Packet) : UInt16 := word (packet 2) (packet 1)

/-- `sig_channel`: the L2CAP channel id the packet is addressed to. -/
def sigChannel (packet : Packet) : UInt16 := word (packet 8) (packet 7)

/-- The code of a signalling command, or the PDU id of an SDP request. -/
def command (packet : Packet) : UInt8 := packet 9

/-- The identifier of a signalling command. -/
def identifier (packet : Packet) : UInt8 := packet 10

end Packet

/-- An entry of the send queue, as its bytes. -/
abbrev Frame := List UInt8

/-- The entry that `queue_packet(cmd_buf)` appends to the send queue. -/
def queuePacket (cmdBuf : Buffer) : Frame := slice cmdBuf.bytes 0 maxCmdLen

/-! ## The file-scope variables -/

/-- The file-scope variables of `bt_main.c` that the handlers use; `buffer1`
and `buffer2` are the arrays that `set_dir` installed. -/
structure Globals where
  obexCid : UInt8 := 0
  connected : UInt8 := 0
  srcCid : UInt16 := 0
  destCid : UInt16 := 0x41
  mtu : UInt16 := 0
  obexConnId : UInt16 := 1
  fileLen : UInt32 := -1
  buffer1 : Buffer
  buffer2 : Buffer

/-- `set_dir`, before any packet. -/
def setDir (buffer1 buffer2 : Buffer) : Globals :=
  { buffer1 := buffer1, buffer2 := buffer2 }

/-- The globals before the first packet: `fi` and `content` are zero. -/
def initial : Globals := setDir zeroed zeroed

/-- What handling a packet does: the frames it queues, and the globals it
leaves, or `none` if the call never returns. -/
structure Outcome where
  queued : List Frame
  next : Option Globals

/-! ## Command buffers -/

/-- `UINT8_TO_STREAM`: the low byte of an integer. -/
def uint8ToStream (u8 : ℕ) : List UInt8 := [UInt8.ofNat u8]

/-- `UINT16_TO_STREAM`: a word, low byte first. -/
def uint16ToStream (u16 : UInt16) : List UInt8 := le16 u16

@[simp] theorem uint8ToStream_length (u8 : ℕ) : (uint8ToStream u8).length = 1 := rfl

@[simp] theorem uint16ToStream_length (u16 : UInt16) : (uint16ToStream u16).length = 2 := rfl

/-- A word, high byte first. -/
theorem uint8ToStream_be16 {n : ℕ} (h : n < 65536) :
    uint8ToStream (n / 256) ++ uint8ToStream (n % 256) = be16 (UInt16.ofNat n) := by
  have hhigh : UInt8.ofNat (n / 256) = (UInt16.ofNat n >>> 8).toUInt8 := by
    apply UInt8.toNat_inj.mp
    rw [high_toNat, UInt16.toNat_ofNat', UInt8.toNat_ofNat']
    omega
  have hlow : UInt8.ofNat (n % 256) = (UInt16.ofNat n).toUInt8 := by
    apply UInt8.toNat_inj.mp
    rw [low_toNat, UInt16.toNat_ofNat', UInt8.toNat_ofNat']
    omega
  simp only [uint8ToStream, be16, hhigh, hlow, List.singleton_append]

/-- A local `cmd_buf` and the write pointer `buf` into it. -/
structure CmdBuf where
  cmdBuf : Buffer
  buf : ℕ

/-- `memset(cmd_buf, 0, sizeof(cmd_buf)); buf = cmd_buf;` -/
def CmdBuf.cleared : CmdBuf := ⟨zeroed, 0⟩

/-- Write some bytes at `buf`, and move it behind them. -/
def CmdBuf.stream (c : CmdBuf) (bytes : List UInt8) : CmdBuf :=
  ⟨c.cmdBuf.write c.buf bytes, c.buf + bytes.length⟩

/-- The first bytes of every ACL frame: its length for the send task, the packet
type, the ACL flags, the ACL and L2CAP lengths and the channel id. -/
def aclHeader (packLen : ℕ) (aclFlags aclLen l2capLen cid : UInt16) : List UInt8 :=
  uint8ToStream (packLen / 256) ++ uint8ToStream (packLen % 256) ++
    uint8ToStream h4TypeAcl ++ uint16ToStream aclFlags ++ uint16ToStream aclLen ++
    uint16ToStream l2capLen ++ uint16ToStream cid

/-- A signalling command: the ACL header, the command's code, identifier and
length, and its data. -/
def signal (packLen : ℕ) (aclFlags aclLen l2capLen sigChannel : UInt16) (code identifier : ℕ)
    (length : UInt16) (data : List UInt8) : List UInt8 :=
  aclHeader packLen aclFlags aclLen l2capLen sigChannel ++ uint8ToStream code ++
    uint8ToStream identifier ++ uint16ToStream length ++ data

/-! ## What is queued from a fresh buffer -/

/-- A queue entry that holds `bytes` and is zero from there on. -/
def padded (bytes : List UInt8) : Frame :=
  bytes ++ List.replicate (maxCmdLen - bytes.length) 0

theorem queuePacket_cleared {bytes : List UInt8} (h : bytes.length ≤ maxCmdLen) :
    queuePacket (CmdBuf.cleared.stream bytes).cmdBuf = padded bytes := by
  have hsplit : maxCmdLen = bytes.length + (maxCmdLen - bytes.length) := by omega
  unfold queuePacket padded CmdBuf.cleared CmdBuf.stream
  conv_lhs => rw [hsplit]
  rw [slice_add, Buffer.write_slice]
  congr 1
  apply List.ext_getElem (by simp)
  intro k hk _
  rw [slice_getElem, Buffer.write_zero_bytes, List.getElem?_eq_none (by omega)]
  simp

@[simp] theorem aclHeader_length (packLen : ℕ) (aclFlags aclLen l2capLen cid : UInt16) :
    (aclHeader packLen aclFlags aclLen l2capLen cid).length = 11 := rfl

@[simp] theorem signal_length (packLen code identifier : ℕ)
    (aclFlags aclLen l2capLen sigChannel length : UInt16) (data : List UInt8) :
    (signal packLen aclFlags aclLen l2capLen sigChannel code identifier length data).length =
      data.length + 15 := by
  simp [signal]
  omega

end HydroponicCloset.Bluetooth
