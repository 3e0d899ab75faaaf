import HydroponicCloset.Bluetooth.Types

/-!
# HCI events and commands

`hci_event_handler`, and the three commands that `btAdvtTask` sends from the
static buffer `hci_cmd_buf` when the controller accepts packets.
-/

namespace HydroponicCloset.Bluetooth

open CMemory Wire

/-- `pin` -/
def pin : List UInt8 := [0x31, 0x32, 0x33, 0x34]

/-- `tag`, the name of the device. -/
def tag : List UInt8 := [0x53, 0x42, 0x43, 0x32, 0x33, 0x30, 0x32, 0x5f, 0x41]

/-- `HCI_EVT_CONN_REQ` -/
def hciEvtConnReq : UInt8 := 0x04

/-- `HCI_EVT_PIN_CODE_REQ` -/
def hciEvtPinCodeReq : UInt8 := 0x16

/-- The length for the send task, the packet type, the opcode, the length of the
parameters, and the parameters. -/
def hciCommand (packSize : ℕ) (opcode : UInt16) (paramLen : ℕ) (params : List UInt8) :
    List UInt8 :=
  uint8ToStream (packSize / 256) ++ uint8ToStream (packSize % 256) ++
    uint8ToStream h4TypeCommand ++ uint16ToStream opcode ++ uint8ToStream paramLen ++ params

/-- The address in an event: bytes 3 to 8. -/
def eventAddress (packet : Packet) : List UInt8 := slice packet 3 6

/-- `hci_event_handler(packet, len)` -/
def hciEventHandler (g : Globals) (packet : Packet) : List Frame :=
  if packet 1 = hciEvtConnReq then
    if g.connected = 0 then
      [queuePacket (CmdBuf.cleared.stream (hciCommand (hciH4CmdPreambleSize + 7) 0x0409 7
        (eventAddress packet ++ uint8ToStream 1))).cmdBuf]
    else
      [queuePacket (CmdBuf.cleared.stream (hciCommand (hciH4CmdPreambleSize + 7) 0x040A 7
        (eventAddress packet ++ uint8ToStream 1))).cmdBuf]
  else if packet 1 = hciEvtPinCodeReq then
    [queuePacket (CmdBuf.cleared.stream (hciCommand (hciH4CmdPreambleSize + 23) 0x040D 23
      (eventAddress packet ++ uint8ToStream pin.length ++ pin))).cmdBuf]
  else []

/-! ## The advertising task -/

/-- `cmd_cnt`, and the static `hci_cmd_buf`. -/
structure AdvtTask where
  cmdCnt : ℕ := 0
  hciCmdBuf : Buffer := zeroed

/-- `make_cmd_reset(buf)` -/
def makeCmdReset (buf : Buffer) : Buffer :=
  buf.write 0 (hciCommand hciH4CmdPreambleSize 0x0C03 0 [])

/-- `make_cmd_chanage_local_name(buf, name)`, which writes no more of the field than the name. -/
def makeCmdChangeLocalName (buf : Buffer) (name : List UInt8) : Buffer :=
  buf.write 0 (hciCommand (hciH4CmdPreambleSize + 248) 0x0C13 248 name)

/-- `make_cmd_set_scan_mode(buf, scan_mode)` -/
def makeCmdSetScanMode (buf : Buffer) (scanMode : ℕ) : Buffer :=
  buf.write 0 (hciCommand (hciH4CmdPreambleSize + 1) 0x0C1A 1 (uint8ToStream scanMode))

/-- The command that `cmd_cnt` selects, made in `hci_cmd_buf`. -/
def advtCommand (task : AdvtTask) : Option Buffer :=
  match task.cmdCnt with
  | 0 => some (makeCmdReset task.hciCmdBuf)
  | 1 => some (makeCmdChangeLocalName task.hciCmdBuf tag)
  | 2 => some (makeCmdSetScanMode task.hciCmdBuf 3)
  | _ => none

/-- One pass of the loop of `btAdvtTask`. -/
def btAdvtTask (task : AdvtTask) (sendAvail : Bool) : AdvtTask × List Frame :=
  if sendAvail then
    match advtCommand task with
    | some hciCmdBuf => (⟨task.cmdCnt + 1, hciCmdBuf⟩, [queuePacket hciCmdBuf])
    | none => (task, [])
  else (task, [])

end HydroponicCloset.Bluetooth
