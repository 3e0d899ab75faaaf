import HydroponicCloset.Links.OneLink
import HydroponicCloset.Transport.Stream

/-!
# Connecting and pairing

A peer that connects is announced by a Connection Request event, and one that pairs by a
PIN Code Request event.  The controller waits for a command that answers the event, for the
address in it.

`events_answered`: of all that the callback has queued, the commands that the controller
reads are the answers to these events, one for each, in order, whatever other packets come
in between and however the tasks take turns.  `hci_event_handler` could also reject a
connection, and never does.
-/

namespace HydroponicCloset.Links

open CMemory Wire Runs Bluetooth Obex Transport

/-! ## Commands -/

/-- The commands that answer an event. -/
inductive Command
  | acceptConnectionRequest (address : List UInt8) (role : UInt8)
  | rejectConnectionRequest (address : List UInt8) (reason : UInt8)
  | pinCodeRequestReply (address pin : List UInt8)
  deriving DecidableEq

/-- What the controller reads in the parameters: an address of six bytes first, and as many
bytes of the PIN as the length in front of it says. -/
def readParams (opcode : UInt16) (params : List UInt8) : Option Command :=
  if opcode = 0x0409 ∧ params.length = 7 then
    some (.acceptConnectionRequest (params.take 6) (params.getD 6 0))
  else if opcode = 0x040A ∧ params.length = 7 then
    some (.rejectConnectionRequest (params.take 6) (params.getD 6 0))
  else if opcode = 0x040D ∧ params.length = 23 then
    some (.pinCodeRequestReply (params.take 6) ((params.drop 7).take (params.getD 6 0).toNat))
  else none

/-- The command in a packet from the queue. -/
def readCommand (frame : Frame) : Option Command :=
  match H4.decode (vhciPacket frame) with
  | some (.command opcode params, []) => readParams opcode params
  | _ => none

/-- What an event is to be answered with. -/
def answer (packet : Packet) : Option Command :=
  if IsEvent hciEvtConnReq packet then
    some (.acceptConnectionRequest (eventAddress packet) 1)
  else if IsEvent hciEvtPinCodeReq packet then
    some (.pinCodeRequestReply (eventAddress packet) pin)
  else none

/-! ## Reading them -/

theorem readCommand_of_encode {frame : Frame} {opcode : UInt16}
    {params : {bytes : List UInt8 // bytes.length < 256}}
    (h : vhciPacket frame = (H4.command opcode params).encode) :
    readCommand frame = readParams opcode params := by
  have hdecode := H4.decode_encode (.command opcode params) []
  rw [List.append_nil] at hdecode
  rw [readCommand, h, hdecode]

/-- An ACL packet is no command. -/
theorem readCommand_of_whole {frame : Frame} (h : Whole false frame) :
    readCommand frame = none := by
  rcases h with hnone | ⟨p, hp, hencode⟩
  · rw [readCommand, hnone]
    rfl
  · cases p with
    | command opcode params => cases hp
    | acl flags payload =>
        have hdecode := H4.decode_encode (.acl flags payload) []
        rw [List.append_nil] at hdecode
        rw [readCommand, hencode, hdecode]

/-- The parameters that are not written are zero. -/
theorem vhciPacket_hciCommand {n : ℕ} {opcode : UInt16} {params : List UInt8}
    (hparams : params.length ≤ n) (hn : n < 256) :
    vhciPacket (queueFresh (hciCommand (hciH4CmdPreambleSize + n) opcode n params)) =
      (H4.command opcode ⟨params ++ List.replicate (n - params.length) 0, by
        simp
        omega⟩).encode := by
  have hlength : (hciCommand (hciH4CmdPreambleSize + n) opcode n params).length =
      params.length + 6 := by
    simp [hciCommand]
    omega
  have hzeros : maxCmdLen - (params.length + 6) =
      (n - params.length) + (maxCmdLen - (n + 6)) := by
    rw [maxCmdLen]
    omega
  have hframe : queueFresh (hciCommand (hciH4CmdPreambleSize + n) opcode n params) =
      be16 (UInt16.ofNat (hciH4CmdPreambleSize + n)) ++
        (0x01 :: (le16 opcode ++ UInt8.ofNat n ::
          (params ++ List.replicate (n - params.length) 0))) ++
        List.replicate (maxCmdLen - (n + 6)) 0 := by
    rw [queueFresh, queuePacket_cleared (by rw [hlength, maxCmdLen]; omega), padded, hlength,
      hzeros, List.replicate_add, ← uint8ToStream_be16 (by rw [hciH4CmdPreambleSize]; omega)]
    simp [hciCommand, uint8ToStream, uint16ToStream, h4TypeCommand]
  rw [hframe, vhciPacket_eq]
  · have hwritten : params.length + (n - params.length) = n := by omega
    simp [H4.encode, hwritten]
  · rw [UInt16.toNat_ofNat', hciH4CmdPreambleSize]
    simp
    omega

theorem eventAddress_length (packet : Packet) : (eventAddress packet).length = 6 := by
  simp [eventAddress]

theorem readCommand_accept (packet : Packet) :
    readCommand (queueFresh (hciCommand (hciH4CmdPreambleSize + 7) 0x0409 7
      (eventAddress packet ++ uint8ToStream 1))) =
        some (.acceptConnectionRequest (eventAddress packet) 1) := by
  have haddress := eventAddress_length packet
  have hlength : (eventAddress packet ++ uint8ToStream 1).length = 7 := by
    rw [List.length_append, haddress]
    rfl
  rw [readCommand_of_encode (vhciPacket_hciCommand (by rw [hlength]) (by decide))]
  simp [readParams, haddress, uint8ToStream]

theorem readCommand_pinCode (packet : Packet) :
    readCommand (queueFresh (hciCommand (hciH4CmdPreambleSize + 23) 0x040D 23
      (eventAddress packet ++ uint8ToStream pin.length ++ pin))) =
        some (.pinCodeRequestReply (eventAddress packet) pin) := by
  have haddress := eventAddress_length packet
  have hlength : (eventAddress packet ++ uint8ToStream pin.length ++ pin).length = 11 := by
    rw [List.length_append, List.length_append, haddress]
    rfl
  rw [readCommand_of_encode (vhciPacket_hciCommand (by rw [hlength]; decide) (by decide))]
  have hbehind : (eventAddress packet).drop 7 = [] := List.drop_eq_nil_of_le (by omega)
  simp [readParams, haddress, uint8ToStream, pin, List.drop_append, hbehind]

/-- What is queued for an event. -/
theorem queued_event {g : Globals} {packet : Packet} (hconnected : g.connected = 0)
    (hevent : packet 0 = 0x04) :
    (hostRcvPkt g packet).queued =
      if packet 1 = hciEvtConnReq then
        [queueFresh (hciCommand (hciH4CmdPreambleSize + 7) 0x0409 7
          (eventAddress packet ++ uint8ToStream 1))]
      else if packet 1 = hciEvtPinCodeReq then
        [queueFresh (hciCommand (hciH4CmdPreambleSize + 23) 0x040D 23
          (eventAddress packet ++ uint8ToStream pin.length ++ pin))]
      else [] := by
  rw [hostRcvPkt, if_pos hevent, hciEventHandler, if_pos hconnected]
  rfl

theorem answer_event {packet : Packet} (hevent : packet 0 = 0x04) :
    answer packet =
      if packet 1 = hciEvtConnReq then
        some (.acceptConnectionRequest (eventAddress packet) 1)
      else if packet 1 = hciEvtPinCodeReq then
        some (.pinCodeRequestReply (eventAddress packet) pin)
      else none := by
  simp only [answer, IsEvent, hevent, true_and]

/-- **A call** of the callback answers an event with one command, and nothing else. -/
theorem readCommand_queued {g : Globals} (hconnected : g.connected = 0) (packet : Packet) :
    (hostRcvPkt g packet).queued.filterMap readCommand = (answer packet).toList := by
  by_cases hevent : packet 0 = 0x04
  · rw [queued_event hconnected hevent, answer_event hevent]
    split_ifs
    · rw [List.filterMap_cons_some (readCommand_accept packet)]
      rfl
    · rw [List.filterMap_cons_some (readCommand_pinCode packet)]
      rfl
    · rfl
  · have hother := whole_queued g packet
    rw [decide_eq_false hevent] at hother
    have hnone : answer packet = none := by
      rw [answer, if_neg fun h => hevent h.1, if_neg fun h => hevent h.1]
    rw [hnone, Option.toList_none, List.filterMap_eq_nil_iff]
    exact fun frame hframe => readCommand_of_whole (hother frame hframe)

/-! ## Runs -/

variable {s s' : Host} {turns : List Turn}

/-- The callback's commands are the answers to the packets so far. -/
structure Answers (turns : List Turn) (s : Host) : Prop where
  follows : Follows turns s
  connected : ∀ g ∈ s.globals, g.connected = 0
  answers : (replies (received turns)).filterMap readCommand = (received turns).filterMap answer

theorem Answers.step {t : Turn} (h : Answers turns s) (hstep : s.step t = some s') :
    Answers (turns ++ [t]) s' := by
  have hother : received [t] = [] → s'.globals = s.globals → Answers (turns ++ [t]) s' := by
    intro hreceived hglobals
    refine ⟨h.follows.step hstep, hglobals ▸ h.connected, ?_⟩
    rw [received_append, hreceived, List.append_nil]
    exact h.answers
  cases t with
  | hostRcvPkt packet =>
      obtain ⟨g, hg, hcall⟩ := Option.bind_eq_some_iff.mp hstep
      obtain ⟨packets, -, hs'⟩ := Option.map_eq_some_iff.mp hcall
      have hconnected := h.connected g hg
      have hreceived : received (turns ++ [.hostRcvPkt packet]) = received turns ++ [packet] :=
        received_append turns _
      refine ⟨h.follows.step hstep, ?_, ?_⟩
      · intro g' hg'
        rw [← hs'] at hg'
        exact (deliver_connected hg').trans hconnected
      · rw [hreceived, replies_concat (h.follows.globals_eq.symm.trans hg), List.filterMap_append,
          List.filterMap_append, h.answers, readCommand_queued hconnected]
        cases hanswer : answer packet <;> simp [hanswer]
  | btAdvtTask sendAvail =>
      obtain ⟨packets, -, rfl⟩ := Option.map_eq_some_iff.mp hstep
      exact hother rfl rfl
  | queuePacket caller =>
      obtain rfl := Option.some.inj hstep
      exact hother rfl rfl
  | send sendAvail =>
      refine hother rfl ?_
      cases sendAvail <;> obtain rfl := Option.some.inj hstep <;> rfl

theorem answers_run (hrun : run Host.step .start turns = some s) : Answers turns s := by
  refine run_history Answers ⟨⟨rfl, rfl, rfl, rfl, rfl⟩, ?_, rfl⟩
    (fun _ _ _ _ h hstep => h.step hstep) hrun
  intro g hg
  obtain rfl : initial = g := Option.some.inj hg
  rfl

/-- **Every event is answered**: the commands that have been sent, and those that are still
to come. -/
theorem events_answered (hrun : run Host.step .start turns = some s) :
    (Fifo.ofWriter .hostRcvPkt (trace Host.step Host.sent .start turns) ++
        s.packets.left .hostRcvPkt).filterMap readCommand = (received turns).filterMap answer := by
  rw [sent_hostRcvPkt hrun]
  exact (answers_run hrun).answers

theorem events_answered_exchange :
    ∃ s, run Host.step .start Transport.exchange = some s ∧
      (Fifo.ofWriter .hostRcvPkt (trace Host.step Host.sent .start Transport.exchange) ++
        s.packets.left .hostRcvPkt).filterMap readCommand =
          (received Transport.exchange).filterMap answer :=
  ⟨_, rfl, events_answered rfl⟩

end HydroponicCloset.Links
