import HydroponicCloset.Framing.Fields
import HydroponicCloset.Framing.Format
import HydroponicCloset.Lib.Runs

/-!
# The frames the stack sends

Packets are delivered to `host_rcv_pkt` and `btAdvtTask` takes its steps, in any
order.  Every frame that `hci_event_handler`, `l2cap_cmd_handler` or
`btAdvtTask` queues is well framed, with two exceptions:

* `l2cap_cmd_handler` queues the buffer of `conf_req` even when none of its four
  cases has written to it, and that buffer is all zeros;
* the request that follows a Connection Response has the identifier of the
  Connection Request plus one, which is zero after 255.

`frames_wellFramed_iff` says that there is no third one.  The frames of
`obex_ftp` are not part of the statement.
-/

namespace HydroponicCloset.Framing

open CMemory Wire Runs Bluetooth

/-! ## The signalling commands -/

/-- A signalling packet that is answered by well-framed packets only. -/
def Proper (packet : Packet) : Prop :=
  (packet.command = l2capCmdConfReq → ConfAnswered packet ∨ ConfEchoed packet) ∧
    (packet.command = l2capCmdConnReq → packet.identifier ≠ 255)

theorem infoReq_wellFramed {packet : Packet} :
    ∀ frame ∈ infoReq packet, WellFramed (.signalling packet.identifier) frame := by
  have hid : packet.identifier ≠ 0 → UInt8.ofNat packet.identifier.toNat ≠ 0 := by simp
  unfold infoReq
  split_ifs
  · simp only [List.mem_singleton, forall_eq]
    exact signal_wellFramed (by simp) rfl (by decide) rfl rfl rfl (by simp [SignalData]) hid
  · simp only [List.mem_singleton, forall_eq]
    exact signal_wellFramed (by simp) rfl (by decide) rfl rfl rfl (by simp [SignalData]) hid
  · simp

theorem connRes_wellFramed {g : Globals} {packet : Packet} :
    WellFramed (.signalling packet.identifier) (connRes g packet) :=
  signal_wellFramed (by simp) rfl (by decide) rfl rfl rfl (by simp [SignalData]) (by simp)

theorem confRes_wellFramed {g : Globals} {packet : Packet} :
    ∀ frame ∈ confRes g packet, WellFramed (.signalling packet.identifier) frame := by
  simp only [confRes, List.mem_singleton, forall_eq]
  exact signal_wellFramed (by simp) rfl (by decide) rfl rfl rfl
    ⟨by simp, fun _ => ⟨by simp, Options.nil⟩⟩ (by simp)

theorem disconnReq_wellFramed {packet : Packet} :
    ∀ frame ∈ disconnReq packet, WellFramed (.signalling packet.identifier) frame := by
  simp only [disconnReq, List.mem_singleton, forall_eq]
  exact signal_wellFramed (by simp) rfl (by decide) rfl rfl rfl (by simp [SignalData]) (by simp)

/-- The request after a Connection Response is well framed unless its identifier
has wrapped around. -/
theorem connConfReq_wellFramed_iff {packet : Packet} :
    WellFramed (.signalling packet.identifier) (connConfReq packet) ↔
      packet.identifier ≠ 255 := by
  have hlast : packet.identifier + 1 = 0 ↔ packet.identifier = 255 := by
    have hlt := packet.identifier.toNat_lt
    rw [← UInt8.toNat_inj, ← UInt8.toNat_inj, UInt8.toNat_add]
    simp only [UInt8.toNat_ofNat]
    omega
  constructor
  · intro h hid
    refine h.identifier (by rw [hid]; decide) ?_
    exact connConfReq_reads.identifier_eq.trans (hlast.mpr hid)
  · intro hid
    have hnext : UInt8.ofNat (packet.identifier.toNat + 1) ≠ 0 := by
      rw [UInt8.ofNat_add, ofNat_identifier]
      exact fun hzero => hid (hlast.mp hzero)
    unfold connConfReq
    by_cases hpsm : packet.ObexPsm
    · rw [if_pos hpsm]
      exact signal_wellFramed (by simp) rfl (by decide) rfl rfl rfl
        ⟨fun _ => ⟨by simp, Options.single rfl⟩, by simp⟩ fun _ => hnext
    · rw [if_neg hpsm]
      exact signal_wellFramed (by simp) rfl (by decide) rfl rfl rfl
        ⟨fun _ => ⟨by simp, Options.single rfl⟩, by simp⟩ fun _ => hnext

theorem confFrame_wellFramed_iff {g : Globals} {packet : Packet} :
    WellFramed (.signalling packet.identifier) (confFrame g packet) ↔
      ConfAnswered packet ∨ ConfEchoed packet := by
  constructor
  · intro h
    by_contra hother
    rw [not_or] at hother
    rw [confFrame_other hother.1 hother.2] at h
    exact not_wellFramed_of_zero h
  · have hid : packet.identifier ≠ 0 → UInt8.ofNat (packet 10).toNat ≠ 0 := by
      simp [Packet.identifier]
    have hmtu : ∀ mtu : UInt16, Options (0x01 :: 0x02 :: le16 mtu) := fun _ => Options.single rfl
    have hertm : Options ertm := Options.single rfl
    rintro (⟨hfirst, hrest⟩ | ⟨hfirst, hmode⟩)
    · by_cases hlen : packet.len < 22
      · simp only [confFrame, confReq, hfirst, hlen, and_self, if_true, List.append_assoc]
        exact signal_wellFramed (by simp) rfl (by decide) rfl rfl rfl
          ⟨by simp [l2capCmdConfRes], fun _ => ⟨by simp, hmtu _⟩⟩ hid
      · have hefm : packet 21 = 0x04 := hrest.resolve_left hlen
        simp only [confFrame, confReq, hfirst, hlen, hefm, and_self, and_false, if_true, if_false,
          List.append_assoc]
        exact signal_wellFramed (by simp) rfl (by decide) rfl rfl rfl
          ⟨by simp [l2capCmdConfRes], fun _ =>
            ⟨by simp, (hmtu _).append (Options.single rfl)⟩⟩ hid
    · by_cases hflow : packet 19 = 0x00
      · simp only [confFrame, confReq, hfirst, hflow, and_self, List.append_assoc]
        exact signal_wellFramed (by simp) rfl (by decide) rfl rfl rfl
          ⟨fun _ => ⟨by simp, hmtu _⟩, by simp⟩ hid
      · have hretransmission : packet 19 = 0x03 := hmode.resolve_left hflow
        have hne : ¬ (0x03 : UInt8) = 0x00 := by decide
        simp only [confFrame, confReq, hfirst, hretransmission, hne, and_self, and_false, if_true,
          if_false, List.append_assoc]
        exact signal_wellFramed (by simp [ertm]) rfl (by decide) rfl rfl rfl
          ⟨fun _ => ⟨by simp [ertm], (hmtu _).append hertm⟩, by simp⟩ hid

/-- **A signalling packet** is answered by well-framed packets if and only if it
is a proper one. -/
theorem signalling_wellFramed_iff (g : Globals) (packet : Packet) :
    (∀ frame ∈ (signalling g packet).2, WellFramed (.signalling packet.identifier) frame) ↔
      Proper packet := by
  have hother : packet.command ≠ l2capCmdConfReq → packet.command ≠ l2capCmdConnReq →
      Proper packet := fun hconf hconn => ⟨fun h => absurd h hconf, fun h => absurd h hconn⟩
  have hanswer := signalling_answer g packet
  generalize signalling g packet = answer at hanswer ⊢
  cases hanswer with
  | infoReq h =>
      rw [h] at hother
      exact iff_of_true infoReq_wellFramed (hother (by decide) (by decide))
  | connReq h =>
      have hconf : packet.command ≠ l2capCmdConfReq := by
        rw [h]
        decide
      simp only [connReq, List.forall_mem_cons, List.not_mem_nil, false_imp_iff, implies_true,
        and_true]
      rw [connConfReq_wellFramed_iff]
      constructor
      · rintro ⟨-, hid⟩
        exact ⟨fun h => absurd h hconf, fun _ => hid⟩
      · rintro ⟨-, hid⟩
        exact ⟨connRes_wellFramed, hid h⟩
  | confReq h =>
      have hconn : packet.command ≠ l2capCmdConnReq := by
        rw [h]
        decide
      simp only [List.mem_singleton, forall_eq]
      rw [confFrame_wellFramed_iff]
      constructor
      · intro hwritten
        exact ⟨fun _ => hwritten, fun h => absurd h hconn⟩
      · rintro ⟨hwritten, -⟩
        exact hwritten h
  | confRes h =>
      rw [h] at hother
      exact iff_of_true confRes_wellFramed (hother (by decide) (by decide))
  | disconnReq h =>
      rw [h] at hother
      exact iff_of_true disconnReq_wellFramed (hother (by decide) (by decide))
  | unknown h =>
      simp only [List.mem_cons, not_or] at h
      exact iff_of_true (by simp) (hother h.2.2.1 h.2.1)

/-! ## The other handlers -/

theorem sdp_wellFramed (g : Globals) (packet : Packet) :
    ∀ frame ∈ sdp g packet, WellFramed .sdp frame := by
  unfold sdp
  split_ifs
  · simp only [List.mem_singleton, forall_eq]
    exact attRes_wellFramed g packet 0x006b rfl rfl (by decide) rfl rfl rfl rfl
  · simp only [List.mem_singleton, forall_eq]
    exact attRes_wellFramed g packet 0x003b rfl rfl (by decide) rfl rfl rfl rfl
  · simp
  · simp

theorem hciEventHandler_wellFramed (g : Globals) (packet : Packet) :
    ∀ frame ∈ hciEventHandler g packet, WellFramed .hci frame := by
  unfold hciEventHandler
  split_ifs
  · simp only [List.mem_singleton, forall_eq]
    exact hciCommand_wellFramed zeroed _ (by decide) (by simp [eventAddress])
  · simp only [List.mem_singleton, forall_eq]
    exact hciCommand_wellFramed zeroed _ (by decide) (by simp [eventAddress])
  · simp only [List.mem_singleton, forall_eq]
    exact hciCommand_wellFramed zeroed _ (by decide) (by simp [eventAddress, pin])
  · simp

theorem btAdvtTask_wellFramed (task : AdvtTask) (sendAvail : Bool) :
    ∀ frame ∈ (btAdvtTask task sendAvail).2, WellFramed .hci frame := by
  have hcommand : ∀ buf, advtCommand task = some buf → WellFramed .hci (queuePacket buf) := by
    intro buf h
    unfold advtCommand at h
    split at h
    · obtain rfl := Option.some.inj h
      exact hciCommand_wellFramed task.hciCmdBuf (n := 0) 0x0C03 (by decide) (by simp)
    · obtain rfl := Option.some.inj h
      exact hciCommand_wellFramed task.hciCmdBuf 0x0C13 (by decide) (by simp [tag])
    · obtain rfl := Option.some.inj h
      exact hciCommand_wellFramed task.hciCmdBuf 0x0C1A (by decide) (by simp)
    · cases h
  unfold btAdvtTask
  split_ifs
  · split
    · rename_i buf hbuf
      simpa using hcommand buf hbuf
    · simp
  · simp

/-! ## Runs -/

/-- The stack and the advertising task. -/
structure Stack where
  globals : Globals
  task : AdvtTask

/-- A packet is delivered, or `btAdvtTask` makes a pass. -/
inductive Input
  | deliver (packet : Packet)
  | advt (sendAvail : Bool)

namespace Stack

/-- Before the first packet. -/
def start : Stack := ⟨initial, {}⟩

/-- One input; `none` if the call never returns. -/
def step (s : Stack) : Input → Option Stack
  | .deliver packet => (hostRcvPkt s.globals packet).next.map fun g => { s with globals := g }
  | .advt sendAvail => some { s with task := (btAdvtTask s.task sendAvail).1 }

/-- What the frames queued for a packet answer. -/
def answered (g : Globals) (packet : Packet) : Answered :=
  if packet 0 = 0x04 then .hci
  else match multiplex g packet with
    | .signalling => .signalling packet.identifier
    | _ => .sdp

/-- The frames queued in a step, without those of `obex_ftp`. -/
def output (s : Stack) : Input → List (Answered × Frame)
  | .deliver packet =>
      if packet 0 = 0x02 ∧ multiplex s.globals packet = .obex then []
      else (hostRcvPkt s.globals packet).queued.map fun frame =>
        (answered s.globals packet, frame)
  | .advt sendAvail => (btAdvtTask s.task sendAvail).2.map fun frame => (.hci, frame)

end Stack

/-- An input is proper unless it is a signalling packet that is not. -/
def ProperInput : Input → Prop
  | .deliver packet => packet 0 = 0x02 → packet.sigChannel = 0x01 → Proper packet
  | .advt _ => True

theorem multiplex_signalling_iff {g : Globals} {packet : Packet} :
    multiplex g packet = .signalling ↔ packet.sigChannel = 0x01 := by
  unfold multiplex
  split_ifs with hsig
  · exact iff_of_true rfl hsig
  · exact iff_of_false nofun hsig
  · exact iff_of_false nofun hsig

/-- An ACL packet that is not for `obex_ftp`. -/
theorem acl_wellFramed_iff {g : Globals} {packet : Packet} (hobex : multiplex g packet ≠ .obex) :
    (∀ frame ∈ (l2capCmdHandler g packet).queued,
      WellFramed (match multiplex g packet with
        | .signalling => .signalling packet.identifier
        | _ => .sdp) frame) ↔ (packet.sigChannel = 0x01 → Proper packet) := by
  unfold l2capCmdHandler
  cases hmultiplex : multiplex g packet with
  | signalling =>
      have hsig := multiplex_signalling_iff.mp hmultiplex
      exact (signalling_wellFramed_iff g packet).trans ⟨fun h _ => h, fun h => h hsig⟩
  | obex => exact absurd hmultiplex hobex
  | sdp =>
      refine iff_of_true (sdp_wellFramed g packet) fun hsig => ?_
      rw [multiplex_signalling_iff.mpr hsig] at hmultiplex
      cases hmultiplex

/-- **One step** queues well-framed packets only if and only if its input is
proper. -/
theorem output_wellFramed_iff (s : Stack) (i : Input) :
    (∀ o ∈ s.output i, WellFramed o.1 o.2) ↔ ProperInput i := by
  cases i with
  | advt sendAvail =>
      refine iff_of_true ?_ trivial
      intro o ho
      obtain ⟨frame, hframe, rfl⟩ := List.mem_map.mp ho
      exact btAdvtTask_wellFramed _ _ frame hframe
  | deliver packet =>
      show _ ↔ (packet 0 = 0x02 → packet.sigChannel = 0x01 → Proper packet)
      simp only [Stack.output]
      by_cases hobex : packet 0 = 0x02 ∧ multiplex s.globals packet = .obex
      · rw [if_pos hobex]
        refine iff_of_true (by simp) fun _ hsig => ?_
        rw [multiplex_signalling_iff.mpr hsig] at hobex
        cases hobex.2
      rw [if_neg hobex, List.forall_mem_map]
      unfold hostRcvPkt Stack.answered
      by_cases hevent : packet 0 = 0x04
      · simp only [if_pos hevent]
        refine iff_of_true (hciEventHandler_wellFramed _ _) fun hacl => ?_
        rw [hevent] at hacl
        exact absurd hacl (by decide)
      simp only [if_neg hevent]
      by_cases hacl : packet 0 = 0x02
      · simp only [if_pos hacl]
        exact (acl_wellFramed_iff fun h => hobex ⟨hacl, h⟩).trans ⟨fun h _ => h, fun h => h hacl⟩
      · simp only [if_neg hacl]
        exact iff_of_true (by simp) fun h => absurd h hacl

/-- **The frames the stack sends** are well framed if and only if the packets it
gets to handle are proper. -/
theorem frames_wellFramed_iff (inputs : List Input) :
    (∀ o ∈ trace Stack.step Stack.output .start inputs, WellFramed o.1 o.2) ↔
      ∀ i, Handled Stack.step .start inputs i → ProperInput i :=
  forall_trace_iff output_wellFramed_iff .start inputs

/-- A Configuration Request for channel 0x41 whose only option is a flush
timeout. -/
def flushTimeoutReq : Packet :=
  .ofBytes [2, 0, 0x20, 16, 0, 12, 0, 1, 0, 0x04, 0x05, 8, 0, 0x41, 0, 0, 0, 0x02, 0x02, 0xff, 0xff]

/-- What is queued for it is a buffer of zeros. -/
theorem frames_not_wellFramed :
    ¬ ∀ o ∈ trace Stack.step Stack.output .start [.deliver flushTimeoutReq],
      WellFramed o.1 o.2 := by
  intro h
  have hproper := (output_wellFramed_iff .start (.deliver flushTimeoutReq)).mp fun o ho =>
    h o (List.mem_append_left _ ho)
  exact absurd ((hproper (by decide) (by decide)).1 (by decide)) (by decide)

end HydroponicCloset.Framing
