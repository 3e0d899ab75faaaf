import HydroponicCloset.Channels.Session

/-!
# Configuration Requests and their responses

A Configuration Request should be answered by one Configuration Response with
its identifier.  `conf_req` writes a response in two of its four cases and a
request in the other two, and `l2cap_cmd_handler` also answers a Configuration
Response with a response.  `responses_match_iff` counts both sides, after every
prefix of a run: they agree exactly when every packet is `Paired`.
-/

namespace HydroponicCloset.Channels

open CMemory Wire Runs Bluetooth Framing

/-- The Configuration Responses with identifier `x` among some frames. -/
def responses (x : UInt8) (frames : List Frame) : ℕ :=
  frames.countP fun frame => frameCode frame = 0x05 ∧ frameIdentifier frame = x

/-- The Configuration Requests with identifier `x` among some packets. -/
def requests (x : UInt8) (packets : List Packet) : ℕ :=
  packets.countP fun packet => packet.command = l2capCmdConfReq ∧ packet.identifier = x

/-- The frames that `l2cap_cmd_handler` queues for some packets. -/
def sent (g : Globals) (packets : List Packet) : List Frame :=
  trace (fun g packet => (l2capCmdHandler g packet).next)
    (fun g packet => (l2capCmdHandler g packet).queued) g packets

/-- A packet that keeps the two numbers equal: no Configuration Response, and
a Configuration Request only if it starts with an MTU option, alone or with an
extended feature mask behind it. -/
def Paired (packet : Packet) : Prop :=
  packet.command ≠ l2capCmdConfRes ∧ (packet.command = l2capCmdConfReq → ConfAnswered packet)

/-! ## One packet -/

theorem responses_of_code {frames : List Frame} (h : ∀ frame ∈ frames, frameCode frame ≠ 0x05)
    (x : UInt8) : responses x frames = 0 := by
  rw [responses, List.countP_eq_zero]
  intro frame hframe
  simp [h frame hframe]

theorem responses_singleton {frame : Frame} {cid first : UInt16} {i : UInt8}
    (h : Reads frame cid 0x05 i first) (x : UInt8) :
    responses x [frame] = if i = x then 1 else 0 := by
  simp [responses, List.countP_cons, h.code_eq, h.identifier_eq]

theorem requests_singleton {packet : Packet} (h : packet.command = l2capCmdConfReq) (x : UInt8) :
    requests x [packet] = if packet.identifier = x then 1 else 0 := by
  simp [requests, List.countP_cons, h]

theorem requests_of_command {packet : Packet} (h : packet.command ≠ l2capCmdConfReq) (x : UInt8) :
    requests x [packet] = 0 := by
  simp [requests, h]

theorem confFrame_code_of_not_answered {g : Globals} {packet : Packet}
    (h : ¬ ConfAnswered packet) : frameCode (confFrame g packet) ≠ 0x05 := by
  by_cases hechoed : ConfEchoed packet
  · rw [(confFrame_echoed hechoed).code_eq]
    decide
  · rw [confFrame_other h hechoed]
    decide

/-- The other commands are answered by no Configuration Response. -/
theorem signalling_code_ne {g : Globals} {packet : Packet}
    (hconf : packet.command ≠ l2capCmdConfReq) (hres : packet.command ≠ l2capCmdConfRes) :
    ∀ frame ∈ (signalling g packet).2, frameCode frame ≠ 0x05 := by
  have hanswer := signalling_answer g packet
  generalize signalling g packet = answer at hanswer ⊢
  intro frame hframe
  cases hanswer with
  | infoReq _ =>
      rw [infoReq_code hframe]
      decide
  | connReq _ =>
      rcases List.mem_cons.mp hframe with rfl | hframe
      · have hreads : Reads (connRes g packet) _ _ _ _ := connRes_reads
        rw [hreads.code_eq]
        decide
      · rw [List.mem_singleton.mp hframe, connConfReq_reads.code_eq]
        decide
  | confReq h => exact absurd h hconf
  | confRes h => exact absurd h hres
  | disconnReq _ =>
      rw [(disconnReq_reads hframe).code_eq]
      decide
  | unknown _ => cases hframe

/-- **One signalling packet** adds as many responses as requests if and only if it
is paired. -/
theorem paired_iff (g : Globals) (packet : Packet) :
    (∀ x, responses x (signalling g packet).2 = requests x [packet]) ↔ Paired packet := by
  by_cases hconf : packet.command = l2capCmdConfReq
  · rw [signalling_confReq g hconf]
    have hpaired : Paired packet ↔ ConfAnswered packet :=
      ⟨fun h => h.2 hconf, fun h => ⟨by rw [hconf]; decide, fun _ => h⟩⟩
    rw [hpaired]
    constructor
    · intro h
      by_contra hanswered
      have hcount := h packet.identifier
      rw [requests_singleton hconf, if_pos rfl, responses_of_code] at hcount
      · cases hcount
      · simpa using confFrame_code_of_not_answered hanswered
    · intro hanswered x
      rw [responses_singleton (confFrame_answered hanswered), requests_singleton hconf]
  by_cases hres : packet.command = l2capCmdConfRes
  · refine iff_of_false (fun h => ?_) fun h => h.1 hres
    have hcount := h packet.identifier
    obtain ⟨frame, hframe⟩ : ∃ frame, confRes g packet = [frame] := ⟨_, rfl⟩
    have hmem : frame ∈ confRes g packet := by
      rw [hframe]
      exact List.mem_singleton.mpr rfl
    have hreads := confRes_reads hmem
    rw [signalling_confRes g hres, hframe, responses_singleton hreads, if_pos rfl,
      requests_of_command hconf] at hcount
    cases hcount
  · refine iff_of_true (fun x => ?_) ⟨hres, fun h => absurd h hconf⟩
    rw [requests_of_command hconf, responses_of_code (signalling_code_ne hconf hres)]

/-! ## Runs -/

theorem sent_concat (g : Globals) {pre : List Packet} (packet : Packet)
    (hpre : ∀ p ∈ pre, p.sigChannel = 0x01) (hsig : packet.sigChannel = 0x01) :
    ∃ mid : Globals, sent g (pre ++ [packet]) = sent g pre ++ (signalling mid packet).2 := by
  obtain ⟨mid, hmid⟩ : ∃ mid,
      run (fun g packet => (l2capCmdHandler g packet).next) g pre = some mid := by
    induction pre generalizing g with
    | nil => exact ⟨g, rfl⟩
    | cons p rest ih =>
        obtain ⟨hp, hrest⟩ := List.forall_mem_cons.mp hpre
        rw [run_cons, l2capCmdHandler_signalling g hp]
        exact ih _ hrest
  refine ⟨mid, ?_⟩
  rw [sent, trace_append hmid, trace, l2capCmdHandler_signalling mid hsig]
  simp [trace, sent]

theorem responses_append (x : UInt8) (first second : List Frame) :
    responses x (first ++ second) = responses x first + responses x second :=
  List.countP_append

theorem requests_append (x : UInt8) (first second : List Packet) :
    requests x (first ++ second) = requests x first + requests x second :=
  List.countP_append

/-- Paired packets keep the two numbers equal. -/
theorem responses_eq_requests (g : Globals) {packets : List Packet}
    (hsig : ∀ packet ∈ packets, packet.sigChannel = 0x01)
    (hpaired : ∀ packet ∈ packets, Paired packet) (x : UInt8) :
    responses x (sent g packets) = requests x packets := by
  induction packets using List.reverseRecOn with
  | nil => rfl
  | append_singleton pre packet ih =>
      have hpre : ∀ p ∈ pre, p.sigChannel = 0x01 := fun p hp => hsig p (List.mem_append_left _ hp)
      have hrest := ih hpre fun p hp => hpaired p (List.mem_append_left _ hp)
      obtain ⟨mid, hmid⟩ := sent_concat g packet hpre (hsig packet (by simp))
      have hlast := (paired_iff mid packet).mpr (hpaired packet (by simp)) x
      calc responses x (sent g (pre ++ [packet]))
          = responses x (sent g pre) + responses x (signalling mid packet).2 := by
            rw [hmid, responses_append]
        _ = requests x pre + requests x [packet] := by rw [hrest, hlast]
        _ = requests x (pre ++ [packet]) := (requests_append ..).symm

/-- **Requests and responses** agree after every packet of a run if and only if
all its packets are paired. -/
theorem responses_match_iff {packets : List Packet}
    (hsig : ∀ packet ∈ packets, packet.sigChannel = 0x01) :
    (∀ pre post, packets = pre ++ post →
      ∀ x, responses x (sent initial pre) = requests x pre) ↔
        ∀ packet ∈ packets, Paired packet := by
  constructor
  · intro h packet hmem
    obtain ⟨pre, post, rfl⟩ := List.append_of_mem hmem
    have hpre : ∀ p ∈ pre, p.sigChannel = 0x01 := fun p hp => hsig p (List.mem_append_left _ hp)
    obtain ⟨mid, hmid⟩ := sent_concat initial packet hpre (hsig packet (by simp))
    refine (paired_iff mid packet).mp fun x => ?_
    have hbefore := h pre (packet :: post) rfl x
    have hafter := h (pre ++ [packet]) post (by simp) x
    rw [hmid, responses_append, requests_append] at hafter
    omega
  · rintro hpaired pre post rfl x
    exact responses_eq_requests initial (fun p hp => hsig p (List.mem_append_left _ hp))
      (fun p hp => hpaired p (List.mem_append_left _ hp)) x

/-- A Configuration Request for channel 0x41 with these options. -/
def configurePacket (options : List UInt8) : Packet :=
  .ofBytes ([0x02, 0x00, 0x20, 16, 0, 12, 0, 0x01, 0x00, 0x04, 0x05, 8, 0, 0x41, 0x00, 0x00, 0x00] ++
    options)

/-- A request with an MTU option. -/
theorem responses_match_mtu :
    (∀ pre post, [configurePacket [0x01, 0x02, 0xf2, 0x03]] = pre ++ post →
      ∀ x, responses x (sent initial pre) = requests x pre) ↔
        ∀ packet ∈ [configurePacket [0x01, 0x02, 0xf2, 0x03]], Paired packet :=
  responses_match_iff (by simp only [List.mem_singleton, forall_eq]; decide)

/-- A request with an extended feature option alone gets no response. -/
theorem responses_missing :
    let request := configurePacket [0x04, 0x09, 0x03, 0x0a, 0x14, 0xd0, 0x07, 0xe0, 0x2e, 0xf2, 0x03]
    request.sigChannel = 0x01 ∧ requests 0x05 [request] = 1 ∧
      responses 0x05 (sent initial [request]) = 0 := by
  decide

end HydroponicCloset.Channels
