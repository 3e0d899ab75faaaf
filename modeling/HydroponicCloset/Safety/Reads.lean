import Mathlib.Logic.Relation
import HydroponicCloset.Bluetooth.L2cap
import HydroponicCloset.Obex.Headers

/-!
# What the handlers read of a packet

The handlers of `bt_main.c` index the packet without looking at `len`.  For each of
them a list gives the indices it reads: fixed ones, some of which are only read if a byte
before them has a certain value, and those that the header loop of `obex_ftp` computes
from the lengths in the packet.  The loop may never end, so its indices are listed for
any number of iterations.

`needed` is the length that the fixed indices ask for, and `HeaderFits` says that a
header the loop comes to does not claim more bytes than there are.  `reads_lt_iff` puts
them together: all reads stay inside exactly the packets that are `LongEnough`.
-/

namespace HydroponicCloset.Safety

open CMemory Wire Bluetooth Obex

/-! ## The lists -/

/-- `hci_event_handler`: the event, and the address in two of them. -/
def hciEventReads (packet : Packet) : List ℕ :=
  1 :: if packet 1 = hciEvtConnReq ∨ packet 1 = hciEvtPinCodeReq then forRange 3 9 1 else []

/-- The flags, the channel and the identifier, which `conf_req` copies into its answer. -/
def confCopied : List ℕ := [2, 1, 8, 7, 10]

/-- `conf_req` -/
def confReqReads (packet : Packet) : List ℕ :=
  if packet 17 = 0x01 ∧ packet.len < 22 then 17 :: confCopied ++ [20, 19]
  else if packet 17 = 0x01 then
    [17, 21] ++ if packet 21 = 0x04 then confCopied ++ [20, 19] else []
  else if packet 17 = 0x04 then
    [17, 19] ++ if packet 19 = 0x00 ∨ packet 19 = 0x03 then confCopied else []
  else [17]

/-- The part of `l2cap_cmd_handler` for the signalling channel. -/
def signallingReads (packet : Packet) : List ℕ :=
  10 ::
    if packet.command = l2capCmdInfoReq then [13]
    else if packet.command = l2capCmdConnReq then
      [16, 15, 13] ++ if packet 13 = 0x09 then [14] else []
    else if packet.command = l2capCmdConfReq then confReqReads packet
    else if packet.command = l2capCmdConfRes then []
    else if packet.command = l2capCmdDisconnReq then [14, 13, 16, 15]
    else []

/-- The first byte of a service that `l2cap_cmd_handler` compares further. -/
def SdpService (packet : Packet) : Prop :=
  packet 17 = 0x01 ∨ packet 17 = 0x11 ∨ packet 17 = 0x12

instance (packet : Packet) : Decidable (SdpService packet) :=
  inferInstanceAs (Decidable (_ ∨ _))

/-- A service is found, and the transaction id is copied. -/
def SdpFound (packet : Packet) : Prop :=
  (packet 17 = 0x01 ∧ packet 18 = 0x00) ∨ (packet 17 = 0x11 ∧ packet 18 = 0x05) ∨
    (packet 17 = 0x12 ∧ packet 18 = 0x00)

instance (packet : Packet) : Decidable (SdpFound packet) :=
  inferInstanceAs (Decidable (_ ∨ _))

/-- The part of `l2cap_cmd_handler` for SDP requests. -/
def sdpReads (packet : Packet) : List ℕ :=
  if packet.command = sdpAttReq then
    17 :: (if SdpService packet then [18] else []) ++ if SdpFound packet then [11, 10] else []
  else []

/-- One iteration of the header loop. -/
def headerReads (packet : Packet) (i : ℕ) : List ℕ :=
  let headLen := (word (packet (i + 1)) (packet (i + 2))).toNat
  i ::
    if packet i = 0x01 then [i + 1, i + 2] ++ forRange (i + 4) (headLen + i) 2
    else if packet i = 0xc3 then [1, 2, 3, 4].map (i + ·)
    else if packet i = 0x48 then [i + 1, i + 2] ++ forRange (i + 3) (headLen + i) 1
    else if packet i = 0x42 then [i + 1, i + 2]
    else []

/-- The first iterations of the header loop. -/
def putReads (packet : Packet) : ℕ → ℕ → List ℕ
  | 0, _ => []
  | iterations + 1, i =>
      if i + 2 < packet.len.toNat then
        headerReads packet i ++
          putReads packet iterations ((headerAt packet i).elim i Prod.snd)
      else []

/-- A PUT I-frame, which the header loop is run on. -/
def RunsLoop (packet : Packet) : Prop := packet.frameType = 0 ∧ packet.obexCommand = 0x02

instance (packet : Packet) : Decidable (RunsLoop packet) :=
  inferInstanceAs (Decidable (_ ∧ _))

/-- `obex_ftp`, up to some iteration of the header loop. -/
def obexFtpReads (packet : Packet) (iterations : ℕ) : List ℕ :=
  [2, 1, 11, 10, 9] ++ if RunsLoop packet then putReads packet iterations 14 else []

/-- `l2cap_cmd_handler`, up to some iteration of the header loop. -/
def l2capCmdReads (g : Globals) (packet : Packet) (iterations : ℕ) : List ℕ :=
  [2, 1, 8, 7, 9] ++
    match multiplex g packet with
    | .signalling => signallingReads packet
    | .obex => obexFtpReads packet iterations
    | .sdp => sdpReads packet

/-- The indices that a call of `host_rcv_pkt` reads until the header loop, if it comes to
one, has made this many iterations. -/
def reads (g : Globals) (packet : Packet) (iterations : ℕ) : List ℕ :=
  0 ::
    if packet 0 = 0x04 then hciEventReads packet
    else if packet 0 = 0x02 then l2capCmdReads g packet iterations
    else []

/-! ## The lengths they ask for -/

/-- `hci_event_handler` -/
def hciEventNeeded (packet : Packet) : ℕ :=
  if packet 1 = hciEvtConnReq ∨ packet 1 = hciEvtPinCodeReq then 9 else 2

/-- `conf_req` -/
def confReqNeeded (packet : Packet) : ℕ :=
  if packet 17 = 0x01 then 21 else if packet 17 = 0x04 then 20 else 18

/-- The signalling commands. -/
def signallingNeeded (packet : Packet) : ℕ :=
  if packet.command = l2capCmdInfoReq then 14
  else if packet.command = l2capCmdConnReq then 17
  else if packet.command = l2capCmdConfReq then confReqNeeded packet
  else if packet.command = l2capCmdConfRes then 11
  else if packet.command = l2capCmdDisconnReq then 17
  else 11

/-- SDP requests. -/
def sdpNeeded (packet : Packet) : ℕ :=
  if packet.command = sdpAttReq then if SdpService packet then 19 else 18 else 10

/-- The length that the fixed indices ask for. -/
def needed (g : Globals) (packet : Packet) : ℕ :=
  if packet 0 = 0x04 then hciEventNeeded packet
  else if packet 0 = 0x02 then
    match multiplex g packet with
    | .signalling => signallingNeeded packet
    | .obex => 12
    | .sdp => sdpNeeded packet
  else 1

/-- From the header at `i` the loop goes on at `j`. -/
def Next (packet : Packet) (i j : ℕ) : Prop :=
  i + 2 < packet.len.toNat ∧ ∃ h, headerAt packet i = some (h, j)

/-- The loop comes to a header at `i`. -/
def Visits (packet : Packet) (i : ℕ) : Prop :=
  Relation.ReflTransGen (Next packet) 14 i ∧ i + 2 < packet.len.toNat

/-- What the branch for the header at `i` copies lies inside the packet: every second
byte of a name, from its second on; the four bytes of a length; the bytes of a body. -/
def HeaderFits (packet : Packet) (i : ℕ) : Prop :=
  let headLen := (word (packet (i + 1)) (packet (i + 2))).toNat
  if packet i = 0x01 then headLen ≤ 4 ∨ i + 4 + 2 * ((headLen - 5) / 2) < packet.len.toNat
  else if packet i = 0xc3 then i + 4 < packet.len.toNat
  else if packet i = 0x48 then headLen ≤ 3 ∨ i + headLen ≤ packet.len.toNat
  else True

/-- A packet as long as its handler takes it to be. -/
def LongEnough (g : Globals) (packet : Packet) : Prop :=
  needed g packet ≤ packet.len.toNat ∧
    (packet 0 = 0x02 → multiplex g packet = .obex → RunsLoop packet →
      ∀ i, Visits packet i → HeaderFits packet i)

/-! ## Handler by handler -/

theorem hciEventReads_lt_iff (packet : Packet) (n : ℕ) :
    (∀ k ∈ hciEventReads packet, k < n) ↔ hciEventNeeded packet ≤ n := by
  unfold hciEventReads hciEventNeeded
  split_ifs
  · rw [List.forall_mem_cons, forall_forRange_lt (by omega)]
    omega
  · simp
    omega

theorem confReqReads_lt_iff (packet : Packet) :
    (∀ k ∈ confReqReads packet, k < packet.len.toNat) ↔
      confReqNeeded packet ≤ packet.len.toNat := by
  have hlen : packet.len < 22 ↔ packet.len.toNat < 22 := UInt16.lt_iff_toNat_lt
  unfold confReqReads confReqNeeded confCopied
  by_cases hmtu : packet 17 = 0x01
  · by_cases hshort : packet.len < 22
    · simp [hmtu, hshort]
      omega
    · have hlong : ¬ packet.len.toNat < 22 := fun h => hshort (hlen.mpr h)
      by_cases hefm : packet 21 = 0x04 <;> simp [hmtu, hshort, hefm] <;> omega
  · by_cases hefm : packet 17 = 0x04
    · by_cases hmode : packet 19 = 0x00 ∨ packet 19 = 0x03 <;> simp [hefm, hmode] <;> omega
    · simp [hmtu, hefm]
      omega

theorem signallingReads_lt_iff (packet : Packet) :
    (∀ k ∈ [2, 1, 8, 7, 9] ++ signallingReads packet, k < packet.len.toNat) ↔
      signallingNeeded packet ≤ packet.len.toNat := by
  unfold signallingReads signallingNeeded
  split_ifs
  · simp
    omega
  · simp
    omega
  · simp
    omega
  · have hconf := confReqReads_lt_iff packet
    have hleast : 18 ≤ confReqNeeded packet := by
      unfold confReqNeeded
      split_ifs <;> omega
    simp only [List.forall_mem_append, List.forall_mem_cons, List.not_mem_nil, false_imp_iff,
      implies_true, and_true, hconf]
    omega
  · simp
    omega
  · simp
    omega
  · simp
    omega

theorem sdpReads_lt_iff (packet : Packet) (n : ℕ) :
    (∀ k ∈ [2, 1, 8, 7, 9] ++ sdpReads packet, k < n) ↔ sdpNeeded packet ≤ n := by
  have hservice : SdpFound packet → SdpService packet := by
    rintro (⟨h, -⟩ | ⟨h, -⟩ | ⟨h, -⟩)
    · exact Or.inl h
    · exact Or.inr (Or.inl h)
    · exact Or.inr (Or.inr h)
  unfold sdpReads sdpNeeded
  by_cases hreq : packet.command = sdpAttReq
  · by_cases hserv : SdpService packet
    · by_cases hfound : SdpFound packet
      · simp [hreq, hserv, hfound]
        omega
      · simp [hreq, hserv, hfound]
        omega
    · have hnone : ¬ SdpFound packet := fun h => hserv (hservice h)
      simp [hreq, hserv, hnone]
      omega
  · simp [hreq]
    omega

/-! ## The header loop -/

theorem headerReads_lt_iff {packet : Packet} {i : ℕ} (h : i + 2 < packet.len.toNat) :
    (∀ k ∈ headerReads packet i, k < packet.len.toNat) ↔ HeaderFits packet i := by
  unfold headerReads HeaderFits
  dsimp only
  split_ifs
  · rw [List.forall_mem_cons, List.forall_mem_append, forall_forRange_lt (by omega)]
    simp only [List.forall_mem_cons, List.not_mem_nil, false_imp_iff, implies_true, and_true]
    omega
  · simp
    omega
  · rw [List.forall_mem_cons, List.forall_mem_append, forall_forRange_lt (by omega)]
    simp only [List.forall_mem_cons, List.not_mem_nil, false_imp_iff, implies_true, and_true,
      Nat.div_one]
    omega
  · simp
    omega
  · simp
    omega

/-- The loop reads what the headers it comes to have it read. -/
theorem mem_putReads {packet : Packet} {i k : ℕ} :
    (∃ iterations, k ∈ putReads packet iterations i) ↔
      ∃ j, Relation.ReflTransGen (Next packet) i j ∧ j + 2 < packet.len.toNat ∧
        k ∈ headerReads packet j := by
  constructor
  · rintro ⟨iterations, hk⟩
    induction iterations generalizing i with
    | zero => cases hk
    | succ iterations ih =>
        unfold putReads at hk
        split at hk
        · rename_i hmore
          rcases List.mem_append.mp hk with hnow | hlater
          · exact ⟨i, .refl, hmore, hnow⟩
          · obtain ⟨j, hpath, hj⟩ := ih hlater
            refine ⟨j, ?_, hj⟩
            cases hfound : headerAt packet i with
            | none => rwa [hfound] at hpath
            | some found =>
                rw [hfound] at hpath
                exact .head ⟨hmore, found.1, hfound⟩ hpath
        · cases hk
  · rintro ⟨j, hpath, hmore, hk⟩
    induction hpath using Relation.ReflTransGen.head_induction_on with
    | refl =>
        refine ⟨1, ?_⟩
        rw [putReads, if_pos hmore]
        exact List.mem_append_left _ hk
    | head hnext _ ih =>
        obtain ⟨hmore', h, hfound⟩ := hnext
        obtain ⟨iterations, hlater⟩ := ih
        refine ⟨iterations + 1, ?_⟩
        rw [putReads, if_pos hmore', hfound]
        exact List.mem_append_right _ hlater

/-- **The header loop** stays inside the packet if and only if every header it comes to
fits. -/
theorem putReads_lt_iff (packet : Packet) :
    (∀ iterations, ∀ k ∈ putReads packet iterations 14, k < packet.len.toNat) ↔
      ∀ i, Visits packet i → HeaderFits packet i := by
  constructor
  · rintro h i ⟨hpath, hmore⟩
    rw [← headerReads_lt_iff hmore]
    intro k hk
    obtain ⟨iterations, hk⟩ := mem_putReads.mpr ⟨i, hpath, hmore, hk⟩
    exact h iterations k hk
  · intro h iterations k hk
    obtain ⟨j, hpath, hmore, hk⟩ := mem_putReads.mp ⟨iterations, hk⟩
    exact (headerReads_lt_iff hmore).mpr (h j ⟨hpath, hmore⟩) k hk

theorem obexFtpReads_lt_iff (packet : Packet) :
    (∀ iterations, ∀ k ∈ [2, 1, 8, 7, 9] ++ obexFtpReads packet iterations,
        k < packet.len.toNat) ↔
      12 ≤ packet.len.toNat ∧ (RunsLoop packet → ∀ i, Visits packet i → HeaderFits packet i) := by
  have hfixed : (∀ k ∈ [2, 1, 8, 7, 9] ++ [2, 1, 11, 10, 9], k < packet.len.toNat) ↔
      12 ≤ packet.len.toNat := by
    simp
    omega
  have hall : ∀ put : List ℕ,
      (∀ k ∈ [2, 1, 8, 7, 9] ++ ([2, 1, 11, 10, 9] ++ put), k < packet.len.toNat) ↔
        12 ≤ packet.len.toNat ∧ ∀ k ∈ put, k < packet.len.toNat := by
    intro put
    rw [← List.append_assoc, List.forall_mem_append, hfixed]
  rw [← putReads_lt_iff]
  simp only [obexFtpReads, hall, forall_and, forall_const]
  by_cases hput : RunsLoop packet <;> simp [hput]

/-- **Reads stay inside the packet**, whatever the number of iterations, if and only if
the packet is as long as its handler takes it to be. -/
theorem reads_lt_iff (g : Globals) {packet : Packet} (hlen : 1 ≤ packet.len.toNat) :
    (∀ iterations, ∀ k ∈ reads g packet iterations, k < packet.len.toNat) ↔
      LongEnough g packet := by
  have hfirst : ∀ rest : List ℕ, (∀ k ∈ 0 :: rest, k < packet.len.toNat) ↔
      ∀ k ∈ rest, k < packet.len.toNat := by
    intro rest
    rw [List.forall_mem_cons]
    exact and_iff_right hlen
  simp only [reads, LongEnough, needed, hfirst]
  by_cases hevent : packet 0 = 0x04
  · simp [hevent, hciEventReads_lt_iff]
  by_cases hacl : packet 0 = 0x02
  · cases hhandler : multiplex g packet with
    | signalling => simp [hacl, l2capCmdReads, hhandler, ← signallingReads_lt_iff]
    | obex => simpa [hacl, l2capCmdReads, hhandler] using obexFtpReads_lt_iff packet
    | sdp => simp [hacl, l2capCmdReads, hhandler, ← sdpReads_lt_iff]
  · simpa [hevent, hacl] using hlen

/-- A connection request event. -/
def connReqEvent : Packet :=
  .ofBytes [0x04, 0x04, 0x0a, 0x11, 0x22, 0x33, 0x44, 0x55, 0x66, 0x0c, 0x01, 0x5a, 0x01]

theorem reads_lt_connReqEvent :
    LongEnough initial connReqEvent ∧
      ∀ iterations, ∀ k ∈ reads initial connReqEvent iterations, k < connReqEvent.len.toNat := by
  have hlong : LongEnough initial connReqEvent := ⟨by decide, fun h => absurd h (by decide)⟩
  exact ⟨hlong, (reads_lt_iff initial (by decide)).mpr hlong⟩

/-- A PUT I-frame of 19 bytes whose Body header claims 16. -/
def overlongPut : Packet :=
  .ofBytes [2, 0, 0, 0, 0, 0, 0, 0x41, 0, 0, 0, 0x82, 0, 0, 0x48, 0, 16, 0, 0]

theorem reads_behind_overlongPut :
    ∃ k ∈ reads { initial with obexCid := 0x41 } overlongPut 1, ¬ k < overlongPut.len.toNat :=
  ⟨29, by decide, by decide⟩

end HydroponicCloset.Safety
