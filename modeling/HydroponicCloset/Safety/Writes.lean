import HydroponicCloset.App.WaitingLoop
import HydroponicCloset.Obex.Replies
import HydroponicCloset.Safety.HeaderLoop
import Mathlib.Algebra.GroupWithZero.Nat

/-!
# What the header loop writes

The header loop of `obex_ftp` writes to three arrays: names to `fi`, file contents to
`content`, and replies, one behind the other, to `cmd_buf`.  None of the writes looks at
the size of its array.  `writes_inside_iff` says for which packets they stay inside: those
in which every name and every piece of a file that the loop comes to is short enough, and
the replies that it is asked for take no more than `MAX_CMD_LEN` bytes together.

The loop may never end, so the statement is about any number of its iterations.  The
buffers count as unwritten when the call begins, so that `top` is one past the highest
index that the call has written.
-/

namespace HydroponicCloset.Safety

open CMemory Bluetooth Obex
open App (contentSize)

/-! ## The first iterations -/

/-- The first `n` iterations of the header loop, if there are as many. -/
def iterate (packet : Packet) : ℕ → PutState → PutState
  | 0, s => s
  | n + 1, s =>
      if s.i + 2 < packet.len.toNat then iterate packet n (putHeader packet s) else s

/-- The headers that the first `n` iterations from `i` find. -/
def found (packet : Packet) : ℕ → ℕ → List Header
  | 0, _ => []
  | n + 1, i =>
      if i + 2 < packet.len.toNat then
        (headerAt packet i).elim [] fun h => h.1 :: found packet n h.2
      else []

variable {packet : Packet}

/-- A loop that ends is one of its iterations. -/
theorem iterate_of_putLoop {n : ℕ} {s s' : PutState} (h : putLoop packet n s = some s') :
    iterate packet n s = s' := by
  induction n generalizing s with
  | zero =>
      rw [putLoop] at h
      split_ifs at h
      exact Option.some.inj h
  | succ n ih =>
      rw [putLoop] at h
      rw [iterate]
      split_ifs at h ⊢
      · exact ih h
      · exact Option.some.inj h

/-- At a byte that is no header nothing changes any more. -/
theorem iterate_stuck {s : PutState} (h : headerAt packet s.i = none) (n : ℕ) :
    iterate packet n s = s := by
  induction n with
  | zero => rfl
  | succ n ih =>
      rw [iterate, putHeader_eq, h, Option.elim_none, ih]
      exact ite_self s

/-- **The iterations** handle the headers found, one after the other. -/
theorem iterate_history (R : List Header → PutState → Prop)
    (hstep : ∀ hs s h next, R hs s → R (hs ++ [h]) (h.step packet s next)) {n : ℕ}
    {s : PutState} {done : List Header} (hs : R done s) :
    R (done ++ found packet n s.i) (iterate packet n s) := by
  induction n generalizing s done with
  | zero => simpa [found, iterate] using hs
  | succ n ih =>
      by_cases hmore : s.i + 2 < packet.len.toNat
      · cases hfound : headerAt packet s.i with
        | none =>
            rw [iterate_stuck hfound, found, if_pos hmore, hfound, Option.elim_none,
              List.append_nil]
            exact hs
        | some h =>
            have hnext := ih (hstep done s h.1 h.2 hs)
            rw [List.append_assoc] at hnext
            rw [iterate, if_pos hmore, putHeader_eq, found, if_pos hmore, hfound]
            exact hnext
      · rw [iterate, if_neg hmore, found, if_neg hmore, List.append_nil]
        exact hs

/-! ## Sizes -/

/-- `sizeof(fi)` -/
def fiSize : ℕ := 128

/-- The name or the contents in a header, with the NUL behind it, fit their array. -/
def FitsArray : Header → Prop
  | .name value => value.length ≤ 255
  | .body chunk => chunk.length ≤ 1023
  | _ => True

/-- The bytes that the reply to a header takes in `cmd_buf`. -/
def replySize : Header → ℕ
  | .srm _ => 20
  | .endOfBody _ => 18
  | _ => 0

theorem oddBytes_length (bytes : List UInt8) : (oddBytes bytes).length = bytes.length / 2 := by
  induction bytes using oddBytes.induct with
  | case1 _ b rest ih =>
      rw [oddBytes, List.length_cons, ih, List.length_cons, List.length_cons]
      omega
  | case2 bytes hshort =>
      cases bytes with
      | nil => rfl
      | cons a tail =>
          cases tail with
          | nil => simp [oddBytes]
          | cons b rest => exact absurd rfl (hshort a b rest)

/-- Both arrays are large enough if every header fits. -/
theorem fitsArray_iff (hs : List Header) :
    (∀ h ∈ hs, FitsArray h) ↔
      (∀ value ∈ hs.filterMap Header.name?, (oddBytes value).length < fiSize) ∧
        ∀ chunk ∈ hs.filterMap Header.body?, chunk.length < contentSize := by
  constructor
  · intro h
    refine ⟨fun value hvalue => ?_, fun chunk hchunk => ?_⟩
    · obtain ⟨header, hmem, hname⟩ := List.mem_filterMap.mp hvalue
      have hfits := h header hmem
      cases header with
      | name v =>
          obtain rfl : v = value := Option.some.inj hname
          have hlen : v.length ≤ 255 := hfits
          rw [oddBytes_length, fiSize]
          omega
      | _ => cases hname
    · obtain ⟨header, hmem, hbody⟩ := List.mem_filterMap.mp hchunk
      have hfits := h header hmem
      cases header with
      | body c =>
          obtain rfl : c = chunk := Option.some.inj hbody
          have hlen : c.length ≤ 1023 := hfits
          rw [contentSize]
          omega
      | _ => cases hbody
  · rintro ⟨hnames, hbodies⟩ header hmem
    cases header with
    | name value =>
        have hlen := hnames value (List.mem_filterMap.mpr ⟨_, hmem, rfl⟩)
        rw [oddBytes_length, fiSize] at hlen
        show value.length ≤ 255
        omega
    | body chunk =>
        have hlen := hbodies chunk (List.mem_filterMap.mpr ⟨_, hmem, rfl⟩)
        rw [contentSize] at hlen
        show chunk.length ≤ 1023
        omega
    | _ => trivial

/-! ## The write pointer -/

theorem stream_top_le (c : CmdBuf) (bytes : List UInt8) :
    (c.stream bytes).cmdBuf.top ≤ max c.cmdBuf.top (c.stream bytes).buf :=
  c.cmdBuf.write_top_le c.buf bytes

/-- A reply moves the pointer by its length. -/
theorem encode_buf (g : Globals) (packet : Packet) (c : CmdBuf) (r : Reply) :
    (r.encode g packet c).buf = c.buf + (r.pdu g packet).length + 13 ∧
      (r.encode g packet c).cmdBuf.top ≤ max c.cmdBuf.top (r.encode g packet c).buf := by
  have hlayout := r.layout_length g packet
  rw [Reply.encode_eq]
  refine ⟨?_, ?_⟩
  · simp only [CmdBuf.streamFcs, CmdBuf.stream, uint16ToStream_length]
    omega
  · have hfirst := stream_top_le c (r.layout g packet)
    have hsecond := stream_top_le (c.stream (r.layout g packet))
      (uint16ToStream (crc16 0 (slice (c.stream (r.layout g packet)).cmdBuf.bytes 7
        ((r.layout g packet).length - 7))))
    have hgrows : (c.stream (r.layout g packet)).buf ≤
        (c.streamFcs (r.layout g packet) ((r.layout g packet).length - 7)).buf :=
      Nat.le_add_right ..
    unfold CmdBuf.streamFcs at hgrows ⊢
    dsimp only at hgrows ⊢
    omega

/-- A header moves the pointer by the size of its reply. -/
theorem reply_buf (g : Globals) (packet : Packet) (c : CmdBuf) (h : Header) :
    (h.reply g packet c).buf = c.buf + replySize h ∧
      (h.reply g packet c).cmdBuf.top ≤ max c.cmdBuf.top (h.reply g packet c).buf := by
  cases h with
  | srm mode => exact encode_buf g packet c .srm
  | endOfBody chunk => exact encode_buf g packet c .endOfBody
  | _ => exact ⟨rfl, Nat.le_max_left ..⟩

/-! ## The loop -/

/-- Globals whose buffers count as unwritten. -/
def unwritten (g : Globals) : Globals :=
  { g with buffer1 := { g.buffer1 with top := 0 }, buffer2 := { g.buffer2 with top := 0 } }

/-- Every index written lies inside its array, and so do the bytes streamed into
`cmd_buf`. -/
structure Inside (s : PutState) : Prop where
  fi : s.globals.buffer1.top ≤ fiSize
  content : s.globals.buffer2.top ≤ contentSize
  cmdBuf : s.cmd.cmdBuf.top ≤ maxCmdLen
  streamed : s.cmd.buf ≤ maxCmdLen

/-- The loop has handled the headers `hs`.  The acknowledgement may have left its 15 bytes
in `cmd_buf`. -/
structure Written (g : Globals) (hs : List Header) (s : PutState) : Prop where
  globals_eq : s.globals = hs.foldl Header.store g
  buf_eq : s.cmd.buf = (hs.map replySize).sum
  top_le : s.cmd.cmdBuf.top ≤ max 15 s.cmd.buf

theorem written_putStart (g : Globals) (packet : Packet) :
    Written g [] (putStart g packet) := by
  refine ⟨rfl, ackBuffer_buf g packet, ?_⟩
  show (ackBuffer g packet).cmdBuf.top ≤ max 15 (ackBuffer g packet).buf
  unfold ackBuffer
  split_ifs
  · obtain ⟨hbuf, htop⟩ := encode_buf g packet .cleared .ack
    have hack : (recievedAck g packet .cleared).buf = 15 := hbuf
    have htop' : (recievedAck g packet .cleared).cmdBuf.top ≤
        max 0 (recievedAck g packet .cleared).buf := htop
    show (recievedAck g packet .cleared).cmdBuf.top ≤ max 15 0
    omega
  · exact Nat.zero_le _

theorem Written.step {g : Globals} {hs : List Header} {s : PutState} (hwritten : Written g hs s)
    (h : Header) (next : ℕ) : Written g (hs ++ [h]) (h.step packet s next) := by
  obtain ⟨hbuf, htop⟩ := reply_buf s.globals packet s.cmd h
  have hold := hwritten.top_le
  refine ⟨?_, ?_, ?_⟩
  · rw [List.foldl_append, ← hwritten.globals_eq]
    rfl
  · show (h.reply s.globals packet s.cmd).buf = _
    rw [hbuf, hwritten.buf_eq, List.map_append, List.sum_append, List.map_singleton,
      List.sum_singleton]
  · show (h.reply s.globals packet s.cmd).cmdBuf.top ≤ max 15 (h.reply s.globals packet s.cmd).buf
    omega

theorem Written.inside_iff {g : Globals} {hs : List Header} {s : PutState}
    (h : Written (unwritten g) hs s) :
    Inside s ↔ (∀ header ∈ hs, FitsArray header) ∧ (hs.map replySize).sum ≤ maxCmdLen := by
  have hfi : s.globals.buffer1.top ≤ fiSize ↔
      ∀ value ∈ hs.filterMap Header.name?, (oddBytes value).length < fiSize := by
    rw [h.globals_eq, foldl_store_buffer1, ← List.foldl_map, Buffer.foldl_putString_top_le,
      List.forall_mem_map]
    exact and_iff_right (Nat.zero_le _)
  have hcontent : s.globals.buffer2.top ≤ contentSize ↔
      ∀ chunk ∈ hs.filterMap Header.body?, chunk.length < contentSize := by
    rw [h.globals_eq, foldl_store_buffer2, Buffer.foldl_putString_top_le]
    exact and_iff_right (Nat.zero_le _)
  have htop := h.top_le
  have hbuf := h.buf_eq
  rw [fitsArray_iff, ← hfi, ← hcontent, ← hbuf]
  constructor
  · intro hinside
    exact ⟨⟨hinside.fi, hinside.content⟩, hinside.streamed⟩
  · rintro ⟨⟨hname, hbody⟩, hstreamed⟩
    refine ⟨hname, hbody, ?_, hstreamed⟩
    unfold maxCmdLen at hstreamed ⊢
    omega

/-- **Writes stay inside their buffers** after any number of iterations if and only if the
headers that the loop comes to fit, and the replies to them take at most 300 bytes. -/
theorem writes_inside_iff (g : Globals) (packet : Packet) :
    (∀ n, Inside (iterate packet n (putStart (unwritten g) packet))) ↔
      ∀ n, (∀ h ∈ found packet n 14, FitsArray h) ∧
        ((found packet n 14).map replySize).sum ≤ maxCmdLen := by
  refine forall_congr' fun n => ?_
  have hwritten : Written (unwritten g) ([] ++ found packet n 14)
      (iterate packet n (putStart (unwritten g) packet)) :=
    iterate_history _ (fun _ _ h next hs => hs.step h next) (written_putStart _ packet)
  rw [List.nil_append] at hwritten
  exact hwritten.inside_iff

/-- A PUT I-frame that asks sixteen times for Single Response Mode. -/
def insistentPut : Packet := putPacket (List.replicate 16 (.srm 1))

theorem writes_behind_insistentPut :
    RunsLoop insistentPut ∧
      ¬ Inside (iterate insistentPut 16 (putStart (unwritten initial) insistentPut)) := by
  refine ⟨by decide, fun h => ?_⟩
  have hstreamed := h.streamed
  revert hstreamed
  decide

end HydroponicCloset.Safety
