import HydroponicCloset.Bluetooth.ObexFtp
import HydroponicCloset.Lib.Runs

/-!
# OBEX headers, and what the header loop makes of them

`obex_ftp` sees bytes.  A peer sends headers: `Header` lists the kinds the
handler knows, `encode` lays them out, and `PutFrame packet hs` says that a
packet is a PUT I-frame that carries the headers `hs` from offset 14 up to the
FCS.

The loop is a reader followed by an action.  `headersOf` lists the headers
it finds in a packet, or is `none` if it never gets to the end, and
`obexFtp_next` says that a call leaves in the globals what `Header.store` leaves
there, header by header.  This holds of every packet.  What the loop finds in a
PUT frame is what the peer sent (`headers_eq_some`) as long as every End-of-Body
header is empty: the loop skips three bytes at such a header whatever its
length, and takes the contents for headers.
-/

namespace HydroponicCloset.Obex

open CMemory Wire Bluetooth

/-- The headers of a PUT that `obex_ftp` knows. -/
inductive Header
  | connectionId (id : UInt32)
  | name (value : List UInt8)
  | length (value : UInt32)
  | body (chunk : List UInt8)
  | type (value : List UInt8)
  | srm (mode : UInt8)
  | endOfBody (chunk : List UInt8)
  deriving DecidableEq

/-- A header with a length field: its identifier, the length of the whole header
and its value. -/
def sized (id : UInt8) (value : List UInt8) : List UInt8 :=
  id :: be16 (UInt16.ofNat (value.length + 3)) ++ value

/-- The bytes of a header. -/
def Header.encode : Header → List UInt8
  | .connectionId id => 0xcb :: be32 id
  | .name value => sized 0x01 value
  | .length value => 0xc3 :: be32 value
  | .body chunk => sized 0x48 chunk
  | .type value => sized 0x42 value
  | .srm mode => [0x97, mode]
  | .endOfBody chunk => sized 0x49 chunk

/-- The bytes of some headers, one after the other. -/
def encode (hs : List Header) : List UInt8 := hs.flatMap Header.encode

/-- A PUT I-frame with the headers `hs` from offset 14 up to the FCS. -/
structure PutFrame (packet : Packet) (hs : List Header) : Prop where
  iFrame : packet.frameType = 0
  put : packet.obexCommand = 0x02
  len_eq : packet.len.toNat = 14 + (encode hs).length + 2
  headers : slice packet 14 (encode hs).length = encode hs

/-- An End-of-Body header, if the header is one, carries nothing. -/
def Header.Supported : Header → Prop
  | .endOfBody chunk => chunk = []
  | _ => True

/-- What a header leaves in the globals. -/
def Header.store (g : Globals) : Header → Globals
  | .name value => { g with buffer1 := g.buffer1.putString (oddBytes value) }
  | .length value => { g with fileLen := value }
  | .body chunk => { g with buffer2 := g.buffer2.putString chunk }
  | _ => g

/-- What a header leaves in the command buffer. -/
def Header.reply (g : Globals) (packet : Packet) (c : CmdBuf) : Header → CmdBuf
  | .srm _ => srmReply g packet c
  | .endOfBody _ => endOfBodyReply g packet c
  | _ => c

/-- Whether the header is answered. -/
def Header.replies : Header → Bool
  | .srm _ | .endOfBody _ => true
  | _ => false

theorem Header.reply_of_not_replies {h : Header} (hreplies : h.replies = false) (g : Globals)
    (packet : Packet) (c : CmdBuf) : h.reply g packet c = c := by
  cases h <;> simp [Header.replies, Header.reply] at hreplies ⊢

/-! ## What the loop reads -/

/-- The four bytes at `x` as a 32-bit word, high byte first. -/
def read32 (packet : Packet) (x : ℕ) : UInt32 := (slice packet x 4).foldl shiftIn 0

/-- The header that the loop finds at `i`, and where it goes on. -/
def headerAt (packet : Packet) (i : ℕ) : Option (Header × ℕ) :=
  let headLen := (word (packet (i + 1)) (packet (i + 2))).toNat
  let value := slice packet (i + 3) (headLen - 3)
  if packet i = 0xcb then some (.connectionId (read32 packet (i + 1)), i + 5)
  else if packet i = 0x01 then some (.name value, i + headLen)
  else if packet i = 0xc3 then some (.length (read32 packet (i + 1)), i + 5)
  else if packet i = 0x48 then some (.body value, i + headLen)
  else if packet i = 0x42 then some (.type value, i + headLen)
  else if packet i = 0x97 then some (.srm (packet (i + 1)), i + 2)
  -- taken for an empty one
  else if packet i = 0x49 then some (.endOfBody [], i + 3)
  else none

/-- The headers found in at most `fuel` iterations, if they reach the end. -/
def readHeaders (packet : Packet) : ℕ → ℕ → Option (List Header)
  | 0, i => if i + 2 < packet.len.toNat then none else some []
  | fuel + 1, i =>
      if i + 2 < packet.len.toNat then
        (headerAt packet i).bind fun found =>
          (readHeaders packet fuel found.2).map (found.1 :: ·)
      else some []

/-- The headers that a call on the packet handles; `none` if it never returns. -/
def headersOf (packet : Packet) : Option (List Header) :=
  if packet.frameType = 0 ∧ packet.obexCommand = 0x02 then
    readHeaders packet packet.len.toNat 14
  else some []

/-- One header of the loop. -/
def Header.step (packet : Packet) (s : PutState) (h : Header) (next : ℕ) : PutState :=
  { i := next
    globals := h.store s.globals
    cmd := h.reply s.globals packet s.cmd
    send := s.send || h.replies }

theorem name_copied (packet : Packet) (i headLen : ℕ) :
    (forRange (i + 4) (headLen + i) 2).map packet =
      oddBytes (slice packet (i + 3) (headLen - 3)) := by
  by_cases hlen : 3 ≤ headLen
  · rw [← map_forRange_two, show i + 3 + (headLen - 3) = headLen + i by omega]
  · rw [show headLen - 3 = 0 by omega]
    simp [forRange, slice, oddBytes, show headLen + i - (i + 4) = 0 by omega]

theorem body_copied (packet : Packet) (i headLen : ℕ) :
    (forRange (i + 3) (headLen + i) 1).map packet = slice packet (i + 3) (headLen - 3) := by
  by_cases hlen : 3 ≤ headLen
  · rw [← map_forRange_one, show i + 3 + (headLen - 3) = headLen + i by omega]
  · rw [show headLen - 3 = 0 by omega]
    simp [forRange, slice, show headLen + i - (i + 3) = 0 by omega]

theorem length_shifted (packet : Packet) (i : ℕ) (old : UInt32) :
    [1, 2, 3, 4].foldl (fun acc j => shiftIn acc (packet (i + j))) old =
      read32 packet (i + 1) := by
  simp only [read32, slice, List.foldl_map, List.foldl_cons, List.foldl_nil,
    show List.range 4 = [0, 1, 2, 3] from rfl]
  exact shiftIn_four old 0 _ _ _ _

/-- **One iteration of the loop** handles the header it finds and goes on behind
it, or stays where it is. -/
theorem putHeader_eq (packet : Packet) (s : PutState) :
    putHeader packet s =
      (headerAt packet s.i).elim s fun found => found.1.step packet s found.2 := by
  simp only [putHeader, headerAt, copyLoop_terminated, name_copied, body_copied, length_shifted]
  split_ifs <;>
    simp [Header.step, Header.store, Header.reply, Header.replies]

theorem putHeader_position (packet : Packet) (s : PutState) :
    (putHeader packet s).i = (headerAt packet s.i).elim s.i Prod.snd := by
  rw [putHeader_eq]
  cases headerAt packet s.i <;> rfl

/-- The loop hangs at a byte that is no header. -/
theorem putLoop_eq_none {packet : Packet} {s : PutState} (hfound : headerAt packet s.i = none)
    (hmore : s.i + 2 < packet.len.toNat) (fuel : ℕ) : putLoop packet fuel s = none := by
  induction fuel with
  | zero => rw [putLoop, if_pos hmore]
  | succ fuel ih => rw [putLoop, if_pos hmore, putHeader_eq, hfound, Option.elim_none, ih]

/-- What every iteration preserves holds when the loop ends. -/
theorem putLoop_invariant {packet : Packet} (P : PutState → Prop)
    (hstep : ∀ s, P s → P (putHeader packet s)) {fuel : ℕ} {s s' : PutState} (h : P s)
    (hloop : putLoop packet fuel s = some s') : P s' := by
  induction fuel generalizing s with
  | zero =>
      rw [putLoop] at hloop
      split at hloop
      · cases hloop
      · obtain rfl := Option.some.inj hloop
        exact h
  | succ fuel ih =>
      rw [putLoop] at hloop
      split at hloop
      · exact ih (hstep s h) hloop
      · obtain rfl := Option.some.inj hloop
        exact h

/-- Behind the last header both stop. -/
theorem loop_stops {packet : Packet} {s : PutState} (hend : ¬ s.i + 2 < packet.len.toNat)
    (fuel : ℕ) : putLoop packet fuel s = some s ∧ readHeaders packet fuel s.i = some [] := by
  cases fuel <;> simp [putLoop, readHeaders, hend]

/-- **The loop and the reader** end together.  What relates the state to the headers
handled so far, and is preserved by one more, holds of the headers read. -/
theorem putLoop_history {packet : Packet} (R : List Header → PutState → Prop)
    (hstep : ∀ hs s h next, R hs s → R (hs ++ [h]) (h.step packet s next)) {fuel : ℕ}
    {s : PutState} {done : List Header} (hs : R done s) :
    (putLoop packet fuel s = none ∧ readHeaders packet fuel s.i = none) ∨
      ∃ s' hs', putLoop packet fuel s = some s' ∧ readHeaders packet fuel s.i = some hs' ∧
        R (done ++ hs') s' := by
  induction fuel generalizing s done with
  | zero =>
      by_cases hmore : s.i + 2 < packet.len.toNat
      · exact Or.inl ⟨by rw [putLoop, if_pos hmore], by rw [readHeaders, if_pos hmore]⟩
      · obtain ⟨hloop, hread⟩ := loop_stops hmore 0
        exact Or.inr ⟨s, [], hloop, hread, by simpa using hs⟩
  | succ fuel ih =>
      by_cases hmore : s.i + 2 < packet.len.toNat
      · cases hfound : headerAt packet s.i with
        | none =>
            exact Or.inl ⟨putLoop_eq_none hfound hmore _, by simp [readHeaders, hmore, hfound]⟩
        | some found =>
            have hloop : putLoop packet (fuel + 1) s =
                putLoop packet fuel (found.1.step packet s found.2) := by
              rw [putLoop, if_pos hmore, putHeader_eq, hfound, Option.elim_some]
            have hread : readHeaders packet (fuel + 1) s.i =
                (readHeaders packet fuel (found.1.step packet s found.2).i).map
                  (found.1 :: ·) := by
              rw [readHeaders, if_pos hmore, hfound, Option.bind_some]
              rfl
            rw [hloop, hread]
            rcases ih (hstep done s found.1 found.2 hs) with
              ⟨hnone, hnone'⟩ | ⟨s', hs', hsome, hsome', hR⟩
            · exact Or.inl ⟨hnone, by rw [hnone']; rfl⟩
            · refine Or.inr ⟨s', found.1 :: hs', hsome, by rw [hsome']; rfl, ?_⟩
              rwa [List.append_assoc] at hR
      · obtain ⟨hloop, hread⟩ := loop_stops hmore (fuel + 1)
        exact Or.inr ⟨s, [], hloop, hread, by simpa using hs⟩

/-- **The whole loop** handles the headers it reads, one after the other. -/
theorem putLoop_globals (packet : Packet) (fuel : ℕ) (s : PutState) :
    (putLoop packet fuel s).map PutState.globals =
      (readHeaders packet fuel s.i).map fun hs => hs.foldl Header.store s.globals := by
  have hstep : ∀ hs s' h next, s'.globals = hs.foldl Header.store s.globals →
      (Header.step packet s' h next).globals = (hs ++ [h]).foldl Header.store s.globals := by
    intro hs s' h next hglobals
    rw [List.foldl_append, ← hglobals]
    rfl
  have hstart : s.globals = ([] : List Header).foldl Header.store s.globals := rfl
  rcases putLoop_history _ hstep hstart with ⟨hloop, hread⟩ | ⟨s', hs', hloop, hread, hglobals⟩
  · rw [hloop, hread]
    rfl
  · rw [hloop, hread, Option.map_some, Option.map_some, hglobals, List.nil_append]

/-- The loop starts with the pointer at the front of the buffer. -/
theorem ackBuffer_buf (g : Globals) (packet : Packet) : (ackBuffer g packet).buf = 0 := by
  unfold ackBuffer
  split_ifs <;> rfl

/-- **A call of `obex_ftp`** leaves in the globals what the headers leave there,
and returns if and only if the loop gets to the end of the packet. -/
theorem obexFtp_next (g : Globals) (packet : Packet) :
    (obexFtp g packet).next = (headersOf packet).map fun hs => hs.foldl Header.store g := by
  by_cases hframe : packet.frameType = 0
  · by_cases hput : packet.obexCommand = 0x02
    · have hloop := putLoop_globals packet packet.len.toNat (putStart g packet)
      simp only [headersOf, hframe, hput, and_self, if_true]
      rw [show (putStart g packet).i = 14 from rfl,
        show (putStart g packet).globals = g from rfl] at hloop
      rw [← hloop]
      simp only [obexFtp, hframe, hput, if_true]
      cases putLoop packet packet.len.toNat (putStart g packet) <;> simp
    · by_cases hconnect : packet.obexCommand = 0x00 <;>
        simp [obexFtp, headersOf, hframe, hput, hconnect]
  · simp [obexFtp, headersOf, hframe]

/-! ## What a peer sent -/

@[simp] theorem sized_length (id : UInt8) (value : List UInt8) :
    (sized id value).length = value.length + 3 := by
  simp [sized]
  omega

theorem Header.encode_length_pos (h : Header) : 0 < h.encode.length := by
  cases h <;> simp [Header.encode]

/-- What the loop reads at a header with a length field. -/
theorem read_sized {packet : Packet} {i : ℕ} {id : UInt8} {value : List UInt8}
    (hlen : value.length + 3 < 65536)
    (hread : slice packet i (sized id value).length = sized id value) :
    packet i = id ∧ (word (packet (i + 1)) (packet (i + 2))).toNat = value.length + 3 ∧
      slice packet (i + 3) value.length = value := by
  have hpos : ∀ k, k < 3 → k < (sized id value).length := by
    intro k hk
    rw [sized_length]
    omega
  have hid := eq_of_slice_eq hread (hpos 0 (by omega))
  have hhigh := eq_of_slice_eq hread (hpos 1 (by omega))
  have hlow := eq_of_slice_eq hread (hpos 2 (by omega))
  refine ⟨hid, ?_, ?_⟩
  · rw [hhigh, hlow, word_toNat]
    exact be16_ofNat_toNat hlen
  · have hsplit : sized id value =
        [id] ++ be16 (UInt16.ofNat (value.length + 3)) ++ value := rfl
    rw [hsplit] at hread
    exact (slice_append hread).2

/-- At a Connection-Id or Length header. -/
theorem read_be32 {packet : Packet} {i : ℕ} {id : UInt8} {value : UInt32}
    (hread : slice packet i (id :: be32 value).length = id :: be32 value) :
    packet i = id ∧ read32 packet (i + 1) = value := by
  refine ⟨eq_of_slice_eq hread (k := 0) (by simp), ?_⟩
  have hread' : slice packet i ([id] ++ be32 value).length = [id] ++ be32 value := hread
  have hbytes : slice packet (i + 1) 4 = be32 value := (slice_append hread').2
  rw [read32, hbytes, shiftIn_be32]

/-- **At an encoded header** the loop finds that header and goes on behind it. -/
theorem headerAt_encoded {packet : Packet} {i : ℕ} {h : Header} (hsupported : h.Supported)
    (hlen : h.encode.length < 65536)
    (hread : slice packet i h.encode.length = h.encode) :
    headerAt packet i = some (h, i + h.encode.length) := by
  cases h with
  | connectionId id =>
      obtain ⟨hid, hvalue⟩ := read_be32 hread
      simp [headerAt, hid, hvalue, Header.encode, be32]
  | name value =>
      obtain ⟨hid, hhead, hvalue⟩ := read_sized (by simpa [Header.encode] using hlen) hread
      simp [headerAt, hid, hhead, hvalue, Header.encode]
  | length value =>
      obtain ⟨hid, hvalue⟩ := read_be32 hread
      simp [headerAt, hid, hvalue, Header.encode, be32]
  | body chunk =>
      obtain ⟨hid, hhead, hvalue⟩ := read_sized (by simpa [Header.encode] using hlen) hread
      simp [headerAt, hid, hhead, hvalue, Header.encode]
  | type value =>
      obtain ⟨hid, hhead, hvalue⟩ := read_sized (by simpa [Header.encode] using hlen) hread
      simp [headerAt, hid, hhead, hvalue, Header.encode]
  | srm mode =>
      have hid : packet i = 0x97 := eq_of_slice_eq hread (k := 0) (by simp [Header.encode])
      have hmode : packet (i + 1) = mode :=
        eq_of_slice_eq hread (k := 1) (by simp [Header.encode])
      simp [headerAt, hid, hmode, Header.encode]
  | endOfBody chunk =>
      obtain rfl : chunk = [] := hsupported
      obtain ⟨hid, -, -⟩ := read_sized (by simp) hread
      simp [headerAt, hid, Header.encode]

theorem encode_cons (h : Header) (rest : List Header) :
    encode (h :: rest) = h.encode ++ encode rest := rfl

theorem length_le_encode_length (hs : List Header) : hs.length ≤ (encode hs).length := by
  induction hs with
  | nil => simp
  | cons h rest ih =>
      have hpos := h.encode_length_pos
      rw [encode_cons, List.length_append, List.length_cons]
      omega

theorem readHeaders_encoded {packet : Packet} {hs : List Header} {i fuel : ℕ}
    (hsupported : ∀ h ∈ hs, h.Supported) (hfuel : hs.length ≤ fuel)
    (hend : packet.len.toNat = i + (encode hs).length + 2)
    (hread : slice packet i (encode hs).length = encode hs) :
    readHeaders packet fuel i = some hs := by
  induction hs generalizing i fuel with
  | nil =>
      have hstop : ¬ i + 2 < packet.len.toNat := by
        rw [hend]
        simp [encode]
      cases fuel <;> simp [readHeaders, hstop]
  | cons h rest ih =>
      rw [encode_cons] at hread hend
      obtain ⟨hhead, htail⟩ := slice_append hread
      have hpos := h.encode_length_pos
      have hbound := packet.len.toNat_lt
      rw [List.length_append] at hend
      have hfound : headerAt packet i = some (h, i + h.encode.length) :=
        headerAt_encoded (hsupported h (List.mem_cons_self ..)) (by omega) hhead
      cases fuel with
      | zero => simp at hfuel
      | succ fuel =>
          have hrest : readHeaders packet fuel (i + h.encode.length) = some rest :=
            ih (fun h hh => hsupported h (List.mem_cons_of_mem _ hh)) (by simpa using hfuel)
              (by omega) htail
          rw [readHeaders, if_pos (by omega), hfound, Option.bind_some, hrest, Option.map_some]

/-- **The loop finds what the peer sent.** -/
theorem headers_eq_some {packet : Packet} {hs : List Header} (hframe : PutFrame packet hs)
    (hsupported : ∀ h ∈ hs, h.Supported) : headersOf packet = some hs := by
  have hle := length_le_encode_length hs
  have hend := hframe.len_eq
  rw [headersOf, if_pos ⟨hframe.iFrame, hframe.put⟩]
  exact readHeaders_encoded hsupported (by omega) hend hframe.headers

/-- A call on a PUT frame returns. -/
theorem obexFtp_put {packet : Packet} {hs : List Header} (hframe : PutFrame packet hs)
    (hsupported : ∀ h ∈ hs, h.Supported) (g : Globals) :
    (obexFtp g packet).next = some (hs.foldl Header.store g) := by
  rw [obexFtp_next, headers_eq_some hframe hsupported, Option.map_some]

/-! ## What a list of headers leaves in each global

The three globals a header can store to are independent of each other, so each
of them only depends on the headers of one kind. -/

/-- The value of a Name. -/
def Header.name? : Header → Option (List UInt8)
  | .name value => some value
  | _ => none

/-- The value of a Body. -/
def Header.body? : Header → Option (List UInt8)
  | .body chunk => some chunk
  | _ => none

/-- The piece of a file that a header carries. -/
def Header.chunk? : Header → Option (List UInt8)
  | .body chunk => some chunk
  | .endOfBody chunk => some chunk
  | _ => none

/-- The value of a Length. -/
def Header.length? : Header → Option UInt32
  | .length value => some value
  | _ => none

/-- A global that each header updates with the value it carries, if it is of one
kind. -/
theorem foldl_store_global {α β : Type*} (global : Globals → α) (value? : Header → Option β)
    (put : α → β → α)
    (hstore : ∀ h g, global (h.store g) = (value? h).elim (global g) (put (global g)))
    (hs : List Header) (g : Globals) :
    global (hs.foldl Header.store g) = (hs.filterMap value?).foldl put (global g) := by
  induction hs generalizing g with
  | nil => rfl
  | cons h rest ih =>
      rw [List.foldl_cons, ih, hstore]
      cases hvalue : value? h with
      | none => rw [List.filterMap_cons_none hvalue, Option.elim_none]
      | some value => rw [List.filterMap_cons_some hvalue, Option.elim_some, List.foldl_cons]

/-- A global that no header stores to. -/
theorem foldl_store_kept {α : Type*} (global : Globals → α)
    (hkept : ∀ (h : Header) g, global (h.store g) = global g) (hs : List Header) (g : Globals) :
    global (hs.foldl Header.store g) = global g := by
  induction hs generalizing g with
  | nil => rfl
  | cons h rest ih => rw [List.foldl_cons, ih, hkept]

theorem foldl_store_buffer1 (hs : List Header) (g : Globals) :
    (hs.foldl Header.store g).buffer1 =
      (hs.filterMap Header.name?).foldl (fun b value => b.putString (oddBytes value))
        g.buffer1 :=
  foldl_store_global Globals.buffer1 Header.name? _ (fun h _ => by cases h <;> rfl) hs g

theorem foldl_store_buffer2 (hs : List Header) (g : Globals) :
    (hs.foldl Header.store g).buffer2 =
      (hs.filterMap Header.body?).foldl Buffer.putString g.buffer2 :=
  foldl_store_global Globals.buffer2 Header.body? _ (fun h _ => by cases h <;> rfl) hs g

theorem foldl_store_fileLen (hs : List Header) (g : Globals) :
    (hs.foldl Header.store g).fileLen =
      (hs.filterMap Header.length?).foldl (fun _ value => value) g.fileLen :=
  foldl_store_global Globals.fileLen Header.length? _ (fun h _ => by cases h <;> rfl) hs g

/-! ## Names -/

/-- The value of a Name header: the code units of the name, NUL-terminated,
high byte first. -/
def nameValue (units : List UInt16) : List UInt8 := (units ++ [0]).flatMap be16

/-! ## Building packets -/

/-- A PUT I-frame with the given headers, on channel 0x41, in a memory that is
`fill` behind it. -/
def putPacketIn (fill : UInt8) (hs : List Header) : Packet :=
  let bytes : List UInt8 :=
    [2, 0, 0, 0, 0, 0, 0, 0x41, 0, 0, 0, 0x82, 0, 0] ++ encode hs ++ [0, 0]
  ⟨fun k => bytes.getD k fill, UInt16.ofNat bytes.length⟩

/-- The same in a memory that is zero behind it. -/
def putPacket (hs : List Header) : Packet := putPacketIn 0 hs

theorem putPacketIn_len {fill : UInt8} {hs : List Header} (h : (encode hs).length < 65520) :
    (putPacketIn fill hs).len.toNat = 14 + (encode hs).length + 2 := by
  simp only [putPacketIn, List.length_append, List.length_cons, List.length_nil,
    UInt16.toNat_ofNat']
  omega

theorem putPacketIn_of_le {fill : UInt8} {hs : List Header} {k : ℕ}
    (hlen : (encode hs).length < 65520) (hk : (putPacketIn fill hs).len.toNat ≤ k) :
    putPacketIn fill hs k = fill := by
  rw [putPacketIn_len hlen] at hk
  simp only [putPacketIn]
  rw [List.getD_eq_getElem?_getD, List.getElem?_eq_none, Option.getD_none]
  simp only [List.length_append, List.length_cons, List.length_nil]
  omega

theorem putFrame_putPacketIn {fill : UInt8} {hs : List Header} (h : (encode hs).length < 65520) :
    PutFrame (putPacketIn fill hs) hs := by
  refine ⟨?_, ?_, putPacketIn_len h, ?_⟩
  · show (0 : UInt8) &&& 0b00000001 = 0
    decide
  · show (0x82 : UInt8) &&& 0b01111111 = 0x02
    decide
  · apply slice_eq_of_forall
    intro k hk
    simp only [putPacketIn, List.append_assoc, List.getD_eq_getElem?_getD]
    rw [List.getElem?_append_right (by simp), List.getElem?_append_left (by simpa using hk)]
    simp [hk]

theorem putFrame_putPacket {hs : List Header} (h : (encode hs).length < 65520) :
    PutFrame (putPacket hs) hs :=
  putFrame_putPacketIn h

end HydroponicCloset.Obex
