import HydroponicCloset.Obex.Headers

/-!
# Which files are put together again

Every Body header overwrites `buffer_2` from the start, and an End-of-Body
header stores nothing, so a file that is cut into chunks does not come out
whole.  `reassembles_iff` says for which cuttings it does, whatever the buffer
held before and whatever memory the packets lie in: all of the contents must be
in one Body header, with nothing after it that would change them.

The negative half needs a buffer and a memory that show the difference.  A byte
of the buffer just behind the contents is only reached by a Body header that is
as long as the contents; and if the bytes of a non-empty End-of-Body header are
taken for such a header, its last byte comes from behind the packet
(`beyond_of_readHeaders`).
-/

namespace HydroponicCloset.Provisioning

open CMemory Runs Bluetooth Obex

/-- Frames that carry these chunks in order, the last one in an End-of-Body
header. -/
def Carries (frames : List (Packet × List Header)) (bodies : List (List UInt8))
    (last : List UInt8) : Prop :=
  (∀ frame ∈ frames, PutFrame frame.1 frame.2) ∧
    (frames.flatMap Prod.snd).filter (fun h => h.chunk?.isSome) =
      bodies.map .body ++ [.endOfBody last]

/-- After the frames of any transfer with these chunks, `buffer_2` holds the
file. -/
def Reassembles (bodies : List (List UInt8)) (last : List UInt8) : Prop :=
  ∀ g frames, Carries frames bodies last →
    ∃ g', run (fun g packet => (obexFtp g packet).next) g (frames.map Prod.fst) = some g' ∧
      g'.buffer2.Holds (bodies.flatten ++ last)

/-! ## Frames without contents in an End-of-Body -/

theorem run_obexFtp {frames : List (Packet × List Header)}
    (hframes : ∀ frame ∈ frames, PutFrame frame.1 frame.2 ∧ ∀ h ∈ frame.2, h.Supported)
    (g : Globals) :
    run (fun g packet => (obexFtp g packet).next) g (frames.map Prod.fst) =
      some ((frames.flatMap Prod.snd).foldl Header.store g) := by
  induction frames generalizing g with
  | nil => rfl
  | cons frame rest ih =>
      obtain ⟨⟨hput, hsupported⟩, hrest⟩ := List.forall_mem_cons.mp hframes
      rw [List.map_cons, run_cons, obexFtp_put hput hsupported, Option.bind_some, ih hrest,
        List.flatMap_cons, List.foldl_append]

theorem filterMap_body_filter (hs : List Header) :
    (hs.filter fun h => h.chunk?.isSome).filterMap Header.body? = hs.filterMap Header.body? := by
  rw [List.filterMap_filter]
  congr 1
  funext h
  cases h <;> rfl

theorem filterMap_body_map (bodies : List (List UInt8)) (last : List UInt8) :
    (bodies.map Header.body ++ [Header.endOfBody last]).filterMap Header.body? = bodies := by
  simp [List.filterMap_append, List.filterMap_map, Header.body?, Function.comp_def]

theorem Carries.supported {frames : List (Packet × List Header)} {bodies : List (List UInt8)}
    (h : Carries frames bodies []) :
    ∀ frame ∈ frames, PutFrame frame.1 frame.2 ∧ ∀ h ∈ frame.2, h.Supported := by
  obtain ⟨hframes, hchunks⟩ := h
  intro frame hframe
  refine ⟨hframes frame hframe, fun header hheader => ?_⟩
  cases header with
  | endOfBody chunk =>
      have hmem : Header.endOfBody chunk ∈
          (frames.flatMap Prod.snd).filter fun h => h.chunk?.isSome :=
        List.mem_filter.mpr ⟨List.mem_flatMap.mpr ⟨frame, hframe, hheader⟩, rfl⟩
      rw [hchunks] at hmem
      simpa [Header.Supported] using hmem
  | _ => trivial

/-- With an empty End-of-Body, only the Body headers matter. -/
theorem Carries.run {frames : List (Packet × List Header)} {bodies : List (List UInt8)}
    (h : Carries frames bodies []) (g : Globals) :
    ∃ g', Runs.run (fun g packet => (obexFtp g packet).next) g (frames.map Prod.fst) = some g' ∧
      g'.buffer2 = bodies.foldl Buffer.putString g.buffer2 := by
  refine ⟨_, run_obexFtp h.supported g, ?_⟩
  rw [foldl_store_buffer2, ← filterMap_body_filter, h.2, filterMap_body_map]

/-! ## One overwrite after the other -/

theorem eq_flatten_of_length_le {bodies : List (List UInt8)} {b : List UInt8} (hb : b ∈ bodies)
    (hlen : bodies.flatten.length ≤ b.length) : b = bodies.flatten :=
  (List.sublist_flatten_of_mem hb).eq_of_length_le hlen

theorem eq_nil_of_flatten {bodies : List (List UInt8)} {pre post : List (List UInt8)}
    (h : bodies = pre ++ bodies.flatten :: post) : ∀ s ∈ post, s = [] := by
  have hlen := congrArg (fun l => l.flatten.length) h
  simp only [List.flatten_append, List.flatten_cons, List.length_append] at hlen
  have hpost : post.flatten = [] := List.eq_nil_of_length_eq_zero (by omega)
  exact List.flatten_eq_nil_iff.mp hpost

/-- A first byte of zero is what an empty string writes. -/
theorem holds_putString_nil {b : Buffer} {c : List UInt8} (h : b.Holds c)
    (hzero : c.head? = some 0) : (b.putString []).Holds c := by
  obtain ⟨t, rfl⟩ : ∃ t, c = 0 :: t := by
    cases c with
    | nil => simp at hzero
    | cons v t => exact ⟨t, by simpa using hzero⟩
  rw [Buffer.holds_iff] at h ⊢
  obtain ⟨hbytes, hnul⟩ := h
  have hsame : ∀ k, (b.putString []).bytes k = b.bytes k := by
    intro k
    have hfirst := hbytes 0 (by simp)
    cases k with
    | zero => rw [Buffer.putString_bytes, hfirst]; rfl
    | succ k => rw [Buffer.putString_bytes_of_lt (by simp)]
  exact ⟨fun k hk => by rw [hsame, hbytes k hk], by rw [hsame, hnul]⟩

/-- The cuttings that survive. -/
def Survives (bodies : List (List UInt8)) : Prop :=
  bodies.flatten ∈ bodies ∧
    (bodies.getLast? = some bodies.flatten ∨ bodies.flatten.head? = some 0)

theorem holds_of_survives {bodies : List (List UInt8)} (h : Survives bodies) (b : Buffer) :
    (bodies.foldl Buffer.putString b).Holds bodies.flatten := by
  obtain ⟨hmem, hlast | hzero⟩ := h
  · obtain ⟨init, hinit⟩ := List.getLast?_eq_some_iff.mp hlast
    conv_lhs => rw [hinit]
    rw [List.foldl_append]
    exact Buffer.holds_putString _ _
  · obtain ⟨pre, post, hsplit⟩ := List.append_of_mem hmem
    have hempty := eq_nil_of_flatten hsplit
    have hkeep : ∀ (post : List (List UInt8)) (b : Buffer), (∀ s ∈ post, s = []) →
        b.Holds bodies.flatten → (post.foldl Buffer.putString b).Holds bodies.flatten := by
      intro post
      induction post with
      | nil => intro b _ h; exact h
      | cons s rest ih =>
          intro b hnil h
          obtain ⟨rfl, hrest⟩ := List.forall_mem_cons.mp hnil
          exact ih _ hrest (holds_putString_nil h hzero)
    have hthrough := hkeep post ((pre.foldl Buffer.putString b).putString bodies.flatten) hempty
      (Buffer.holds_putString _ _)
    rw [← List.foldl_cons, ← List.foldl_append, ← hsplit] at hthrough
    exact hthrough

/-- In a buffer with no zero byte, the cutting must be one of these. -/
theorem survives_of_holds {bodies : List (List UInt8)} {b : Buffer} (hb : ∀ k, b.bytes k ≠ 0)
    (h : (bodies.foldl Buffer.putString b).Holds bodies.flatten) : Survives bodies := by
  have hnul := ((Buffer.holds_iff _ _).mp h).2
  have hmem : bodies.flatten ∈ bodies := by
    by_contra hnot
    rw [Buffer.foldl_putString_bytes ?_ b] at hnul
    · exact hb _ hnul
    · intro s hs
      by_contra hlen
      exact hnot (eq_flatten_of_length_le hs (by omega) ▸ hs)
  refine ⟨hmem, ?_⟩
  rcases List.eq_nil_or_concat bodies with rfl | ⟨init, l, rfl⟩
  · cases hmem
  by_cases hl : l = (init.concat l).flatten
  · left
    rw [List.concat_eq_append, List.getLast?_append]
    simpa using hl
  · right
    rw [List.concat_eq_append] at h hmem hl ⊢
    -- the whole is among the earlier chunks, so the last one is empty
    have hinit : (init ++ [l]).flatten ∈ init := by
      rcases List.mem_append.mp hmem with hinit | hlast
      · exact hinit
      · exact absurd (List.mem_singleton.mp hlast).symm hl
    obtain ⟨pre, post, hsplit⟩ := List.append_of_mem hinit
    have hwhole : init ++ [l] = pre ++ (init ++ [l]).flatten :: (post ++ [l]) := by
      conv_lhs => rw [hsplit]
      simp
    obtain rfl : l = [] := eq_nil_of_flatten hwhole l (by simp)
    rw [List.foldl_append] at h
    have hfirst := ((Buffer.holds_iff _ _).mp h).1
    cases hc : (init ++ [[]]).flatten with
    | nil => exact absurd hc.symm hl
    | cons v t =>
        have hv := hfirst 0 (by simp [hc])
        simp only [hc, List.getElem_cons_zero] at hv
        rw [List.head?_cons, ← hv]
        rfl

/-! ## An End-of-Body with contents -/

theorem le_of_headerAt {packet : Packet} {i next : ℕ} {h : Header}
    (hfound : headerAt packet i = some (h, next)) : i ≤ next := by
  unfold headerAt at hfound
  split_ifs at hfound <;> simp at hfound <;> omega

/-- A Body header holds bytes of the packet, and the loop goes on behind it. -/
theorem body_of_headerAt {packet : Packet} {i next : ℕ} {chunk : List UInt8}
    (hfound : headerAt packet i = some (.body chunk, next)) :
    slice packet (i + 3) chunk.length = chunk ∧ (chunk ≠ [] → next = i + 3 + chunk.length) := by
  unfold headerAt at hfound
  split_ifs at hfound <;> simp at hfound
  obtain ⟨rfl, rfl⟩ := hfound
  refine ⟨by rw [slice_length], fun hne => ?_⟩
  have hpos := List.length_pos_iff.mpr hne
  rw [slice_length] at hpos ⊢
  omega

theorem readHeaders_end {packet : Packet} {fuel i : ℕ} {hs : List Header}
    (hend : packet.len.toNat ≤ i + 2) (hread : readHeaders packet fuel i = some hs) : hs = [] := by
  cases fuel <;> simpa [readHeaders, Nat.not_lt.mpr hend, eq_comm] using hread

/-- What the loop finds in the contents of an End-of-Body header leaves a byte of
the buffer as it was, or reaches it with bytes from behind the packet. -/
theorem beyond_of_readHeaders {packet : Packet} {z : UInt8} {n : ℕ} (hn : 1 ≤ n)
    (hlen : packet.len.toNat ≤ 19 + n) (hbeyond : ∀ k, packet.len.toNat ≤ k → packet k = z)
    (hz : z ≠ 0) {fuel i : ℕ} {hs : List Header} (hi : 17 ≤ i)
    (hread : readHeaders packet fuel i = some hs) {b : Buffer} (hb : b.bytes n ≠ 0) :
    ((hs.filterMap Header.body?).foldl Buffer.putString b).bytes n ≠ 0 ∨
      ((hs.filterMap Header.body?).foldl Buffer.putString b).bytes (n - 1) = z := by
  induction fuel generalizing i hs b with
  | zero =>
      rw [readHeaders] at hread
      split at hread
      · cases hread
      · obtain rfl := Option.some.inj hread
        exact Or.inl hb
  | succ fuel ih =>
      rw [readHeaders] at hread
      split at hread
      swap
      · obtain rfl := Option.some.inj hread
        exact Or.inl hb
      obtain ⟨⟨h, next⟩, hfound, hrest⟩ := Option.bind_eq_some_iff.mp hread
      obtain ⟨rest, htail, rfl⟩ := Option.map_eq_some_iff.mp hrest
      have hnext := le_of_headerAt hfound
      cases h with
      | body chunk =>
          obtain ⟨hslice, hlong⟩ := body_of_headerAt hfound
          show (((rest.filterMap Header.body?).foldl Buffer.putString
              (b.putString chunk)).bytes n ≠ 0 ∨
            ((rest.filterMap Header.body?).foldl Buffer.putString
              (b.putString chunk)).bytes (n - 1) = z)
          by_cases hshort : chunk.length < n
          · exact ih (by omega) htail (by rwa [Buffer.putString_bytes_of_lt hshort])
          -- a header this long is the last one
          have hend : next = i + 3 + chunk.length := hlong (by rintro rfl; simp at hshort; omega)
          obtain rfl := readHeaders_end (by omega) htail
          have hbyte : ∀ k (hk : k < chunk.length), packet.len.toNat ≤ i + 3 + k →
              (b.putString chunk).bytes k = z := by
            intro k hk hle
            rw [Buffer.putString_bytes_getElem hk, ← eq_of_slice_eq hslice hk]
            exact hbeyond _ hle
          rcases Nat.lt_or_ge n chunk.length with hlt | hge
          · left
            rw [List.filterMap_nil, List.foldl_nil, hbyte n hlt (by omega)]
            exact hz
          · exact Or.inr (hbyte (n - 1) (by omega) (by omega))
      | _ => exact ih (by omega) htail hb

/-- The packets of a transfer, a chunk in each, in a memory that is `fill` behind
every packet. -/
def transferIn (fill : UInt8) (bodies : List (List UInt8)) (last : List UInt8) :
    List (Packet × List Header) :=
  (bodies.map Header.body ++ [Header.endOfBody last]).map fun h => (putPacketIn fill [h], [h])

theorem carries_transferIn {fill : UInt8} {bodies : List (List UInt8)} {last : List UInt8}
    (hlen : (bodies.flatten ++ last).length ≤ 1023) :
    Carries (transferIn fill bodies last) bodies last := by
  constructor
  · intro frame hframe
    obtain ⟨h, hh, rfl⟩ := List.mem_map.mp hframe
    refine putFrame_putPacketIn ?_
    rw [List.length_append] at hlen
    rcases List.mem_append.mp hh with hbody | hlast
    · obtain ⟨b, hb, rfl⟩ := List.mem_map.mp hbody
      have hle := (List.sublist_flatten_of_mem hb).length_le
      simp [encode, Header.encode]
      omega
    · rw [List.mem_singleton.mp hlast]
      simp [encode, Header.encode]
      omega
  · have hflat : (transferIn fill bodies last).flatMap Prod.snd =
        bodies.map Header.body ++ [.endOfBody last] := by
      rw [transferIn, List.flatMap_map]
      exact List.flatMap_singleton' _
    rw [hflat, List.filter_eq_self]
    intro h hh
    rcases List.mem_append.mp hh with hbody | hlast
    · obtain ⟨b, -, rfl⟩ := List.mem_map.mp hbody
      rfl
    · rw [List.mem_singleton.mp hlast]
      rfl

theorem headersOf_endOfBody {fill : UInt8} {last : List UInt8} {hs : List Header}
    (hlen : last.length ≤ 1023)
    (hread : headersOf (putPacketIn fill [.endOfBody last]) = some hs) :
    ∃ fuel rest, hs = .endOfBody [] :: rest ∧
      readHeaders (putPacketIn fill [.endOfBody last]) fuel 17 = some rest := by
  have hencode : (encode [.endOfBody last]).length = last.length + 3 := by
    simp [encode, Header.encode]
  have hframe : PutFrame (putPacketIn fill [.endOfBody last]) [.endOfBody last] :=
    putFrame_putPacketIn (by omega)
  have hid : putPacketIn fill [.endOfBody last] 14 = 0x49 :=
    eq_of_slice_eq hframe.headers (k := 0) (by omega)
  have hfound : headerAt (putPacketIn fill [.endOfBody last]) 14 = some (.endOfBody [], 17) := by
    simp [headerAt, hid]
  have hend := hframe.len_eq
  rw [headersOf, if_pos ⟨hframe.iFrame, hframe.put⟩, hend, hencode,
    show 14 + (last.length + 3) + 2 = last.length + 18 + 1 by omega, readHeaders,
    if_pos (by omega), hfound, Option.bind_some] at hread
  obtain ⟨rest, hrest, rfl⟩ := Option.map_eq_some_iff.mp hread
  exact ⟨_, rest, rfl, hrest⟩

/-- What a transfer leaves in the buffer, if it ends: the Body headers, and then
those that the loop finds in the contents of the End-of-Body header. -/
theorem run_transferIn {fill : UInt8} {bodies : List (List UInt8)} {last : List UInt8}
    (hlen : (bodies.flatten ++ last).length ≤ 1023) {g g' : Globals}
    (hrun : run (fun g packet => (obexFtp g packet).next) g
      ((transferIn fill bodies last).map Prod.fst) = some g') :
    ∃ fuel rest, readHeaders (putPacketIn fill [.endOfBody last]) fuel 17 = some rest ∧
      g'.buffer2 = (rest.filterMap Header.body?).foldl Buffer.putString
        (bodies.foldl Buffer.putString g.buffer2) := by
  let frames := bodies.map fun b => (putPacketIn fill [.body b], [Header.body b])
  have hsplit : transferIn fill bodies last =
      frames ++ [(putPacketIn fill [.endOfBody last], [.endOfBody last])] := by
    simp [transferIn, frames, Function.comp_def]
  have hcarries : Carries (transferIn fill bodies last) bodies last := carries_transferIn hlen
  have hframes : ∀ frame ∈ frames, PutFrame frame.1 frame.2 ∧ ∀ h ∈ frame.2, h.Supported := by
    intro frame hframe
    refine ⟨hcarries.1 frame ?_, ?_⟩
    · rw [hsplit]
      exact List.mem_append_left _ hframe
    · obtain ⟨b, -, rfl⟩ := List.mem_map.mp hframe
      simp [Header.Supported]
  have hbodies : (frames.flatMap Prod.snd).filterMap Header.body? = bodies := by
    simp [frames, List.flatMap_map, List.filterMap_flatMap, Header.body?]
  rw [hsplit, List.map_append, run_append, run_obexFtp hframes, Option.bind_some] at hrun
  obtain ⟨hs, hhs, rfl⟩ := Option.map_eq_some_iff.mp
    ((obexFtp_next _ _).symm.trans (by simpa [run_cons] using hrun))
  rw [List.length_append] at hlen
  obtain ⟨fuel, rest, rfl, hrest⟩ := headersOf_endOfBody (by omega) hhs
  refine ⟨fuel, rest, hrest, ?_⟩
  rw [foldl_store_buffer2, foldl_store_buffer2, hbodies]
  rfl

/-- A byte that is neither zero nor `v`. -/
theorem exists_ne (v : UInt8) : ∃ z : UInt8, z ≠ 0 ∧ z ≠ v := by
  by_cases hv : v = 1
  · exact ⟨2, by decide, by rw [hv]; decide⟩
  · exact ⟨1, by decide, fun h => hv h.symm⟩

/-- A buffer of ones. -/
def ones : Globals := setDir zeroed ⟨fun _ => 1, 0⟩

/-- A transfer that comes out whole, whatever memory the packets lie in, has an
empty End-of-Body header. -/
theorem eq_nil_of_reassembles {bodies : List (List UInt8)} {last : List UInt8}
    (hlen : (bodies.flatten ++ last).length ≤ 1023) (h : Reassembles bodies last) : last = [] := by
  by_contra hne
  have hpos := List.length_pos_iff.mpr hne
  have htotal : (bodies.flatten ++ last).length = bodies.flatten.length + last.length :=
    List.length_append
  obtain ⟨z, hz, hzlast⟩ := exists_ne (last.getLast hne)
  have hcarries : Carries (transferIn z bodies last) bodies last := carries_transferIn hlen
  obtain ⟨g', hrun, hholds⟩ := h ones _ hcarries
  obtain ⟨fuel, rest, hrest, hbuffer⟩ := run_transferIn hlen hrun
  have hshort : ∀ b ∈ bodies, b.length < (bodies.flatten ++ last).length := by
    intro b hb
    have hle := (List.sublist_flatten_of_mem hb).length_le
    omega
  have hfresh : (bodies.foldl Buffer.putString ones.buffer2).bytes
      (bodies.flatten ++ last).length ≠ 0 := by
    rw [Buffer.foldl_putString_bytes hshort]
    simp [ones, setDir]
  have hencode : (encode [.endOfBody last]).length = last.length + 3 := by
    simp [encode, Header.encode]
  have hlenLast : (putPacketIn z [.endOfBody last]).len.toNat = 19 + last.length := by
    rw [putPacketIn_len (by omega), hencode]
    omega
  have hbeyond : ∀ k, (putPacketIn z [.endOfBody last]).len.toNat ≤ k →
      putPacketIn z [.endOfBody last] k = z := fun k hk => putPacketIn_of_le (by omega) hk
  rw [hbuffer] at hholds
  obtain ⟨hbytes, hnul⟩ := (Buffer.holds_iff _ _).mp hholds
  rcases beyond_of_readHeaders (by omega) (by omega) hbeyond hz le_rfl hrest hfresh
    with hleft | hright
  · exact hleft hnul
  · have hlastByte := hbytes ((bodies.flatten ++ last).length - 1) (by omega)
    rw [← List.getLast_eq_getElem (by simp [hne]), List.getLast_append_of_ne_nil _ hne] at hlastByte
    exact hzlast (hright.symm.trans hlastByte)

/-! ## The result -/

/-- **Which files are put together again.** -/
theorem reassembles_iff {bodies : List (List UInt8)} {last : List UInt8}
    (hlen : (bodies.flatten ++ last).length ≤ 1023) :
    Reassembles bodies last ↔ last = [] ∧ Survives bodies := by
  constructor
  · intro h
    obtain rfl := eq_nil_of_reassembles hlen h
    have hcarries : Carries (transferIn 0 bodies []) bodies [] := carries_transferIn hlen
    obtain ⟨g', hrun, hholds⟩ := h ones _ hcarries
    obtain ⟨g, hg, hbuffer⟩ := hcarries.run ones
    obtain rfl : g' = g := Option.some.inj (hrun.symm.trans hg)
    rw [List.append_nil, hbuffer] at hholds
    have hones : ∀ k, ones.buffer2.bytes k ≠ 0 := fun k => by simp [ones, setDir]
    exact ⟨rfl, survives_of_holds hones hholds⟩
  · rintro ⟨rfl, hsurvives⟩ g frames hcarries
    obtain ⟨g', hrun, hbuffer⟩ := hcarries.run g
    refine ⟨g', hrun, ?_⟩
    rw [List.append_nil, hbuffer]
    exact holds_of_survives hsurvives _

/-- A file in one Body header, with an empty End-of-Body. -/
theorem reassembles_single : Reassembles [[0x61, 0x62]] [] :=
  (reassembles_iff (by decide)).mpr ⟨rfl, by decide, by decide⟩

/-- `ab` in two chunks: the second one overwrites the first. -/
theorem not_reassembles_two : ¬ Reassembles [[0x61], [0x62]] [] := by
  intro h
  have hcarries : Carries (transferIn 0 [[0x61], [0x62]] []) [[0x61], [0x62]] [] :=
    carries_transferIn (by decide)
  obtain ⟨g', hrun, hholds⟩ := h initial _ hcarries
  obtain ⟨g, hg, hbuffer⟩ := hcarries.run initial
  obtain rfl : g' = g := Option.some.inj (hrun.symm.trans hg)
  rw [hbuffer] at hholds
  exact absurd hholds (by decide)

end HydroponicCloset.Provisioning
