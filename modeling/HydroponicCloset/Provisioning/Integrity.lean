import HydroponicCloset.Provisioning.Inbox
import HydroponicCloset.Lib.Lists

/-!
# Whose credentials are accepted

Nothing ties `content` to `fi`: each holds the latest string of its kind, from
whatever file.  Files arrive one after the other, so `chunk_owner` can tell the
sender of a chunk from its place: a chunk that comes after a Name header, with
no other Name header between them, belongs to the file of that name.

`credentials_intact` follows.  It asks that every iteration that finds
credentials be `Intact`: the latest Name is `wifi.config` itself, a Body header
came after it, and that file has its contents in one chunk.
-/

namespace HydroponicCloset.Provisioning

open CMemory Lists Scanf Runs Bluetooth Obex App

/-! ## Files -/

/-- A file and the headers that transfer it: one Name, and then its chunks. -/
structure File where
  name : List UInt16
  headers : List Header
  named : ∃ pre post, headers = pre ++ .name (nameValue name) :: post ∧
    (∀ h ∈ pre, h.name? = none ∧ h.chunk? = none) ∧ ∀ h ∈ post, h.name? = none

namespace File

/-- The pieces of the contents. -/
def chunks (f : File) : List (List UInt8) := f.headers.filterMap Header.chunk?

/-- The complete contents of the file. -/
def body (f : File) : List UInt8 := f.chunks.flatten

/-- The headers of the file, each with its sender. -/
def tagged (f : File) : List (File × Header) := f.headers.map fun h => (f, h)

end File

/-- The headers of several files, sent one file after the other. -/
def stream (files : List File) : List (File × Header) := files.flatMap File.tagged

/-! ## Who sent a chunk -/

theorem chunk_of_no_name {files : List File} {first : List (File × Header)}
    (hsofar : first <+: stream files) (hnone : ∀ x ∈ first, x.2.name? = none) :
    ∀ x ∈ first, x.2.chunk? = none := by
  cases files with
  | nil =>
      intro x hx
      rw [List.prefix_nil.mp hsofar] at hx
      cases hx
  | cons f rest =>
      obtain ⟨pre, post, hheaders, hpre, -⟩ := f.named
      obtain ⟨last, hlast⟩ := hsofar
      have hsplit : first ++ last = pre.map (fun h => (f, h)) ++
          ((f, .name (nameValue f.name)) :: (post.map (fun h => (f, h)) ++ stream rest)) := by
        rw [hlast]
        simp [stream, File.tagged, hheaders]
      have hmem : ∀ x ∈ pre.map (fun h => (f, h)), x.2.chunk? = none := by
        intro x hx
        obtain ⟨h, hh, rfl⟩ := List.mem_map.mp hx
        exact (hpre h hh).2
      rcases List.append_eq_append_iff.mp hsplit with ⟨more, hmore, -⟩ | ⟨more, rfl, hname⟩
      · intro x hx
        exact hmem x (by rw [hmore]; exact List.mem_append_left _ hx)
      · cases more with
        | nil => simpa using hmem
        | cons y more =>
            -- the name itself would be in `first`
            obtain ⟨rfl, -⟩ := List.cons.inj hname
            have hcontra := hnone _ (List.mem_append_right _ (List.mem_cons_self ..))
            simp [Header.name?] at hcontra

/-- **The sender of a chunk** is the file whose Name came last. -/
theorem chunk_owner {files : List File} {f : File} {v : List UInt8}
    {earlier between : List (File × Header)}
    (hsofar : earlier ++ (f, .name v) :: between <+: stream files)
    (hnone : ∀ x ∈ between, x.2.name? = none) :
    f ∈ files ∧ ∀ x ∈ between, x.2.chunk? ≠ none → x.2 ∈ f.headers := by
  induction files generalizing earlier with
  | nil => simp [stream] at hsofar
  | cons g rest ih =>
      obtain ⟨last, hlast⟩ := hsofar
      rw [stream, List.flatMap_cons, List.append_assoc] at hlast
      have hlater : ∀ earlier', earlier' ++ (f, .name v) :: between ++ last = stream rest →
          f ∈ g :: rest ∧ ∀ x ∈ between, x.2.chunk? ≠ none → x.2 ∈ f.headers := by
        intro earlier' heq
        obtain ⟨hf, howner⟩ := ih ⟨last, heq⟩
        exact ⟨List.mem_cons_of_mem _ hf, howner⟩
      rcases List.append_eq_append_iff.mp hlast with ⟨more, hg, hmore⟩ | ⟨more, -, hmore⟩
      · cases more with
        | nil => exact hlater [] hmore
        | cons y more =>
            -- the Name is one of the headers of `g`
            rw [List.cons_append, List.cons_append, List.cons.injEq] at hmore
            obtain ⟨rfl, hmore⟩ := hmore
            have hin : ∀ x ∈ (f, Header.name v) :: more, x.1 = g ∧ x.2 ∈ g.headers := by
              intro x hx
              have hx' : x ∈ g.tagged := by
                rw [hg]
                exact List.mem_append_right _ hx
              obtain ⟨h, hh, rfl⟩ := List.mem_map.mp hx'
              exact ⟨rfl, hh⟩
            obtain rfl : f = g := (hin _ (List.mem_cons_self ..)).1
            refine ⟨List.mem_cons_self .., ?_⟩
            rcases List.append_eq_append_iff.mp hmore with ⟨tail, rfl, -⟩ | ⟨tail, rfl, htail⟩
            · intro x hx _
              exact (hin x (by simp [hx])).2
            · have hnext : ∀ x ∈ tail, x.2.chunk? = none :=
                chunk_of_no_name ⟨last, htail.symm⟩ fun x hx =>
                  hnone x (List.mem_append_right _ hx)
              intro x hx hchunk
              rcases List.mem_append.mp hx with hx | hx
              · exact (hin x (List.mem_cons_of_mem _ hx)).2
              · exact absurd (hnext x hx) hchunk
      · exact hlater more (by rw [List.append_assoc, List.cons_append]; exact hmore.symm)

/-! ## Steps that know their sender -/

/-- An event of a run in which files are transferred. -/
inductive Step
  | frame (file : File) (packet : Packet) (hs : List Header)
  | other (packet : Packet)
  | iteration

namespace Step

/-- The step without its sender. -/
def event : Step → Event
  | .frame _ packet _ => .packet packet
  | .other packet => .packet packet
  | .iteration => .iteration

/-- A frame is a PUT frame with these headers, no End-of-Body among them with
contents; another packet is no PUT. -/
def Valid : Step → Prop
  | .frame _ packet hs => PutFrame packet hs ∧ ∀ h ∈ hs, h.Supported
  | .other packet => ¬ (packet.frameType = 0 ∧ packet.obexCommand = 0x02)
  | .iteration => True

/-- The headers that a step brings, each with its sender. -/
def headers : Step → List (File × Header)
  | .frame file _ hs => hs.map fun h => (file, h)
  | _ => []

end Step

/-- The headers received since the last iteration. -/
def since (steps : List Step) : List (File × Header) :=
  steps.foldl (fun acc step =>
    match step with
    | .iteration => []
    | step => acc ++ step.headers) []

/-- All the headers received. -/
def received (steps : List Step) : List (File × Header) := steps.flatMap Step.headers

theorem since_concat (steps : List Step) (step : Step) :
    since (steps ++ [step]) =
      match step with
      | .iteration => []
      | step => since steps ++ step.headers := by
  rw [since, List.foldl_append]
  rfl

theorem received_eq (steps : List Step) : ∃ earlier, received steps = earlier ++ since steps := by
  induction steps using List.reverseRecOn with
  | nil => exact ⟨[], rfl⟩
  | append_singleton steps step ih =>
      obtain ⟨earlier, hearlier⟩ := ih
      have hreceived : received (steps ++ [step]) = received steps ++ step.headers := by
        simp [received]
      rw [hreceived, since_concat]
      cases step with
      | iteration => exact ⟨received steps, by simp [Step.headers]⟩
      | frame file packet hs => exact ⟨earlier, by rw [hearlier, List.append_assoc]⟩
      | other packet => exact ⟨earlier, by rw [hearlier, List.append_assoc]⟩

theorem receive_append (m : Mailbox) (first second : List Header) :
    m.receive (first ++ second) = (m.receive first).receive second := by
  simp only [Mailbox.receive, List.filterMap_append, List.map_append, getLastD_append]

/-- The mailbox is what the headers since the last iteration left in it. -/
theorem latest_eq {steps : List Step} (hvalid : ∀ step ∈ steps, step.Valid) :
    latest (steps.map Step.event) = Mailbox.receive {} ((since steps).map Prod.snd) := by
  induction steps using List.reverseRecOn with
  | nil => rfl
  | append_singleton steps step ih =>
      have hsteps := ih fun step hstep => hvalid step (List.mem_append_left _ hstep)
      have hstep := hvalid step (by simp)
      rw [List.map_append, latest_append, since_concat, hsteps]
      cases step with
      | iteration => rfl
      | frame file packet hs =>
          have hheaders : headersOf packet = some hs := headers_eq_some hstep.1 hstep.2
          have hmap : (Step.headers (.frame file packet hs)).map Prod.snd = hs := by
            simp [Step.headers, Function.comp_def]
          rw [List.map_append, hmap, receive_append]
          simp [Step.event, Mailbox.next, hheaders]
      | other packet =>
          have hheaders : headersOf packet = some [] := if_neg hstep
          simp [Step.event, Step.headers, Mailbox.next, hheaders, Mailbox.receive]

/-! ## Accepting -/

/-- At an iteration after `pre`: the latest Name header is that of a file named
`wifi.config`, a Body header came after it, and the file has one chunk with
contents, which fits. -/
def Intact (pre : List Step) : Prop :=
  ∀ earlier f v between, since pre = earlier ++ (f, .name v) :: between →
    (∀ x ∈ between, x.2.name? = none) →
    f.name = wifiConfigUnits ∧ (∃ x ∈ between, x.2.body? ≠ none) ∧
      ∃ chunk, f.chunks.filter (· ≠ []) = [chunk] ∧ chunk.length < contentSize

theorem parseCredentials_nil : parseCredentials (cText contentSize []) = none := by decide

theorem eq_of_chunk {f : File} {chunk content : List UInt8}
    (hone : f.chunks.filter (· ≠ []) = [chunk]) (hmem : content ∈ f.chunks) (hne : content ≠ []) :
    content = chunk ∧ f.body = chunk := by
  have hchunk : content ∈ f.chunks.filter (· ≠ []) := by simp [hmem, hne]
  rw [hone, List.mem_singleton] at hchunk
  refine ⟨hchunk, ?_⟩
  rw [File.body, ← List.flatten_filter_ne_nil, hone]
  simp

theorem receive_content (xs : List (File × Header)) :
    (Mailbox.receive {} (xs.map Prod.snd)).content =
      (xs.filterMap fun x => x.2.body?).getLastD [] := by
  show ((xs.map Prod.snd).filterMap Header.body?).getLastD [] = _
  rw [List.filterMap_map]
  rfl

/-- A mailbox with a name in it got it from a last Name header. -/
theorem exists_last_name {xs : List (File × Header)}
    (hname : (Mailbox.receive {} (xs.map Prod.snd)).name ≠ []) :
    ∃ earlier f v between, xs = earlier ++ (f, .name v) :: between ∧
      ∀ x ∈ between, x.2.name? = none := by
  have hnames : xs.filterMap (fun x => x.2.name?) ≠ [] := by
    intro hnil
    have hfilter : (xs.map Prod.snd).filterMap Header.name? = [] := by
      rw [List.filterMap_map]
      exact hnil
    rw [Mailbox.receive, hfilter] at hname
    exact hname rfl
  obtain ⟨earlier, ⟨f, h⟩, between, v, hsplit, hv, hbetween, -⟩ :=
    exists_last_filterMap (fun x : File × Header => x.2.name?) xs [] hnames
  obtain rfl : h = .name v := by
    cases h <;> simp [Header.name?] at hv
    rw [hv]
  exact ⟨earlier, f, v, between, hsplit, hbetween⟩

/-- If Body headers came after the last Name header, the mailbox has the contents
of one of them. -/
theorem content_mem_of_body {earlier between : List (File × Header)} {y : File × Header}
    (hbody : ∃ x ∈ between, x.2.body? ≠ none) :
    ∃ g content, (g, .body content) ∈ between ∧
      (Mailbox.receive {} ((earlier ++ y :: between).map Prod.snd)).content = content := by
  obtain ⟨x, hx, hsome⟩ := hbody
  have hbodies : between.filterMap (fun x => x.2.body?) ≠ [] := fun hnil =>
    hsome (List.filterMap_eq_nil_iff.mp hnil x hx)
  obtain ⟨before, ⟨g, h⟩, after, content, hsplit, hcontent, -, hlast⟩ :=
    exists_last_filterMap (fun x : File × Header => x.2.body?) between
      (((earlier ++ [y]).filterMap fun x => x.2.body?).getLastD []) hbodies
  obtain rfl : h = .body content := by
    cases h <;> simp [Header.body?] at hcontent
    rw [hcontent]
  refine ⟨g, content, by rw [hsplit]; simp, ?_⟩
  rw [receive_content, List.append_cons, List.filterMap_append, getLastD_append, hlast]

theorem name_ne_nil {m : Mailbox} (h : m.name.takeWhile (· ≠ 0) = wifiConfig) : m.name ≠ [] := by
  intro hnil
  have hempty : ¬ ([] : List UInt8).takeWhile (· ≠ 0) = wifiConfig := by decide
  exact hempty (hnil ▸ h)

/-- **One iteration** that is intact finds the whole of one file. -/
theorem mailbox_of_intact {files : List File} {pre : List Step}
    (hvalid : ∀ step ∈ pre, step.Valid) (hsent : received pre <+: stream files)
    (hintact : Intact pre) {s p : List UInt8}
    (hc : (latest (pre.map Step.event)).credentials = some (s, p)) :
    ∃ f ∈ files, f.name = wifiConfigUnits ∧
      parseCredentials (f.body.takeWhile (· ≠ 0)) = some (s, p) := by
  rw [latest_eq hvalid, Mailbox.credentials] at hc
  split at hc
  swap
  · cases hc
  rename_i hname
  obtain ⟨earlier, f, v, between, hsince, hbetween⟩ := exists_last_name (name_ne_nil hname)
  obtain ⟨hwifi, hbody, chunk, hone, hfits⟩ := hintact earlier f v between hsince hbetween
  obtain ⟨g, content, hmem, hcontent⟩ := content_mem_of_body (y := (f, .name v)) hbody
  -- the latest contents were sent after the latest name, so they are of the same file
  obtain ⟨before, hreceived⟩ := received_eq pre
  have hsofar : (before ++ earlier) ++ (f, .name v) :: between <+: stream files := by
    rw [List.append_assoc, ← hsince, ← hreceived]
    exact hsent
  obtain ⟨hf, howner⟩ := chunk_owner hsofar hbetween
  have hchunk : content ∈ f.chunks :=
    List.mem_filterMap.mpr ⟨.body content, howner _ hmem (by simp [Header.chunk?]), rfl⟩
  rw [hsince, hcontent] at hc
  have hne : content ≠ [] := by
    rintro rfl
    rw [parseCredentials_nil] at hc
    cases hc
  obtain ⟨rfl, hwhole⟩ := eq_of_chunk hone hchunk hne
  refine ⟨f, hf, hwifi, ?_⟩
  rw [hwhole]
  rwa [cText, List.take_of_length_le hfits.le] at hc

/-- **Whose credentials are accepted**, in every run of file transfers and
iterations, as long as every iteration that finds credentials is intact. -/
theorem credentials_intact {files : List File} {steps : List Step}
    (hvalid : ∀ step ∈ steps, step.Valid) (hsent : received steps <+: stream files)
    (hintact : ∀ pre post, steps = pre ++ .iteration :: post →
      (latest (pre.map Step.event)).credentials ≠ none → Intact pre)
    {d : Device} (hrun : run Device.step waiting (steps.map Step.event) = some d)
    (haccepted : d.credentialsRecived = true) :
    ∃ f ∈ files, f.name = wifiConfigUnits ∧
      ∃ s p, parseCredentials (f.body.takeWhile (· ≠ 0)) = some (s, p) ∧
        d.ssid.Holds s ∧ d.pass.Holds p := by
  obtain ⟨b, hb, hshows⟩ := shows_run hrun
  rw [hshows.recived, Option.isSome_iff_exists] at haccepted
  obtain ⟨⟨s, p⟩, hc⟩ := haccepted
  obtain ⟨hssid, hpass⟩ := hshows.stored s p hc
  obtain ⟨events, later, hsplit, hfound⟩ := ((credentials_eq_some_iff hb).2 _).mp hc
  obtain ⟨pre, rest, rfl, rfl, hrest⟩ := List.map_eq_append_iff.mp hsplit
  obtain ⟨step, post, rfl, hstep, -⟩ := List.map_eq_cons_iff.mp hrest
  obtain rfl : step = .iteration := by cases step <;> simp [Step.event] at hstep ⊢
  have hsofar : received pre <+: stream files := by
    refine List.IsPrefix.trans ?_ hsent
    exact ⟨received (.iteration :: post), by simp [received]⟩
  have hpre : ∀ step ∈ pre, step.Valid := fun step hmem =>
    hvalid step (List.mem_append_left _ hmem)
  obtain ⟨f, hf, hname, hparse⟩ :=
    mailbox_of_intact hpre hsofar (hintact pre post rfl (by rw [hfound]; simp)) hfound
  exact ⟨f, hf, hname, s, p, hparse, hssid, hpass⟩

/-! ## A file of credentials, and a file beside it -/

/-- A `wifi.config` file with credentials. -/
def wifiFile : File where
  name := wifiConfigUnits
  headers := [.name (nameValue wifiConfigUnits), .body (credentialsBody (ascii "net") (ascii "key")),
    .endOfBody []]
  named := ⟨[], _, rfl, by simp, by simp [Header.name?]⟩

/-- `notes`, whose contents happen to look like credentials. -/
def notesFile : File where
  name := (ascii "notes").map UInt8.toUInt16
  headers := [.name (nameValue ((ascii "notes").map UInt8.toUInt16)),
    .body (credentialsBody (ascii "old") (ascii "pin")), .endOfBody []]
  named := ⟨[], _, rfl, by simp, by simp [Header.name?]⟩

/-- The frame that carries these headers of a file. -/
def frameOf (f : File) (hs : List Header) : Step := .frame f (putPacket hs) hs

theorem frameOf_valid {f : File} {hs : List Header} (hlen : (encode hs).length < 65520)
    (hsupported : ∀ h ∈ hs, h.Supported) : (frameOf f hs).Valid :=
  ⟨putFrame_putPacket hlen, hsupported⟩

/-- One frame a file, and a look after each. -/
def lookAfterEach : List Step :=
  [frameOf notesFile notesFile.headers, .iteration, frameOf wifiFile wifiFile.headers, .iteration]

theorem intact_wifiFile (steps : List Step) :
    Intact (steps ++ [.iteration, frameOf wifiFile wifiFile.headers]) := by
  intro earlier f v between hsince hnone
  have hheaders : since (steps ++ [.iteration, frameOf wifiFile wifiFile.headers]) =
      wifiFile.tagged := by
    rw [since, List.foldl_append]
    rfl
  rw [hheaders] at hsince
  cases earlier with
  | nil =>
      obtain ⟨hhead, rfl⟩ := List.cons.inj hsince
      obtain rfl : f = wifiFile := (congrArg Prod.fst hhead).symm
      refine ⟨rfl, ⟨(_, .body _), List.mem_cons_self .., by simp [Header.body?]⟩, _, rfl, ?_⟩
      decide
  | cons x earlier =>
      obtain ⟨-, htail⟩ := List.cons.inj hsince
      have hname : (f, Header.name v) ∈ wifiFile.tagged.tail := by
        have htail' : wifiFile.tagged.tail = earlier ++ (f, .name v) :: between := htail
        simp [htail']
      simp [File.tagged, wifiFile] at hname

set_option maxRecDepth 4000 in
theorem credentials_intact_lookAfterEach :
    ∃ d, run Device.step waiting (lookAfterEach.map Step.event) = some d ∧
      ∃ f ∈ [notesFile, wifiFile], f.name = wifiConfigUnits ∧
        ∃ s p, parseCredentials (f.body.takeWhile (· ≠ 0)) = some (s, p) ∧
          d.ssid.Holds s ∧ d.pass.Holds p := by
  have haccepted : (run Device.step waiting (lookAfterEach.map Step.event)).map
      Device.credentialsRecived = some true := by decide
  obtain ⟨d, hd, hrecived⟩ := Option.map_eq_some_iff.mp haccepted
  have hvalid : ∀ step ∈ lookAfterEach, step.Valid := by
    simp only [lookAfterEach, List.forall_mem_cons, List.not_mem_nil, false_imp_iff, implies_true,
      and_true]
    exact ⟨frameOf_valid (by decide) (by simp [notesFile, Header.Supported]), trivial,
      frameOf_valid (by decide) (by simp [wifiFile, Header.Supported]), trivial⟩
  have hsent : received lookAfterEach <+: stream [notesFile, wifiFile] := ⟨[], rfl⟩
  refine ⟨d, hd, credentials_intact hvalid hsent ?_ hd hrecived⟩
  intro pre post hsplit hfound
  match pre, hsplit with
  | [_], hsplit =>
      obtain ⟨rfl, -⟩ := List.cons.inj hsplit
      exact absurd (by decide) hfound
  | [_, _, _], hsplit =>
      simp only [lookAfterEach, List.cons_append, List.nil_append, List.cons.injEq] at hsplit
      obtain ⟨rfl, rfl, rfl, -⟩ := hsplit
      exact intact_wifiFile [_]
  | _ :: _ :: _ :: _ :: _, hsplit => simp [lookAfterEach] at hsplit

set_option maxRecDepth 4000 in
/-- The loop looks between the Name of `wifi.config` and its Body, just after
`notes` arrived: it accepts what `notes` contains. -/
theorem credentials_mixed :
    let steps := [frameOf notesFile notesFile.headers, frameOf wifiFile (wifiFile.headers.take 1),
      .iteration]
    (∀ step ∈ steps, step.Valid) ∧ received steps <+: stream [notesFile, wifiFile] ∧
      (run Device.step waiting (steps.map Step.event)).map (fun d =>
        (d.credentialsRecived, decide (d.ssid.Holds (ascii "old")),
          decide (d.pass.Holds (ascii "pin")))) = some (true, true, true) ∧
      ∀ f ∈ [notesFile, wifiFile], f.name = wifiConfigUnits →
        parseCredentials (f.body.takeWhile (· ≠ 0)) = some (ascii "net", ascii "key") := by
  refine ⟨?_, ⟨wifiFile.tagged.drop 1, rfl⟩, by decide, ?_⟩
  · simp only [List.forall_mem_cons, List.not_mem_nil, false_imp_iff, implies_true, and_true]
    exact ⟨frameOf_valid (by decide) (by simp [notesFile, Header.Supported]),
      frameOf_valid (by decide) (by simp [wifiFile, Header.Supported]), trivial⟩
  · simp only [List.forall_mem_cons, List.not_mem_nil, false_imp_iff, implies_true, and_true]
    exact ⟨by decide, by decide⟩

end HydroponicCloset.Provisioning
