import HydroponicCloset.Provisioning.Inbox

/-!
# Which interleavings lose the credentials

A peer puts `wifi.config` in three frames: one with the Name, one with the whole
Body, and one with an empty End-of-Body.  The loop may look at any time, and a
look empties both buffers, so a look between the first two frames throws the
name away and the Body that follows has none.

`credentials_kept_iff` allows any events before, between and after the three
frames.  The credentials are kept exactly when some look after the Body frame is
`OnTime`.  If nobody else sends a Name or a Body, that is when no look comes
between the Name and the Body.
-/

namespace HydroponicCloset.Provisioning

open CMemory Scanf Runs Bluetooth Obex App

/-- A PUT frame with these Name and Body headers. -/
def Puts (packet : Packet) (names bodies : List (List UInt8)) (hs : List Header) : Prop :=
  PutFrame packet hs ∧ (∀ h ∈ hs, h.Supported) ∧ hs.filterMap Header.name? = names ∧
    hs.filterMap Header.body? = bodies

/-- A transfer of `wifi.config` in three frames. -/
structure Transfer (nameFrame bodyFrame endFrame : Packet) (s p : List UInt8) : Prop where
  ssid : Credential s
  pass : Credential p
  name : ∃ hs, Puts nameFrame [nameValue wifiConfigUnits] [] hs
  body : ∃ hs, Puts bodyFrame [] [credentialsBody s p] hs
  endOfBody : ∃ hs, Puts endFrame [] [] hs ∧ .endOfBody [] ∈ hs

/-- After `history`, some iteration finds the credentials `c` in the mailbox. -/
def OnTime (history rest : List Event) (c : List UInt8 × List UInt8) : Prop :=
  ∃ pre post, rest = pre ++ .iteration :: post ∧ (latest (history ++ pre)).credentials = some c

/-- An event that brings no Name and no Body. -/
def Quiet : Event → Prop
  | .packet packet => ∀ hs, headersOf packet = some hs →
      hs.filterMap Header.name? = [] ∧ hs.filterMap Header.body? = []
  | .iteration => True

theorem Puts.next {packet : Packet} {names bodies : List (List UInt8)} {hs : List Header}
    (h : Puts packet names bodies hs) (m : Mailbox) :
    m.next (.packet packet) =
      ⟨(names.map oddBytes).getLastD m.name, bodies.getLastD m.content⟩ := by
  obtain ⟨hframe, hsupported, hnames, hbodies⟩ := h
  rw [Mailbox.next, headers_eq_some hframe hsupported, Option.getD_some, Mailbox.receive,
    hnames, hbodies]

theorem Puts.quiet {packet : Packet} {hs : List Header} (h : Puts packet [] [] hs) :
    Quiet (.packet packet) := by
  obtain ⟨hframe, hsupported, hnames, hbodies⟩ := h
  intro hs' heq
  rw [headers_eq_some hframe hsupported, Option.some_inj] at heq
  exact heq ▸ ⟨hnames, hbodies⟩

/-! ## Where the credentials are found -/

/-- A run that goes on after an iteration has not found anything before it. -/
theorem found_append_iff {history rest : List Event} {d : Device}
    {c : List UInt8 × List UInt8}
    (hrun : run Device.step waiting (history ++ rest) = some d) (hpolled : .iteration ∈ rest) :
    Found (history ++ rest) c ↔ OnTime history rest c := by
  constructor
  · rintro ⟨pre, post, heq, hc⟩
    rcases List.append_eq_append_iff.mp heq with ⟨more, rfl, hrest⟩ | ⟨more, hhistory, hpost⟩
    · exact ⟨more, post, hrest, hc⟩
    · cases more with
      | nil =>
          rw [List.append_nil] at hhistory
          rw [List.nil_append] at hpost
          exact ⟨[], post, hpost.symm, by rwa [List.append_nil, hhistory]⟩
      | cons e more =>
          -- the iteration that accepted is not the last one
          exfalso
          obtain ⟨rfl, hmore⟩ := List.cons.inj hpost
          obtain ⟨b, hb, -⟩ := shows_run hrun
          rw [heq, ← List.singleton_append, ← List.append_assoc] at hb
          obtain ⟨mid, hmid, hlater⟩ := run_append_eq_some hb
          have hfound : mid.credentials = some c :=
            ((credentials_eq_some_iff hmid).2 c).mpr ⟨pre, [], rfl, hc⟩
          refine iteration_notMem (by simp [hfound]) hlater ?_
          rw [hmore]
          exact List.mem_append_right _ hpolled
  · rintro ⟨pre, post, rfl, hc⟩
    exact ⟨history ++ pre, post, (List.append_assoc ..).symm, hc⟩

/-! ## When nobody else sends a file -/

theorem next_of_quiet {packet : Packet} (h : Quiet (.packet packet)) (m : Mailbox) :
    m.next (.packet packet) = m := by
  show m.receive ((headersOf packet).getD []) = m
  cases hheaders : headersOf packet with
  | none => rfl
  | some hs =>
      obtain ⟨hnames, hbodies⟩ := h hs hheaders
      rw [Option.getD_some, Mailbox.receive, hnames, hbodies]
      rfl

theorem foldl_next_of_notMem {events : List Event} (h : ∀ e ∈ events, Quiet e)
    (hnot : .iteration ∉ events) (m : Mailbox) : events.foldl Mailbox.next m = m := by
  induction events generalizing m with
  | nil => rfl
  | cons e rest ih =>
      obtain ⟨hhead, htail⟩ := List.forall_mem_cons.mp h
      cases e with
      | packet packet =>
          rw [List.foldl_cons, next_of_quiet hhead]
          exact ih htail (fun hmem => hnot (List.mem_cons_of_mem _ hmem)) m
      | iteration => exact absurd (List.mem_cons_self ..) hnot

/-- A look empties the mailbox, and quiet events leave it empty. -/
theorem foldl_next_of_mem {events : List Event} (h : ∀ e ∈ events, Quiet e)
    (hmem : .iteration ∈ events) (m : Mailbox) : events.foldl Mailbox.next m = {} := by
  obtain ⟨pre, post, rfl, hnot⟩ := List.eq_append_cons_of_mem hmem
  have hpost : ∀ e ∈ post, Quiet e := fun e he => h e (by simp [he])
  rw [List.foldl_append, List.foldl_cons]
  show post.foldl Mailbox.next {} = {}
  by_cases hagain : .iteration ∈ post
  · exact foldl_next_of_mem hpost hagain {}
  · exact foldl_next_of_notMem hpost hagain {}
termination_by events.length

theorem credentials_of_wifiConfig {s p : List UInt8} (hs : Credential s) (hp : Credential p) :
    Mailbox.credentials ⟨oddBytes (nameValue wifiConfigUnits), credentialsBody s p⟩ =
      some (s, p) := by
  have hname : (oddBytes (nameValue wifiConfigUnits)).takeWhile (· ≠ 0) = wifiConfig := by decide
  have hfits : (credentialsBody s p).length ≤ contentSize := by
    have hslen := hs.length_le
    have hplen := hp.length_le
    rw [credentialsBody_length, contentSize]
    omega
  have hcontent : cText contentSize (credentialsBody s p) = credentialsBody s p := by
    rw [cText, List.take_of_length_le hfits]
    exact Buffer.takeWhile_noNul (credentialsBody_noNul hs.noNul hp.noNul)
  rw [Mailbox.credentials, if_pos hname, hcontent, parseCredentials,
    sscanf_credentialsBody hs.toToken hp.toToken]
  rfl

theorem credentials_of_nil (content : List UInt8) :
    Mailbox.credentials ⟨[], content⟩ = none := by
  have hname : ¬ ([] : List UInt8).takeWhile (· ≠ 0) = wifiConfig := by decide
  rw [Mailbox.credentials, if_neg hname]

theorem onTime_iff {nameFrame bodyFrame endFrame : Packet} {s p : List UInt8}
    (htransfer : Transfer nameFrame bodyFrame endFrame s p)
    {before first rest : List Event} (hfirst : ∀ e ∈ first, Quiet e)
    (hrest : ∀ e ∈ rest, Quiet e) (hpolled : .iteration ∈ rest) :
    OnTime (before ++ .packet nameFrame :: (first ++ [.packet bodyFrame])) rest (s, p) ↔
      .iteration ∉ first := by
  obtain ⟨_, hname⟩ := htransfer.name
  obtain ⟨_, hbody⟩ := htransfer.body
  have hlatest : ∀ pre,
      latest (before ++ .packet nameFrame :: (first ++ [.packet bodyFrame]) ++ pre) =
        pre.foldl Mailbox.next ((first.foldl Mailbox.next
          ⟨oddBytes (nameValue wifiConfigUnits), (latest before).content⟩).next
            (.packet bodyFrame)) := by
    intro pre
    rw [latest_append, latest_append, List.foldl_cons, hname.next, List.foldl_append]
    rfl
  constructor
  · rintro ⟨pre, post, rfl, hc⟩ hmem
    rw [hlatest, foldl_next_of_mem hfirst hmem, hbody.next] at hc
    have hpre : ∀ e ∈ pre, Quiet e := fun e he => hrest e (by simp [he])
    by_cases hagain : .iteration ∈ pre
    · rw [foldl_next_of_mem hpre hagain, credentials_of_nil] at hc
      cases hc
    · rw [foldl_next_of_notMem hpre hagain] at hc
      rw [List.map_nil, List.getLastD_nil, credentials_of_nil] at hc
      cases hc
  · intro hnot
    obtain ⟨pre, post, rfl, hpre⟩ := List.eq_append_cons_of_mem hpolled
    refine ⟨pre, post, rfl, ?_⟩
    rw [hlatest, foldl_next_of_notMem hfirst hnot, hbody.next,
      foldl_next_of_notMem (fun e he => hrest e (by simp [he])) hpre]
    exact credentials_of_wifiConfig htransfer.ssid htransfer.pass

/-! ## The result -/

/-- **Which interleavings keep the credentials.**  The three frames may have any
events before, between and after them, as long as the loop looks again. -/
theorem credentials_kept_iff {nameFrame bodyFrame endFrame : Packet} {s p : List UInt8}
    (htransfer : Transfer nameFrame bodyFrame endFrame s p)
    {before first second third : List Event} {d : Device}
    (hrun : run Device.step waiting (before ++ .packet nameFrame :: (first ++ [.packet bodyFrame]) ++
      (second ++ .packet endFrame :: third)) = some d)
    (hpolled : .iteration ∈ third) :
    (Provisioned d s p ↔
      OnTime (before ++ .packet nameFrame :: (first ++ [.packet bodyFrame]))
        (second ++ .packet endFrame :: third) (s, p)) ∧
    ((∀ e ∈ first ++ second ++ third, Quiet e) →
      (Provisioned d s p ↔ .iteration ∉ first)) := by
  have hpolled' : .iteration ∈ second ++ .packet endFrame :: third := by simp [hpolled]
  have hkept : Provisioned d s p ↔
      OnTime (before ++ .packet nameFrame :: (first ++ [.packet bodyFrame]))
        (second ++ .packet endFrame :: third) (s, p) :=
    (provisioned_iff htransfer.ssid.noNul htransfer.pass.noNul hrun).trans
      (found_append_iff hrun hpolled')
  refine ⟨hkept, fun hquiet => hkept.trans ?_⟩
  obtain ⟨_, hend, -⟩ := htransfer.endOfBody
  refine onTime_iff htransfer (fun e he => hquiet e (by simp [he])) ?_ hpolled'
  intro e he
  rcases List.mem_append.mp he with he | he
  · exact hquiet e (by simp [he])
  · rcases List.mem_cons.mp he with rfl | he
    · exact hend.quiet
    · exact hquiet e (by simp [he])

/-- The Name of a `wifi.config` file. -/
def nameFrame : Packet := putPacket [.name (nameValue wifiConfigUnits)]

/-- Its contents. -/
def bodyFrame : Packet := putPacket [.body (credentialsBody (ascii "net") (ascii "key"))]

/-- Its end. -/
def endFrame : Packet := putPacket [.endOfBody []]

theorem transfer_frames : Transfer nameFrame bodyFrame endFrame (ascii "net") (ascii "key") where
  ssid := by decide
  pass := by decide
  name := ⟨_, putFrame_putPacket (by decide), by simp [Header.Supported], rfl, rfl⟩
  body := ⟨_, putFrame_putPacket (by decide), by simp [Header.Supported], rfl, rfl⟩
  endOfBody :=
    ⟨_, ⟨putFrame_putPacket (by decide), by simp [Header.Supported], rfl, rfl⟩, by simp⟩

/-- The three frames, with a look before the first and after the last. -/
theorem credentials_kept_of_frames :
    ∃ d, run Device.step waiting ([.iteration] ++ .packet nameFrame :: ([] ++ [.packet bodyFrame]) ++
        ([] ++ .packet endFrame :: [.iteration])) = some d ∧
      Provisioned d (ascii "net") (ascii "key") := by
  have hsome : (run Device.step waiting ([.iteration] ++ .packet nameFrame ::
      ([] ++ [.packet bodyFrame]) ++ ([] ++ .packet endFrame :: [.iteration]))).isSome = true := by
    decide
  obtain ⟨d, hd⟩ := Option.isSome_iff_exists.mp hsome
  refine ⟨d, hd, ((credentials_kept_iff transfer_frames hd (by simp)).2 ?_).mpr (by simp)⟩
  simp [Quiet]

set_option maxRecDepth 4000 in
/-- A look between the Name and the Body: the file arrives in order, the loop
looks once more after its last frame, and there are no credentials. -/
theorem credentials_lost :
    Transfer nameFrame bodyFrame endFrame (ascii "net") (ascii "key") ∧
      (run Device.step waiting [.packet nameFrame, .iteration, .packet bodyFrame,
        .packet endFrame, .iteration]).map Device.credentialsRecived = some false :=
  ⟨transfer_frames, by decide⟩

end HydroponicCloset.Provisioning
