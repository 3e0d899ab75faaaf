import HydroponicCloset.Lib.Lists
import HydroponicCloset.Provisioning.RoundTrip

/-!
# What the waiting loop is for

Seen from outside, the two buffers hold the latest name and the latest contents
received since the loop last looked, and the loop waits for a look that finds
`wifi.config` with credentials in it.  `Mailbox` and `Inbox` say just that, with
no bytes beyond the strings themselves.

* `shows_run`: the device follows the inbox step by step, so every run of the
  device is a run of the inbox (`Shows` is the relation between the two);
* `credentials_eq_some_iff`: the inbox has credentials when some iteration of
  the run found them in the mailbox of the events before it;
* `provisioned_iff`: the same of the device.
-/

namespace HydroponicCloset.Provisioning

open CMemory Scanf Runs Bluetooth Obex App

/-! ## Mailboxes -/

/-- The latest name and contents received since the last iteration. -/
structure Mailbox where
  name : List UInt8 := []
  content : List UInt8 := []

/-- What is left of a string in the `size` bytes of an array. -/
def cText (size : ℕ) (s : List UInt8) : List UInt8 := (s.take size).takeWhile (· ≠ 0)

/-- The credentials that `sscanf` finds in a string. -/
def parseCredentials (content : List UInt8) : Option (List UInt8 × List UInt8) :=
  match sscanfCredentials content with
  | (2, [s, p]) => some (s, p)
  | _ => none

namespace Mailbox

/-- The last Name and the last Body among the headers replace what was there. -/
def receive (m : Mailbox) (hs : List Header) : Mailbox :=
  { name := ((hs.filterMap Header.name?).map oddBytes).getLastD m.name
    content := (hs.filterMap Header.body?).getLastD m.content }

/-- A packet leaves its headers, and an iteration clears both files. -/
def next (m : Mailbox) : Event → Mailbox
  | .packet packet => m.receive ((headersOf packet).getD [])
  | .iteration => {}

/-- What an iteration would accept. -/
def credentials (m : Mailbox) : Option (List UInt8 × List UInt8) :=
  if m.name.takeWhile (· ≠ 0) = wifiConfig then parseCredentials (cText contentSize m.content)
  else none

end Mailbox

/-- The mailbox after some events. -/
def latest (events : List Event) : Mailbox := events.foldl Mailbox.next {}

theorem latest_append (first second : List Event) :
    latest (first ++ second) = second.foldl Mailbox.next (latest first) :=
  List.foldl_append

/-! ## The inbox -/

/-- The mailbox, and the credentials once they are accepted. -/
structure Inbox where
  mailbox : Mailbox := {}
  credentials : Option (List UInt8 × List UInt8) := none

/-- One step: the loop looks only while there are no credentials. -/
def Inbox.step (b : Inbox) : Event → Option Inbox
  | .packet packet =>
      (headersOf packet).map fun _ => { b with mailbox := b.mailbox.next (.packet packet) }
  | .iteration =>
      if b.credentials = none then some ⟨b.mailbox.next .iteration, b.mailbox.credentials⟩ else none

/-- Some iteration found the credentials `c` in its mailbox. -/
def Found (events : List Event) (c : List UInt8 × List UInt8) : Prop :=
  ∃ pre post, events = pre ++ .iteration :: post ∧ (latest pre).credentials = some c

theorem found_concat {events : List Event} {e : Event} {c : List UInt8 × List UInt8} :
    Found (events ++ [e]) c ↔
      Found events c ∨ e = .iteration ∧ (latest events).credentials = some c :=
  Lists.exists_split_concat

/-- **Where the credentials of an inbox come from.** -/
theorem credentials_eq_some_iff {events : List Event} {b : Inbox}
    (hrun : run Inbox.step {} events = some b) :
    b.mailbox = latest events ∧ ∀ c, b.credentials = some c ↔ Found events c := by
  refine run_history (fun events b => b.mailbox = latest events ∧
    ∀ c, b.credentials = some c ↔ Found events c) ⟨rfl, ?_⟩ ?_ hrun
  · intro c
    simp [Found]
  · rintro events b e b' ⟨hmailbox, hfound⟩ hstep
    simp only [found_concat, latest_append, List.foldl_cons, List.foldl_nil, ← hmailbox]
    cases e with
    | packet packet =>
        obtain ⟨hs, -, rfl⟩ := Option.map_eq_some_iff.mp hstep
        simpa using hfound
    | iteration =>
        by_cases hnone : b.credentials = none
        · obtain rfl : ⟨_, _⟩ = b' := by simpa [Inbox.step, hnone] using hstep
          have hempty : ∀ c, ¬ Found events c := by
            intro c hc
            simpa [hnone] using (hfound c).mpr hc
          simp [hempty]
        · simp [Inbox.step, hnone] at hstep

/-- Once there are credentials, no iteration runs. -/
theorem iteration_notMem {events : List Event} {b b' : Inbox} (hsome : b.credentials ≠ none)
    (hrun : run Inbox.step b events = some b') : .iteration ∉ events := by
  induction events generalizing b with
  | nil => simp
  | cons e rest ih =>
      obtain ⟨mid, hmid, hrest⟩ := run_cons_eq_some hrun
      cases e with
      | packet packet =>
          obtain ⟨hs, -, rfl⟩ := Option.map_eq_some_iff.mp hmid
          have hrest' := ih (b := ⟨b.mailbox.next (.packet packet), b.credentials⟩) hsome hrest
          simpa using hrest'
      | iteration => simp [Inbox.step, hsome] at hmid

/-! ## The device is an inbox -/

/-- The device holds the mailbox in its buffers, and what was found in `ssid` and
`pass`. -/
structure Shows (d : Device) (b : Inbox) : Prop where
  name : d.globals.buffer1.Holds b.mailbox.name
  content : d.globals.buffer2.Holds b.mailbox.content
  salir : d.salir = b.credentials.isNone
  recived : d.credentialsRecived = b.credentials.isSome
  stored : ∀ s p, b.credentials = some (s, p) → d.ssid.Holds s ∧ d.pass.Holds p

theorem cString_eq_cText {b : Buffer} {s : List UInt8} (h : b.Holds s) (size : ℕ) :
    b.cString size = cText size s := by
  rcases Nat.lt_or_ge s.length size with hlt | hge
  · rw [h.cString_eq hlt, cText, List.take_of_length_le hlt.le]
  · have htake : slice b.bytes 0 size = s.take size := by
      have hsplit := slice_add b.bytes 0 size (s.length + 1 - size)
      rw [Nat.add_sub_of_le (by omega), h] at hsplit
      have hsofar := congrArg (List.take size) hsplit
      rw [List.take_append_of_le_length hge, List.take_left' (by simp)] at hsofar
      exact hsofar.symm
    rw [Buffer.cString, htake, cText]

theorem noNul_of_parseCredentials {content s p : List UInt8} {size : ℕ}
    (h : parseCredentials (cText size content) = some (s, p)) : 0 ∉ s ∧ 0 ∉ p := by
  have hnul : (0 : UInt8) ∉ cText size content := by
    intro hmem
    have hfalse := List.mem_takeWhile_imp hmem
    simp at hfalse
  have hresult : Result [] (cText size content) (sscanfCredentials (cText size content)) :=
    scanf_stored
  obtain ⟨new, hnew, hsub⟩ := hresult.stored
  rw [List.nil_append] at hnew
  unfold parseCredentials at h
  split at h
  · rename_i s' p' heq
    obtain ⟨rfl, rfl⟩ : s' = s ∧ p' = p := by simpa using h
    have hstored : new = [s', p'] := by rw [← hnew, heq]
    subst hstored
    exact ⟨fun hmem => hnul (hsub s' (by simp) hmem), fun hmem => hnul (hsub p' (by simp) hmem)⟩
  · simp at h

/-- A return value of two comes with two strings. -/
theorem sscanfCredentials_eq_two {content : List UInt8} (h : (sscanfCredentials content).1 = 2) :
    ∃ s p, sscanfCredentials content = (2, [s, p]) := by
  have hresult : Result [] content (sscanfCredentials content) := scanf_stored
  have hcount := hresult.count
  rw [h] at hcount
  have hlen : (sscanfCredentials content).2.length = 2 := by omega
  match hstored : (sscanfCredentials content).2, hlen with
  | [s, p], _ => exact ⟨s, p, Prod.ext h hstored⟩

/-- **One iteration** accepts what the mailbox offers, and empties it. -/
theorem shows_loopIteration {d : Device} {b : Inbox} (h : Shows d b)
    (hnone : b.credentials = none) :
    Shows (loopIteration d) ⟨{}, b.mailbox.credentials⟩ := by
  have hname : d.globals.buffer1.Holds wifiConfig ↔
      b.mailbox.name.takeWhile (· ≠ 0) = wifiConfig := h.name.holds_iff (by decide)
  have hcontent := cString_eq_cText h.content contentSize
  have hempty : ∀ buffer : Buffer, (buffer.set 0 0).Holds [] := fun buffer =>
    buffer.holds_putString []
  have hsalir : d.salir = true := by rw [h.salir, hnone]; rfl
  have hrecived : d.credentialsRecived = false := by rw [h.recived, hnone]; rfl
  by_cases hreads : b.mailbox.name.takeWhile (· ≠ 0) = wifiConfig
  · by_cases htwo : (sscanfCredentials (cText contentSize b.mailbox.content)).1 = 2
    · obtain ⟨s, p, hsp⟩ := sscanfCredentials_eq_two htwo
      have hfound : b.mailbox.credentials = some (s, p) := by
        rw [Mailbox.credentials, if_pos hreads, parseCredentials, hsp]
        rfl
      have htry : tryCredentials d =
          { d with ssid := d.ssid.putString s, pass := d.pass.putString p,
                   credentialsRecived := true, salir := false } := by
        simp [tryCredentials, hname.mpr hreads, hcontent, hsp, storeToken]
      refine ⟨hempty _, hempty _, ?_, ?_, ?_⟩ <;> simp only [loopIteration, htry, hfound]
      · rfl
      · rfl
      · rintro s' p' heq
        obtain ⟨rfl, rfl⟩ : s = s' ∧ p = p' := by simpa using heq
        exact ⟨Buffer.holds_putString _ _, Buffer.holds_putString _ _⟩
    · have hfound : b.mailbox.credentials = none := by
        rw [Mailbox.credentials, if_pos hreads, parseCredentials]
        split
        · rename_i s p hsp
          exact absurd (by rw [hsp]) htwo
        · rfl
      refine ⟨hempty _, hempty _, ?_, ?_, ?_⟩ <;>
        simp [loopIteration, tryCredentials, hname.mpr hreads, hcontent, htwo, hfound, hsalir,
          hrecived]
  · have hfound : b.mailbox.credentials = none := by rw [Mailbox.credentials, if_neg hreads]
    have hreads' : ¬ d.globals.buffer1.Holds wifiConfig := fun hholds => hreads (hname.mp hholds)
    refine ⟨hempty _, hempty _, ?_, ?_, ?_⟩ <;>
      simp [loopIteration, tryCredentials, hreads', hfound, hsalir, hrecived]

/-- **One step of the device** is a step of the inbox. -/
theorem shows_step {d d' : Device} {b : Inbox} {e : Event} (h : Shows d b)
    (hstep : d.step e = some d') : ∃ b', b.step e = some b' ∧ Shows d' b' := by
  cases e with
  | packet packet =>
      obtain ⟨g, hg, rfl⟩ := Option.map_eq_some_iff.mp hstep
      rw [obexFtp_next] at hg
      obtain ⟨hs, hhs, rfl⟩ := Option.map_eq_some_iff.mp hg
      refine ⟨{ b with mailbox := b.mailbox.receive hs }, ?_, ?_, ?_, h.salir, h.recived, h.stored⟩
      · simp [Inbox.step, Mailbox.next, hhs]
      · show (hs.foldl Header.store d.globals).buffer1.Holds _
        rw [foldl_store_buffer1, ← List.foldl_map]
        exact h.name.foldl_putString _
      · show (hs.foldl Header.store d.globals).buffer2.Holds _
        rw [foldl_store_buffer2]
        exact h.content.foldl_putString _
  | iteration =>
      by_cases hnone : b.credentials = none
      · have hsalir : d.salir = true := by rw [h.salir, hnone]; rfl
        obtain rfl : loopIteration d = d' := by simpa [Device.step, hsalir] using hstep
        exact ⟨⟨{}, b.mailbox.credentials⟩, by simp [Inbox.step, hnone, Mailbox.next],
          shows_loopIteration h hnone⟩
      · have hsalir : d.salir = false := by
          rw [h.salir, Option.isNone_eq_false_iff]
          exact Option.isSome_iff_ne_none.mpr hnone
        simp [Device.step, hsalir] at hstep

/-- **Every run of the device** is a run of the inbox. -/
theorem shows_run {events : List Event} {d : Device}
    (hrun : run Device.step waiting events = some d) :
    ∃ b, run Inbox.step {} events = some b ∧ Shows d b := by
  have hstep : ∀ d b e d', Shows d b → Device.step d e = some d' →
      ∃ b', Inbox.step b e = some b' ∧ Shows d' b' := fun _ _ _ _ h hstep => shows_step h hstep
  refine run_simulation Shows hstep ?_ hrun
  refine ⟨?_, ?_, rfl, rfl, ?_⟩
  · exact (by decide : zeroed.Holds [])
  · exact (by decide : zeroed.Holds [])
  · rintro s p hsp
    cases hsp

/-- A device that shows an inbox is provisioned with what the inbox found. -/
theorem Shows.provisioned_iff_found {events : List Event} {d : Device} {b : Inbox}
    {s p : List UInt8} (hshows : Shows d b) (hs : 0 ∉ s) (hp : 0 ∉ p)
    (hb : run Inbox.step {} events = some b) : Provisioned d s p ↔ Found events (s, p) := by
  obtain ⟨-, hfound⟩ := credentials_eq_some_iff hb
  constructor
  · rintro ⟨hrecived, hssid, hpass⟩
    rw [hshows.recived, Option.isSome_iff_exists] at hrecived
    obtain ⟨⟨s', p'⟩, hc⟩ := hrecived
    obtain ⟨hssid', hpass'⟩ := hshows.stored s' p' hc
    have hfound' := (hfound _).mp hc
    obtain ⟨pre, -, -, hcred⟩ := hfound'
    rw [Mailbox.credentials] at hcred
    split at hcred
    · obtain ⟨hs', hp'⟩ := noNul_of_parseCredentials hcred
      have hseq : s' = s := by
        calc s' = s'.takeWhile (· ≠ 0) := (Buffer.takeWhile_noNul hs').symm
          _ = s := (hssid'.holds_iff hs).mp hssid
      have hpeq : p' = p := by
        calc p' = p'.takeWhile (· ≠ 0) := (Buffer.takeWhile_noNul hp').symm
          _ = p := (hpass'.holds_iff hp).mp hpass
      rw [← hseq, ← hpeq]
      exact (hfound _).mp hc
    · simp at hcred
  · intro h
    have hc := (hfound (s, p)).mpr h
    obtain ⟨hssid, hpass⟩ := hshows.stored s p hc
    exact ⟨by rw [hshows.recived, hc]; rfl, hssid, hpass⟩

/-- **When the device is provisioned.** -/
theorem provisioned_iff {events : List Event} {d : Device} {s p : List UInt8} (hs : 0 ∉ s)
    (hp : 0 ∉ p) (hrun : run Device.step waiting events = some d) :
    Provisioned d s p ↔ Found events (s, p) := by
  obtain ⟨b, hb, hshows⟩ := shows_run hrun
  exact hshows.provisioned_iff_found hs hp hb

end HydroponicCloset.Provisioning
