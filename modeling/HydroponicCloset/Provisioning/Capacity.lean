import HydroponicCloset.Provisioning.Sources

/-!
# Room for the credentials

What `sscanf` stores goes to `ssid` and `pass`, of 70 bytes each, and from there to the
configuration of the station, which has 32 bytes for the one and 64 for the other.  The
conversions of the format have no width, and `strcpy` knows no limit either, so everything
depends on the content.  `SpellsName` is the part of the format up to its first conversion:
its string is stored even if the content is then rejected.

The buffers count as unwritten at first, so that `top` is one past the highest index written.
-/

namespace HydroponicCloset.Provisioning

open CMemory Scanf Bluetooth App

/-- `sizeof(ssid)` and `sizeof(pass)` -/
def credentialSize : ℕ := 70

/-- The fields of `wifi_config_t` that `wifi_init_sta` fills in. -/
structure StationConfig where
  ssid : Buffer
  password : Buffer

/-- `strcpy`, from an array of `size` bytes. -/
def strcpy (dst src : Buffer) (size : ℕ) : Buffer := dst.putString (src.cString size)

/-- `wifi_config` in `wifi_init_sta(ssid, pass)` -/
def stationConfig (ssid pass : Buffer) : StationConfig where
  ssid := strcpy zeroed ssid credentialSize
  password := strcpy zeroed pass credentialSize

/-- The strings are stored, and copied if they are accepted, within their arrays. -/
structure Fits (d : Device) : Prop where
  ssid : d.ssid.top ≤ credentialSize
  pass : d.pass.top ≤ credentialSize
  station : d.credentialsRecived = true →
    (stationConfig d.ssid d.pass).ssid.top ≤ 32 ∧ (stationConfig d.ssid d.pass).password.top ≤ 64

/-! ## The strings that are stored -/

/-- `SSID:` and a name, with or without white space between them. -/
def SpellsName (c s : List UInt8) : Prop :=
  ∃ w rest, c = ascii "SSID:" ++ (w ++ (s ++ rest)) ∧ Spaces w ∧ Token s ∧ Begins true rest

/-- `"SSID: %s"` -/
def nameFormat : List Directive := chars (ascii "SSID:") ++ [.space, .str]

theorem scans_name_iff {c : List UInt8} {tokens : List (List UInt8)} :
    Scans nameFormat c tokens ↔ ∃ s, tokens = [s] ∧ SpellsName c s := by
  constructor
  · intro h
    obtain ⟨input, rfl, hname⟩ := scans_chars.mp h
    obtain ⟨w, s, rest, _, rfl, rfl, hw, hs, hrest, hdone⟩ := scans_space_str.mp hname
    cases hdone with
    | done => exact ⟨s, rfl, w, rest, rfl, hw, hs, hrest⟩
  · rintro ⟨s, rfl, w, rest, rfl, hw, hs, hrest⟩
    have hname : Scans [.space, .str] (w ++ (s ++ rest)) [s] :=
      scans_space_str.mpr ⟨w, s, rest, [], rfl, rfl, hw, hs, hrest, .done rest⟩
    exact scans_chars.mpr ⟨_, rfl, hname⟩

theorem sscanf_ssid_iff {c s : List UInt8} :
    (sscanfCredentials c).2[0]? = some s ↔ SpellsName c s := by
  have hformat : credentialsFormat =
      nameFormat ++ (.space :: (chars (ascii "PASS:") ++ [.space, .str])) := by
    simp [credentialsFormat, nameFormat]
  have hends : EndsInStr nameFormat := rfl
  rw [sscanfCredentials, hformat, scanf_getElem?_iff hends rfl]
  simp only [scans_name_iff]
  constructor
  · rintro ⟨_, ⟨s', rfl, hspells⟩, hs⟩
    obtain rfl : s' = s := Option.some.inj hs
    exact hspells
  · intro hspells
    exact ⟨[s], ⟨s, rfl, hspells⟩, rfl⟩

theorem sscanf_pass_iff {c p : List UInt8} :
    (sscanfCredentials c).2[1]? = some p ↔ ∃ s, SpellsCredentials c s p := by
  have hends : EndsInStr credentialsFormat := rfl
  have hstored : (scanf [] (credentialsFormat ++ []) c).2[1]? = some p ↔ _ :=
    scanf_getElem?_iff hends rfl
  rw [List.append_nil] at hstored
  rw [sscanfCredentials, hstored]
  simp only [scans_credentials_iff]
  constructor
  · rintro ⟨_, ⟨s, p', rfl, hspells⟩, hp⟩
    obtain rfl : p' = p := Option.some.inj hp
    exact ⟨s, hspells⟩
  · rintro ⟨s, hspells⟩
    exact ⟨[s, p], ⟨s, p, rfl, hspells⟩, rfl⟩

theorem SpellsCredentials.name {c s p : List UInt8} (h : SpellsCredentials c s p) :
    SpellsName c s := by
  rw [← sscanf_ssid_iff, h.sscanf]
  rfl

/-- The strings are cut from the content. -/
theorem SpellsCredentials.noNul {c s p : List UInt8} (h : SpellsCredentials c s p)
    (hnul : 0 ∉ c) : 0 ∉ s ∧ 0 ∉ p := by
  obtain ⟨w₁, w₂, w₃, rest, rfl, -⟩ := h
  simp only [List.mem_append, not_or] at hnul
  exact ⟨hnul.2.2.1, hnul.2.2.2.2.2.2.1⟩

/-! ## Room in the arrays -/

theorem storeToken_top_le {b : Buffer} (hb : b.top = 0) (token : Option (List UInt8)) (n : ℕ) :
    (storeToken b token).top ≤ n ↔ ∀ s, token = some s → s.length < n := by
  cases token with
  | none => simp [storeToken, hb]
  | some s =>
      rw [storeToken, Option.elim_some, Buffer.putString_top, hb, Nat.zero_max]
      exact ⟨fun h _ hs => Option.some.inj hs ▸ h, fun h => h s rfl⟩

/-- A string that is stored within its array is what `strcpy` copies. -/
theorem strcpy_top {b : Buffer} {s : List UInt8} (h : b.Holds s) (hnul : 0 ∉ s)
    (hfits : s.length < credentialSize) :
    (strcpy zeroed b credentialSize).top = s.length + 1 := by
  rw [strcpy, h.cString_eq_self hnul hfits, Buffer.putString_top]
  exact Nat.zero_max _

/-- What the station's configuration takes of credentials that are within their arrays. -/
theorem SpellsCredentials.stationConfig_top {c s p : List UInt8} (h : SpellsCredentials c s p)
    (hnul : 0 ∉ c) (hs : s.length < credentialSize) (hp : p.length < credentialSize)
    (ssid pass : Buffer) :
    (stationConfig (storeToken ssid (sscanfCredentials c).2[0]?)
        (storeToken pass (sscanfCredentials c).2[1]?)).ssid.top = s.length + 1 ∧
      (stationConfig (storeToken ssid (sscanfCredentials c).2[0]?)
        (storeToken pass (sscanfCredentials c).2[1]?)).password.top = p.length + 1 := by
  obtain ⟨hsNul, hpNul⟩ := h.noNul hnul
  rw [h.sscanf]
  exact ⟨strcpy_top (ssid.holds_putString s) hsNul hs, strcpy_top (pass.holds_putString p) hpNul hp⟩

/-- **The credentials fit everywhere** if and only if the content spells no name of more
than 69 bytes, and no credentials of more than 31 and 63 bytes. -/
theorem fits_iff {c : List UInt8} (hnul : 0 ∉ c) (hlen : c.length < 1024) {d : Device}
    (hname : d.globals.buffer1.Holds wifiConfig) (hcontent : d.globals.buffer2.Holds c)
    (hfresh : d.credentialsRecived = false) (hssid : d.ssid.top = 0) (hpass : d.pass.top = 0) :
    Fits (loopIteration d) ↔
      (∀ s, SpellsName c s → s.length ≤ 69) ∧
        ∀ s p, SpellsCredentials c s p → s.length ≤ 31 ∧ p.length ≤ 63 := by
  obtain ⟨hssid', hpass', -⟩ := loopIteration_scanned hnul hlen hname hcontent
  have hssidFits : (loopIteration d).ssid.top ≤ credentialSize ↔
      ∀ s, SpellsName c s → s.length < credentialSize := by
    rw [hssid', storeToken_top_le hssid]
    simp only [sscanf_ssid_iff]
  have hpassFits : (loopIteration d).pass.top ≤ credentialSize ↔
      ∀ p, (∃ s, SpellsCredentials c s p) → p.length < credentialSize := by
    rw [hpass', storeToken_top_le hpass]
    simp only [sscanf_pass_iff]
  have haccepted := loopIteration_recived hnul hlen hfresh hname hcontent
  rw [credentialsText_iff] at haccepted
  have hstation : ∀ {s p}, SpellsCredentials c s p → s.length < credentialSize →
      p.length < credentialSize →
      (stationConfig (loopIteration d).ssid (loopIteration d).pass).ssid.top = s.length + 1 ∧
        (stationConfig (loopIteration d).ssid (loopIteration d).pass).password.top =
          p.length + 1 := by
    intro s p hspells hs hp
    rw [hssid', hpass']
    exact hspells.stationConfig_top hnul hs hp d.ssid d.pass
  unfold credentialSize at hssidFits hpassFits hstation
  constructor
  · intro hfits
    have hs := hssidFits.mp hfits.ssid
    have hp := hpassFits.mp hfits.pass
    refine ⟨fun s hspells => Nat.le_of_lt_succ (hs s hspells), fun s p hspells => ?_⟩
    obtain ⟨hsTop, hpTop⟩ := hstation hspells (hs s hspells.name) (hp p ⟨s, hspells⟩)
    obtain ⟨hsFits, hpFits⟩ := hfits.station (haccepted.mpr ⟨s, p, hspells⟩)
    omega
  · rintro ⟨hnames, hcredentials⟩
    refine ⟨hssidFits.mpr fun s hspells => ?_, hpassFits.mpr fun p hspells => ?_,
      fun hrecived => ?_⟩
    · exact Nat.lt_succ_of_le (hnames s hspells)
    · obtain ⟨s, hspells⟩ := hspells
      have hp := (hcredentials s p hspells).2
      omega
    · obtain ⟨s, p, hspells⟩ := haccepted.mp hrecived
      obtain ⟨hs, hp⟩ := hcredentials s p hspells
      obtain ⟨hsTop, hpTop⟩ := hstation hspells (by omega) (by omega)
      omega

theorem fits_short :
    Fits (loopIteration (fileReceived (ascii "SSID: a PASS: b"))) ↔
      (∀ s, SpellsName (ascii "SSID: a PASS: b") s → s.length ≤ 69) ∧
        ∀ s p, SpellsCredentials (ascii "SSID: a PASS: b") s p → s.length ≤ 31 ∧ p.length ≤ 63 :=
  fits_iff (by decide) (by decide) (Buffer.holds_putString _ _) (Buffer.holds_putString _ _) rfl
    rfl rfl

/-- A name of 32 bytes, as a network may have. -/
def longName : List UInt8 := List.replicate 32 0x61

/-- It is accepted, and its NUL is copied behind the array of the station's configuration. -/
theorem not_fits_longName :
    (loopIteration (fileReceived (credentialsBody longName (ascii "b")))).credentialsRecived =
        true ∧
      ¬ Fits (loopIteration (fileReceived (credentialsBody longName (ascii "b")))) := by
  have hlong : Credential longName := by decide
  have hshort : Credential (ascii "b") := by decide
  have hcontent : (fileReceived (credentialsBody longName (ascii "b"))).globals.buffer2.Holds
      (credentialsBody longName (ascii "b")) := Buffer.holds_putString _ _
  obtain ⟨hprovisioned, -⟩ := loopIteration_accepts hlong hshort (Buffer.holds_putString _ _)
    hcontent
  refine ⟨hprovisioned.recived, fun hfits => ?_⟩
  have hssid := (hfits.station hprovisioned.recived).1
  have htop := strcpy_top hprovisioned.ssid hlong.noNul (by decide)
  exact absurd (htop.symm.trans_le hssid) (by decide)

end HydroponicCloset.Provisioning
