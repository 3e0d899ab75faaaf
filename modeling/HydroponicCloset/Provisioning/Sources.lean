import HydroponicCloset.App.StoredFile
import HydroponicCloset.Provisioning.RoundTrip

/-!
# The two sources of credentials

`app_main` takes credentials from a stored file or over Bluetooth, and scans both with
the same format.  `CredentialsText` is the language of that format.  The waiting loop
accepts exactly these contents (`loopIteration_recived`), the other path accepts none,
so they agree exactly on the contents outside the language (`sources_agree_iff`).
-/

namespace HydroponicCloset.Provisioning

open CMemory Scanf Bluetooth App

/-- `SSID:` and a name, white space, `PASS:` and a password, and anything that does not
lengthen the password.  The white space before the name and before the password is
optional. -/
def CredentialsText (c : List UInt8) : Prop :=
  ∃ w₁ s w₂ w₃ p rest,
    c = ascii "SSID:" ++ (w₁ ++ (s ++ (w₂ ++ (ascii "PASS:" ++ (w₃ ++ (p ++ rest)))))) ∧
      Spaces w₁ ∧ Token s ∧ Spaces w₂ ∧ w₂ ≠ [] ∧ Spaces w₃ ∧ Token p ∧ Begins true rest

/-- A text of this form with this name and this password. -/
def SpellsCredentials (c s p : List UInt8) : Prop :=
  ∃ w₁ w₂ w₃ rest,
    c = ascii "SSID:" ++ (w₁ ++ (s ++ (w₂ ++ (ascii "PASS:" ++ (w₃ ++ (p ++ rest)))))) ∧
      Spaces w₁ ∧ Token s ∧ Spaces w₂ ∧ w₂ ≠ [] ∧ Spaces w₃ ∧ Token p ∧ Begins true rest

theorem credentialsText_iff {c : List UInt8} :
    CredentialsText c ↔ ∃ s p, SpellsCredentials c s p := by
  constructor
  · rintro ⟨w₁, s, w₂, w₃, p, rest, h⟩
    exact ⟨s, p, w₁, w₂, w₃, rest, h⟩
  · rintro ⟨s, p, w₁, w₂, w₃, rest, h⟩
    exact ⟨w₁, s, w₂, w₃, p, rest, h⟩

theorem scans_credentials_iff {c : List UInt8} {tokens : List (List UInt8)} :
    Scans credentialsFormat c tokens ↔ ∃ s p, tokens = [s, p] ∧ SpellsCredentials c s p := by
  have hformat : credentialsFormat = chars (ascii "SSID:") ++ (.space :: .str :: .space ::
      (chars (ascii "PASS:") ++ [.space, .str])) := by
    simp [credentialsFormat]
  rw [hformat]
  constructor
  · intro h
    obtain ⟨input, rfl, hname⟩ := scans_chars.mp h
    obtain ⟨w₁, s, rest₁, tokens', rfl, rfl, hw₁, hs, hrest₁, hgap⟩ := scans_space_str.mp hname
    cases hgap with
    | @space w₂ input' _ _ hw₂ _ hword =>
        obtain ⟨input, rfl, hpass⟩ := scans_chars.mp hword
        obtain ⟨w₃, p, rest, _, rfl, rfl, hw₃, hp, hrest, hdone⟩ := scans_space_str.mp hpass
        cases hdone with
        | done =>
            refine ⟨s, p, rfl, w₁, w₂, w₃, rest, rfl, hw₁, hs, hw₂, ?_, hw₃, hp, hrest⟩
            -- otherwise the name would go on with `PASS:`
            rintro rfl
            have hspace := hrest₁ 0x50 _ rfl
            exact absurd hspace (by decide)
  · rintro ⟨s, p, rfl, w₁, w₂, w₃, rest, rfl, hw₁, hs, hw₂, hne, hw₃, hp, hrest⟩
    have hafter : Begins true (w₂ ++ (ascii "PASS:" ++ (w₃ ++ (p ++ rest)))) := by
      cases w₂ with
      | nil => exact absurd rfl hne
      | cons b tail =>
          rintro b' tail' heq
          obtain rfl : b = b' := (List.cons.inj heq).1
          exact hw₂ b (List.mem_cons_self ..)
    have hword : Token (ascii "PASS:") := by decide
    have hlast : Scans [.space, .str] (w₃ ++ (p ++ rest)) [p] :=
      scans_space_str.mpr ⟨w₃, p, rest, [], rfl, rfl, hw₃, hp, hrest, .done rest⟩
    have hpass : Scans (chars (ascii "PASS:") ++ [.space, .str])
        (ascii "PASS:" ++ (w₃ ++ (p ++ rest))) [p] := scans_chars.mpr ⟨_, rfl, hlast⟩
    have hgap := Scans.space hw₂ (hword.begins (w₃ ++ (p ++ rest))) hpass
    have hname := scans_space_str.mpr ⟨w₁, s, _, [p], rfl, rfl, hw₁, hs, hafter, hgap⟩
    exact scans_chars.mpr ⟨_, rfl, hname⟩

/-- What `sscanf` makes of such a text. -/
theorem SpellsCredentials.sscanf {c s p : List UInt8} (h : SpellsCredentials c s p) :
    sscanfCredentials c = (2, [s, p]) :=
  scanf_of_scans (scans_credentials_iff.mpr ⟨s, p, rfl, h⟩)

/-- **What the format accepts.** -/
theorem sscanfCredentials_eq_two_iff (c : List UInt8) :
    (sscanfCredentials c).1 = 2 ↔ CredentialsText c := by
  have hends : EndsInStr credentialsFormat := rfl
  have hcount : (sscanfCredentials c).1 = 2 ↔ ∃ tokens, Scans credentialsFormat c tokens :=
    scanf_count_iff hends
  rw [hcount, credentialsText_iff]
  simp only [scans_credentials_iff]
  constructor
  · rintro ⟨_, s, p, -, hspells⟩
    exact ⟨s, p, hspells⟩
  · rintro ⟨s, p, hspells⟩
    exact ⟨[s, p], s, p, rfl, hspells⟩

/-- An iteration that finds the name of the file and this content. -/
theorem loopIteration_scanned {c : List UInt8} (hnul : 0 ∉ c) (hlen : c.length < contentSize)
    {d : Device} (hname : d.globals.buffer1.Holds wifiConfig)
    (hcontent : d.globals.buffer2.Holds c) :
    (loopIteration d).ssid = storeToken d.ssid (sscanfCredentials c).2[0]? ∧
      (loopIteration d).pass = storeToken d.pass (sscanfCredentials c).2[1]? ∧
      (loopIteration d).credentialsRecived =
        (d.credentialsRecived || decide ((sscanfCredentials c).1 = 2)) := by
  have htext := hcontent.cString_eq_self hnul hlen
  simp only [loopIteration, tryCredentials, if_pos hname, htext]
  split_ifs with htwo
  · exact ⟨rfl, rfl, by simp [htwo]⟩
  · exact ⟨rfl, rfl, by simp [htwo]⟩

/-- The waiting loop accepts the contents in the language. -/
theorem loopIteration_recived {c : List UInt8} (hnul : 0 ∉ c) (hlen : c.length < contentSize)
    {d : Device} (hfresh : d.credentialsRecived = false)
    (hname : d.globals.buffer1.Holds wifiConfig) (hcontent : d.globals.buffer2.Holds c) :
    (loopIteration d).credentialsRecived = true ↔ CredentialsText c := by
  obtain ⟨-, -, hrecived⟩ := loopIteration_scanned hnul hlen hname hcontent
  rw [← sscanfCredentials_eq_two_iff, hrecived, hfresh, Bool.false_or, decide_eq_true_eq]

/-- **The two sources agree** on a content, that is both accept it with the same
credentials or neither does, if and only if it is not in the language. -/
theorem sources_agree_iff {c : List UInt8} (hnul : 0 ∉ c) (hlen : c.length < 1024)
    {stored bluetooth : Device} (hfresh : stored.credentialsRecived = false)
    (hfresh' : bluetooth.credentialsRecived = false)
    (hname : bluetooth.globals.buffer1.Holds wifiConfig)
    (hcontent : bluetooth.globals.buffer2.Holds c) :
    (((checkConfig stored (.regular c)).credentialsRecived = true ↔
          (loopIteration bluetooth).credentialsRecived = true) ∧
        ∀ s p, Provisioned (checkConfig stored (.regular c)) s p ↔
          Provisioned (loopIteration bluetooth) s p) ↔
      ¬ CredentialsText c := by
  have hstored : (checkConfig stored (.regular c)).credentialsRecived ≠ true := by
    rw [checkConfig_credentialsRecived, hfresh]
    decide
  have hbluetooth := loopIteration_recived hnul hlen hfresh' hname hcontent
  rw [← hbluetooth]
  constructor
  · rintro ⟨hboth, -⟩ haccepted
    exact hstored (hboth.mpr haccepted)
  · intro hnone
    refine ⟨iff_of_false hstored hnone, fun s p => ?_⟩
    exact iff_of_false (fun h => hstored h.recived) fun h => hnone h.recived

/-- The device with a file of this content received. -/
def fileReceived (c : List UInt8) : Device :=
  { waiting with globals := setDir (zeroed.putString wifiConfig) (zeroed.putString c) }

/-- Without a space before `PASS:` neither source accepts. -/
theorem sources_agree_unseparated :
    ((checkConfig waiting (.regular (ascii "SSID: aPASS: b"))).credentialsRecived = true ↔
        (loopIteration (fileReceived (ascii "SSID: aPASS: b"))).credentialsRecived = true) ∧
      ∀ s p, Provisioned (checkConfig waiting (.regular (ascii "SSID: aPASS: b"))) s p ↔
        Provisioned (loopIteration (fileReceived (ascii "SSID: aPASS: b"))) s p := by
  have hrejected : ¬ CredentialsText (ascii "SSID: aPASS: b") := by
    rw [← sscanfCredentials_eq_two_iff]
    decide
  exact (sources_agree_iff (by decide) (by decide) rfl rfl (Buffer.holds_putString _ _)
    (Buffer.holds_putString _ _)).mpr hrejected

/-- What is accepted over Bluetooth is rejected from the file. -/
theorem stored_rejected :
    Provisioned (loopIteration (fileReceived (credentialsBody (ascii "a") (ascii "b"))))
        (ascii "a") (ascii "b") ∧
      ¬ (checkConfig waiting (.regular (credentialsBody (ascii "a") (ascii "b")))).credentialsRecived =
        true :=
  ⟨(loopIteration_accepts (by decide) (by decide) (Buffer.holds_putString _ _)
    (Buffer.holds_putString _ _)).1, by decide⟩

end HydroponicCloset.Provisioning
