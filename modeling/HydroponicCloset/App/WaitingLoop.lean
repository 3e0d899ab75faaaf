import HydroponicCloset.Bluetooth.ObexFtp
import HydroponicCloset.Lib.Runs
import HydroponicCloset.Lib.Scanf

/-!
# The waiting loop of `app_main`

While there are no credentials, `app_main` polls the two buffers it shares with
`obex_ftp`: `fi`, which is `buffer_1`, and `content`, which is `buffer_2`.  An
iteration accepts when `fi` reads "wifi.config" and `content` scans as
credentials; it clears both buffers whatever it found.

A received packet and an iteration are the two kinds of atomic step of a
`Device`.  An iteration can only happen while the loop runs.
-/

namespace HydroponicCloset.App

open CMemory Scanf Bluetooth

/-- The code units of an ASCII string. -/
def ascii (s : String) : List UInt8 := s.toList.map fun c => UInt8.ofNat c.toNat

/-- The name that the waiting loop asks for. -/
def wifiConfig : List UInt8 := ascii "wifi.config"

/-- `"SSID: %s PASS: %s"` -/
def credentialsFormat : List Directive :=
  chars (ascii "SSID:") ++ [.space, .str, .space] ++ chars (ascii "PASS:") ++ [.space, .str]

/-- `sscanf(content, "SSID: %s PASS: %s", ssid, pass)`: the return value and the
strings stored. -/
def sscanfCredentials (content : List UInt8) : Int × List (List UInt8) :=
  scanf [] credentialsFormat content

/-- `sizeof(content)` -/
def contentSize : ℕ := 1024

/-- The variables of `app_main` that the waiting loop changes, and the globals of
the Bluetooth stack with its two buffers. -/
structure Device where
  globals : Globals
  ssid : Buffer
  pass : Buffer
  credentialsRecived : Bool
  salir : Bool

/-- The device when the waiting loop starts. -/
def waiting : Device := ⟨initial, zeroed, zeroed, false, true⟩

/-- Where `%s` stores its string, if it got to store one. -/
def storeToken (b : Buffer) (token : Option (List UInt8)) : Buffer :=
  token.elim b b.putString

/-- The test of an iteration, with what `sscanf` stores in `ssid` and `pass`. -/
def tryCredentials (d : Device) : Device :=
  if d.globals.buffer1.Holds wifiConfig then
    let scanned := sscanfCredentials (d.globals.buffer2.cString contentSize)
    let d := { d with
      ssid := storeToken d.ssid scanned.2[0]?
      pass := storeToken d.pass scanned.2[1]? }
    if scanned.1 = 2 then { d with credentialsRecived := true, salir := false } else d
  else d

/-- `*fi = *content = '\0';` -/
def clearBuffers (g : Globals) : Globals :=
  { g with buffer1 := g.buffer1.set 0 0, buffer2 := g.buffer2.set 0 0 }

/-- One iteration of `while(salir)`. -/
def loopIteration (d : Device) : Device :=
  { tryCredentials d with globals := clearBuffers d.globals }

/-- What the device does next. -/
inductive Event
  | packet (packet : Packet)
  | iteration

/-- One atomic step; `none` when `obex_ftp` does not return, and when the loop
has ended and there is no iteration to run. -/
def Device.step (d : Device) : Event → Option Device
  | .packet packet => (obexFtp d.globals packet).next.map fun g => { d with globals := g }
  | .iteration => if d.salir then some (loopIteration d) else none

/-! ## What the format accepts -/

/-- `"SSID: s PASS: p"` -/
def credentialsBody (s p : List UInt8) : List UInt8 :=
  ascii "SSID: " ++ s ++ ascii " PASS: " ++ p

/-- An SSID or a password that fits `ssid[70]` and `pass[70]`. -/
structure Credential (s : List UInt8) : Prop extends Token s where
  noNul : 0 ∉ s
  length_le : s.length ≤ 69

instance (s : List UInt8) : Decidable (Credential s) :=
  decidable_of_iff (Token s ∧ 0 ∉ s ∧ s.length ≤ 69)
    ⟨fun h => ⟨h.1, h.2.1, h.2.2⟩, fun h => ⟨h.toToken, h.noNul, h.length_le⟩⟩

theorem sscanf_credentialsBody {s p : List UInt8} (hs : Token s) (hp : Token p) :
    sscanfCredentials (credentialsBody s p) = (2, [s, p]) := by
  have hbody : credentialsBody s p =
      ascii "SSID:" ++ (0x20 :: s ++ (0x20 :: ascii "PASS:" ++ (0x20 :: p ++ []))) := by
    simp [credentialsBody, ascii]
  have hformat : credentialsFormat = chars (ascii "SSID:") ++ (.space :: .str :: .space ::
      (chars (ascii "PASS:") ++ [.space, .str])) := by
    simp [credentialsFormat]
  have hstop : ∀ b tail, (0x20 :: ascii "PASS:" ++ (0x20 :: p ++ []) : List UInt8) = b :: tail →
      isSpace b = true := by
    intro b tail heq
    obtain rfl : (0x20 : UInt8) = b := (List.cons.inj heq).1
    decide
  have hword : Token (ascii "PASS:") := by decide
  rw [sscanfCredentials, hbody, hformat, scanf_chars, scanf_space_token hs,
    scanf_str_token hs hstop, scanf_space_token hword, scanf_chars, scanf_space_token hp,
    scanf_str_token hp (by simp)]
  rfl

theorem credentialsBody_noNul {s p : List UInt8} (hs : 0 ∉ s) (hp : 0 ∉ p) :
    0 ∉ credentialsBody s p := by
  have hssid : (0 : UInt8) ∉ ascii "SSID: " := by decide
  have hpass : (0 : UInt8) ∉ ascii " PASS: " := by decide
  simp [credentialsBody, hs, hp, hssid, hpass]

theorem credentialsBody_length (s p : List UInt8) :
    (credentialsBody s p).length = s.length + p.length + 13 := by
  have hssid : (ascii "SSID: ").length = 6 := by decide
  have hpass : (ascii " PASS: ").length = 7 := by decide
  simp only [credentialsBody, List.length_append, hssid, hpass]
  omega

end HydroponicCloset.App
