import HydroponicCloset.App.WaitingLoop
import HydroponicCloset.Obex.Headers

/-!
# The provisioning round trip

A peer that puts `wifi.config` with contents "SSID: s PASS: p" in one packet, its
headers in whatever order, provisions the device: the header loop leaves the
name in `fi` and the contents in `content`, and the next iteration of the
waiting loop reads `s` and `p` back out of them.

The order of the headers does not matter because the headers of each kind reach
a global of their own (`foldl_store_buffer1` and its companions), and of each
kind there is one at most.
-/

namespace HydroponicCloset.Provisioning

open CMemory Scanf Bluetooth Obex App

/-- The code units of `wifi.config`. -/
def wifiConfigUnits : List UInt16 := wifiConfig.map UInt8.toUInt16

/-- The headers of a single-packet transfer of `wifi.config`, in any order: a
Name, a Body, and at most one of each other kind. -/
def ProvisioningHeaders (s p : List UInt8) (length? : Option UInt32) (hs : List Header) : Prop :=
  ∃ (connectionId? : Option UInt32) (type? : Option (List UInt8)) (srm? : Option UInt8)
    (endOfBody : Bool),
    hs.Perm ([.name (nameValue wifiConfigUnits), .body (credentialsBody s p)] ++
      connectionId?.toList.map .connectionId ++ length?.toList.map .length ++
      type?.toList.map .type ++ srm?.toList.map .srm ++
      if endOfBody then [.endOfBody []] else [])

/-- The device has been given `s` and `p`. -/
structure Provisioned (d : Device) (s p : List UInt8) : Prop where
  recived : d.credentialsRecived = true
  ssid : d.ssid.Holds s
  pass : d.pass.Holds p

/-! ## One iteration -/

/-- **An iteration that finds the name and a valid body** stores the
credentials and ends the loop. -/
theorem loopIteration_accepts {d : Device} {s p : List UInt8} (hs : Credential s)
    (hp : Credential p) (hname : d.globals.buffer1.Holds wifiConfig)
    (hbody : d.globals.buffer2.Holds (credentialsBody s p)) :
    Provisioned (loopIteration d) s p ∧ (loopIteration d).salir = false := by
  have hfits : (credentialsBody s p).length < contentSize := by
    rw [credentialsBody_length, contentSize]
    have hslen := hs.length_le
    have hplen := hp.length_le
    omega
  have hcontent : d.globals.buffer2.cString contentSize = credentialsBody s p :=
    hbody.cString_eq_self (credentialsBody_noNul hs.noNul hp.noNul) hfits
  have hscan := sscanf_credentialsBody hs.toToken hp.toToken
  have htry : tryCredentials d =
      { d with ssid := d.ssid.putString s, pass := d.pass.putString p,
               credentialsRecived := true, salir := false } := by
    simp [tryCredentials, hname, hcontent, hscan, storeToken]
  refine ⟨⟨?_, ?_, ?_⟩, ?_⟩ <;> simp only [loopIteration, htry]
  · exact Buffer.holds_putString _ _
  · exact Buffer.holds_putString _ _

/-! ## One packet -/

namespace ProvisioningHeaders

variable {s p : List UInt8} {length? : Option UInt32} {hs : List Header}

theorem names (h : ProvisioningHeaders s p length? hs) :
    hs.filterMap Header.name? = [nameValue wifiConfigUnits] := by
  obtain ⟨c, t, m, e, hperm⟩ := h
  rw [← List.perm_singleton]
  refine (hperm.filterMap _).trans (List.Perm.of_eq ?_)
  cases c <;> cases length? <;> cases t <;> cases m <;> cases e <;> rfl

theorem bodies (h : ProvisioningHeaders s p length? hs) :
    hs.filterMap Header.body? = [credentialsBody s p] := by
  obtain ⟨c, t, m, e, hperm⟩ := h
  rw [← List.perm_singleton]
  refine (hperm.filterMap _).trans (List.Perm.of_eq ?_)
  cases c <;> cases length? <;> cases t <;> cases m <;> cases e <;> rfl

theorem lengths (h : ProvisioningHeaders s p length? hs) :
    hs.filterMap Header.length? = length?.toList := by
  obtain ⟨c, t, m, e, hperm⟩ := h
  have hlengths : (hs.filterMap Header.length?).Perm length?.toList := by
    refine (hperm.filterMap _).trans (List.Perm.of_eq ?_)
    cases c <;> cases length? <;> cases t <;> cases m <;> cases e <;> rfl
  cases length? with
  | none => exact List.perm_nil.mp hlengths
  | some v => exact List.perm_singleton.mp hlengths

theorem supported (h : ProvisioningHeaders s p length? hs) : ∀ x ∈ hs, x.Supported := by
  obtain ⟨c, t, m, e, hperm⟩ := h
  intro x hx
  cases x with
  | endOfBody chunk =>
      have hmem := hperm.mem_iff.mp hx
      simp at hmem
      exact hmem.2
  | _ => trivial

end ProvisioningHeaders

theorem holds_wifiConfig (b : Buffer) :
    (b.putString (oddBytes (nameValue wifiConfigUnits))).Holds wifiConfig := by
  have hread : oddBytes (nameValue wifiConfigUnits) = wifiConfig ++ [0] := by decide
  rw [hread]
  exact ((b.holds_putString _).holds_iff (by decide)).mpr (by decide)

/-- **The provisioning round trip.**  A packet with these headers leaves the
name, the contents and the length in the globals, whatever they held before, and
the next iteration of the waiting loop accepts the credentials. -/
theorem provisioning_round_trip {s p : List UInt8} (hssid : Credential s) (hpass : Credential p)
    {length? : Option UInt32} {hs : List Header} (hheaders : ProvisioningHeaders s p length? hs)
    {packet : Packet} (hframe : PutFrame packet hs) {d : Device} (hwaiting : d.salir = true) :
    ∃ g, (obexFtp d.globals packet).next = some g ∧
      g.buffer1.Holds wifiConfig ∧ g.buffer2.Holds (credentialsBody s p) ∧
      (∀ v, length? = some v → g.fileLen = v) ∧
      ∃ d', Device.step { d with globals := g } .iteration = some d' ∧ Provisioned d' s p := by
  refine ⟨_, obexFtp_put hframe hheaders.supported d.globals, ?_⟩
  have hname : (hs.foldl Header.store d.globals).buffer1.Holds wifiConfig := by
    rw [foldl_store_buffer1, hheaders.names]
    exact holds_wifiConfig _
  have hbody : (hs.foldl Header.store d.globals).buffer2.Holds (credentialsBody s p) := by
    rw [foldl_store_buffer2, hheaders.bodies]
    exact Buffer.holds_putString _ _
  refine ⟨hname, hbody, ?_, loopIteration { d with globals := hs.foldl Header.store d.globals },
    ?_, ?_⟩
  · intro v hv
    rw [foldl_store_fileLen, hheaders.lengths, hv]
    rfl
  · simp [Device.step, hwaiting]
  · exact (loopIteration_accepts hssid hpass hname hbody).1

/-- The headers in the order a phone sends them. -/
def phoneHeaders : List Header :=
  [.connectionId 1, .name (nameValue wifiConfigUnits), .length 19,
    .body (credentialsBody (ascii "net") (ascii "key")), .endOfBody []]

theorem provisioning_round_trip_phone :
    ∃ g, (obexFtp waiting.globals (putPacket phoneHeaders)).next = some g ∧
      g.buffer1.Holds wifiConfig ∧
      g.buffer2.Holds (credentialsBody (ascii "net") (ascii "key")) ∧
      (∀ v, some (19 : UInt32) = some v → g.fileLen = v) ∧
      ∃ d', Device.step { waiting with globals := g } .iteration = some d' ∧
        Provisioned d' (ascii "net") (ascii "key") :=
  provisioning_round_trip (by decide) (by decide) ⟨some 1, none, none, true, by decide⟩
    (putFrame_putPacket (by decide)) rfl

end HydroponicCloset.Provisioning
