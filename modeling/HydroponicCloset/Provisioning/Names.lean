import HydroponicCloset.Provisioning.RoundTrip

/-!
# Which names are taken for `wifi.config`

A name is sent in code units of sixteen bits.  `obex_ftp` keeps the low byte of each, and
`app_main` compares the result as a C string, up to its first NUL.  So the name that the
peer sent is only known up to its high bytes, and up to what follows a unit whose low byte
is zero (`name_accepted_iff`).  Among the names in which neither makes a difference,
`wifi.config` is the only one that is accepted.
-/

namespace HydroponicCloset.Provisioning

open CMemory Wire Bluetooth Obex App

/-- The bytes of a name that `obex_ftp` keeps. -/
def lowBytes (units : List UInt16) : List UInt8 := units.map UInt16.toUInt8

theorem oddBytes_nameValue (units : List UInt16) :
    oddBytes (nameValue units) = lowBytes units ++ [0] := by
  have hodd : ∀ units : List UInt16, oddBytes (units.flatMap be16) = lowBytes units := by
    intro units
    induction units with
    | nil => rfl
    | cons unit rest ih =>
        rw [List.flatMap_cons, lowBytes, List.map_cons, ← lowBytes, ← ih]
        rfl
  rw [nameValue, hodd, lowBytes, lowBytes, List.map_append]
  rfl

/-- What follows the first NUL of a string makes no difference to its comparison. -/
theorem holds_nameValue_iff (b : Buffer) (units : List UInt16) :
    (b.putString (oddBytes (nameValue units))).Holds wifiConfig ↔
      (lowBytes units).takeWhile (· ≠ 0) = wifiConfig := by
  have hnul : 0 ∉ wifiConfig := by decide
  rw [oddBytes_nameValue, (b.holds_putString _).holds_iff hnul, List.takeWhile_append]
  split
  · rename_i hall
    rw [(List.takeWhile_prefix _).eq_of_length hall]
    simp
  · rfl

/-- A unit without a high byte is its low byte. -/
theorem toUInt16_toUInt8 {u : UInt16} (h : u < 256) : u.toUInt8.toUInt16 = u := by
  have hlt : u.toNat < 256 := UInt16.lt_iff_toNat_lt.mp h
  apply UInt16.toNat_inj.mp
  rw [UInt8.toNat_toUInt16, low_toNat, Nat.mod_eq_of_lt hlt]

theorem lowBytes_inj {units units' : List UInt16} (h : ∀ u ∈ units, u < 256)
    (h' : ∀ u ∈ units', u < 256) : lowBytes units = lowBytes units' ↔ units = units' := by
  have hback : ∀ {units : List UInt16}, (∀ u ∈ units, u < 256) →
      (lowBytes units).map UInt8.toUInt16 = units := by
    intro units hunits
    have hself : units.map (UInt8.toUInt16 ∘ UInt16.toUInt8) = units.map id :=
      List.map_congr_left fun u hu => toUInt16_toUInt8 (hunits u hu)
    rw [lowBytes, List.map_map, hself, List.map_id]
  constructor
  · intro heq
    rw [← hback h, heq, hback h']
  · rintro rfl
    rfl

/-- **The names that are taken for `wifi.config`** are those whose low bytes, up to the
first that is zero, spell it.  Among those of units from 1 to 255 it is the only one. -/
theorem name_accepted_iff (g : Globals) {packet : Packet} {hs : List Header}
    {names : List (List UInt8)} {units : List UInt16} (hheaders : headersOf packet = some hs)
    (hname : hs.filterMap Header.name? = names ++ [nameValue units]) :
    ∃ g', (obexFtp g packet).next = some g' ∧
      (g'.buffer1.Holds wifiConfig ↔ (lowBytes units).takeWhile (· ≠ 0) = wifiConfig) ∧
      ((∀ u ∈ units, 0 < u ∧ u < 256) →
        (g'.buffer1.Holds wifiConfig ↔ units = wifiConfigUnits)) := by
  have hholds : (hs.foldl Header.store g).buffer1.Holds wifiConfig ↔
      (lowBytes units).takeWhile (· ≠ 0) = wifiConfig := by
    rw [foldl_store_buffer1, hname, List.foldl_append, List.foldl_cons, List.foldl_nil]
    exact holds_nameValue_iff _ units
  refine ⟨hs.foldl Header.store g, by rw [obexFtp_next, hheaders, Option.map_some], hholds, ?_⟩
  intro hunits
  have hnoNul : (lowBytes units).takeWhile (· ≠ 0) = lowBytes units := by
    apply Buffer.takeWhile_noNul
    intro hmem
    obtain ⟨u, hu, hzero⟩ := List.mem_map.mp hmem
    obtain ⟨hpos, hlt⟩ := hunits u hu
    rw [← toUInt16_toUInt8 hlt, hzero] at hpos
    exact absurd hpos (by decide)
  have hconfig : lowBytes wifiConfigUnits = wifiConfig := by decide
  have hsmall : ∀ u ∈ wifiConfigUnits, u < 256 := by
    intro u hu
    obtain ⟨b, -, rfl⟩ := List.mem_map.mp hu
    rw [UInt16.lt_iff_toNat_lt, UInt8.toNat_toUInt16]
    exact b.toNat_lt
  rw [hholds, hnoNul, ← hconfig]
  exact lowBytes_inj (fun u hu => (hunits u hu).2) hsmall

theorem name_accepted_wifiConfig :
    ∃ g', (obexFtp initial (putPacket [.name (nameValue wifiConfigUnits)])).next = some g' ∧
      (g'.buffer1.Holds wifiConfig ↔
        (lowBytes wifiConfigUnits).takeWhile (· ≠ 0) = wifiConfig) ∧
      ((∀ u ∈ wifiConfigUnits, 0 < u ∧ u < 256) →
        (g'.buffer1.Holds wifiConfig ↔ wifiConfigUnits = wifiConfigUnits)) := by
  have hframe : PutFrame (putPacket [.name (nameValue wifiConfigUnits)])
      [.name (nameValue wifiConfigUnits)] := putFrame_putPacket (by decide)
  have hheaders := headers_eq_some hframe (by simp [Header.Supported])
  exact name_accepted_iff initial hheaders (by rw [List.nil_append]; rfl)

/-- `ŷifi.config`, whose first unit is 0x0177. -/
def circumflexUnits : List UInt16 := 0x0177 :: wifiConfigUnits.tail

/-- It is taken for `wifi.config`. -/
theorem circumflex_accepted :
    ∃ g', (obexFtp initial (putPacket [.name (nameValue circumflexUnits)])).next = some g' ∧
      g'.buffer1.Holds wifiConfig ∧ circumflexUnits ≠ wifiConfigUnits := by
  have hframe : PutFrame (putPacket [.name (nameValue circumflexUnits)])
      [.name (nameValue circumflexUnits)] := putFrame_putPacket (by decide)
  refine ⟨_, obexFtp_put hframe (by simp [Header.Supported]) initial, ?_, by decide⟩
  exact (holds_nameValue_iff _ circumflexUnits).mpr (by decide)

end HydroponicCloset.Provisioning
