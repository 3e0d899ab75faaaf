import HydroponicCloset.Lib.Wire
import Mathlib.Algebra.Order.Ring.Rat
import Mathlib.Tactic.Linarith
import Mathlib.Tactic.NormNum
import Mathlib.Tactic.Positivity

/-!
# The readings of the sensors

Both sensors reply with two bytes, the high one first.  `receive_i2c_channel` puts them
together; `read_temperature` and `read_humidity` then mask the word and scale it, in exact
arithmetic here.  The scale is that of a word of 16 bits, but the masks drop the upper
bits of the word, two for the temperature and four for the humidity.  So a reading is in
order with another one as far as the bits below go (`order_kept_iff`).
-/

namespace HydroponicCloset.Sensors

open Wire

/-- `out = (out << 8) | b;` -/
def appendByte (out : BitVec 32) (b : UInt8) : BitVec 32 := out <<< 8 ||| b.toBitVec.setWidth 32

/-- `receive_i2c_channel`, for what the sensor has written to `buffer`. -/
def receiveI2cChannel : List UInt8 → BitVec 32
  | [] => 0
  | first :: rest => rest.foldl appendByte (first.toBitVec.setWidth 32)

/-- The bits that are kept are scaled by `span / 65536`, from `base` on. -/
def readSensor (mask : BitVec 32) (base span : ℚ) (buffer : List UInt8) : ℚ :=
  base + span * (((receiveI2cChannel buffer &&& mask).toInt : ℚ) / 65536)

/-- `read_temperature` -/
def readTemperature : List UInt8 → ℚ := readSensor 0x3FFF (-46.85) 175.72

/-- `read_humidity` -/
def readHumidity : List UInt8 → ℚ := readSensor 0x0FFF (-6) 125

/-! ## The word that is read -/

/-- The number that the bytes spell, the high one first. -/
def bigEndian (bytes : List UInt8) : ℕ := bytes.foldl (fun n b => 256 * n + b.toNat) 0

theorem bigEndian_pair (hi lo : UInt8) : bigEndian [hi, lo] = (word hi lo).toNat := by
  rw [word_toNat]
  simp [bigEndian]

theorem appendByte_toNat (out : BitVec 32) (b : UInt8) :
    (appendByte out b).toNat = (256 * out.toNat + b.toNat) % 2 ^ 32 := by
  have hb : b.toNat < 2 ^ 8 := b.toNat_lt
  have hmod : 256 * out.toNat % 2 ^ 32 = out.toNat % 2 ^ 24 * 256 := by omega
  have hshift : (out.toNat % 2 ^ 24) <<< 8 = out.toNat % 2 ^ 24 * 256 := Nat.shiftLeft_eq _ _
  calc (appendByte out b).toNat
      = 256 * out.toNat % 2 ^ 32 ||| b.toNat := by
        simp [appendByte, Nat.shiftLeft_eq, Nat.mul_comm]
    _ = (out.toNat % 2 ^ 24) <<< 8 ||| b.toNat := by rw [hmod, hshift]
    _ = (out.toNat % 2 ^ 24) <<< 8 + b.toNat := (Nat.shiftLeft_add_eq_or_of_lt hb _).symm
    _ = (256 * out.toNat + b.toNat) % 2 ^ 32 := by
        rw [hshift]
        omega

/-- `receive_i2c_channel` reads the bytes as a number, in 32 bits. -/
theorem receiveI2cChannel_toNat (buffer : List UInt8) :
    (receiveI2cChannel buffer).toNat = bigEndian buffer % 2 ^ 32 := by
  have hloop : ∀ (rest : List UInt8) (out : BitVec 32) (n : ℕ), out.toNat = n % 2 ^ 32 →
      (rest.foldl appendByte out).toNat =
        rest.foldl (fun n b => 256 * n + b.toNat) n % 2 ^ 32 := by
    intro rest
    induction rest with
    | nil => exact fun _ _ hout => hout
    | cons b rest ih =>
        intro out n hout
        refine ih _ _ ?_
        rw [appendByte_toNat, hout]
        show _ = (256 * n + b.toNat) % 2 ^ 32
        omega
  cases buffer with
  | nil => rfl
  | cons first rest =>
      refine hloop rest _ _ ?_
      simp

/-! ## The scale -/

/-- A mask of `bits` bits. -/
theorem toInt_mask {bits : ℕ} (hbits : bits < 32) (buffer : List UInt8) :
    (receiveI2cChannel buffer &&& BitVec.ofNat 32 (2 ^ bits - 1)).toInt =
      (bigEndian buffer % 2 ^ bits : ℕ) := by
  have hpow : 2 ^ bits ≤ 2 ^ 31 := Nat.pow_le_pow_right (by omega) (by omega)
  have hpos : 0 < 2 ^ bits := Nat.two_pow_pos bits
  have hmask : (receiveI2cChannel buffer &&& BitVec.ofNat 32 (2 ^ bits - 1)).toNat =
      bigEndian buffer % 2 ^ bits := by
    rw [BitVec.toNat_and, BitVec.toNat_ofNat, Nat.mod_eq_of_lt (by omega),
      Nat.and_two_pow_sub_one_eq_mod, receiveI2cChannel_toNat,
      Nat.mod_mod_of_dvd _ (Nat.pow_dvd_pow 2 (by omega))]
  have hlt := Nat.mod_lt (bigEndian buffer) hpos
  rw [BitVec.toInt_eq_toNat_of_lt (by omega), hmask]

/-- Two readings are in the order of the bits that are kept. -/
theorem readSensor_le_iff (bits : ℕ) (hbits : bits < 32) {base span : ℚ} (hspan : 0 < span)
    (buffer buffer' : List UInt8) :
    readSensor (BitVec.ofNat 32 (2 ^ bits - 1)) base span buffer ≤
        readSensor (BitVec.ofNat 32 (2 ^ bits - 1)) base span buffer' ↔
      bigEndian buffer % 2 ^ bits ≤ bigEndian buffer' % 2 ^ bits := by
  unfold readSensor
  rw [toInt_mask hbits, toInt_mask hbits, add_le_add_iff_left, mul_le_mul_iff_right₀ hspan,
    div_le_div_iff_of_pos_right (by norm_num), Int.cast_le, Int.ofNat_le]

/-- **Which readings are kept in order**: those of words `w ≤ w'` whose lower 14 bits, for
the temperature, and lower 12 bits, for the humidity, are in order too. -/
theorem order_kept_iff (hi lo hi' lo' : UInt8) :
    (word hi lo ≤ word hi' lo' →
        readTemperature [hi, lo] ≤ readTemperature [hi', lo'] ∧
          readHumidity [hi, lo] ≤ readHumidity [hi', lo']) ↔
      (word hi lo ≤ word hi' lo' →
        (word hi lo).toNat % 2 ^ 14 ≤ (word hi' lo').toNat % 2 ^ 14 ∧
          (word hi lo).toNat % 2 ^ 12 ≤ (word hi' lo').toNat % 2 ^ 12) := by
  have htemperature : readTemperature [hi, lo] ≤ readTemperature [hi', lo'] ↔
      bigEndian [hi, lo] % 2 ^ 14 ≤ bigEndian [hi', lo'] % 2 ^ 14 :=
    readSensor_le_iff 14 (by omega) (by norm_num) _ _
  have hhumidity : readHumidity [hi, lo] ≤ readHumidity [hi', lo'] ↔
      bigEndian [hi, lo] % 2 ^ 12 ≤ bigEndian [hi', lo'] % 2 ^ 12 :=
    readSensor_le_iff 12 (by omega) (by norm_num) _ _
  rw [bigEndian_pair, bigEndian_pair] at htemperature hhumidity
  rw [htemperature, hhumidity]

/-- The temperature's mask ends, and the reading falls from its highest value to its lowest. -/
theorem order_lost :
    word 0x3f 0xff ≤ word 0x40 0x00 ∧
      readTemperature [0x40, 0x00] < readTemperature [0x3f, 0xff] ∧
      readHumidity [0x40, 0x00] < readHumidity [0x3f, 0xff] := by
  refine ⟨by decide, ?_, ?_⟩
  · have hiff : readTemperature [0x3f, 0xff] ≤ readTemperature [0x40, 0x00] ↔ _ :=
      readSensor_le_iff 14 (by omega) (by norm_num) _ _
    rw [← not_le, hiff]
    decide
  · have hiff : readHumidity [0x3f, 0xff] ≤ readHumidity [0x40, 0x00] ↔ _ :=
      readSensor_le_iff 12 (by omega) (by norm_num) _ _
    rw [← not_le, hiff]
    decide

end HydroponicCloset.Sensors
