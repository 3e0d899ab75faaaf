import Mathlib.Tactic.Common

/-!
# Words on the wire

`word hi lo` is the 16-bit word with the given bytes.  `le16` writes a word with
its low byte first, `be16` with its high byte first, and `be32` writes a 32-bit
word with its high byte first; `word_high_low`, `le16_word` and `shiftIn_be32` read
them back.

`Options` says that a byte string is a sequence of options, each a type byte, a
length byte and that many bytes of data, with nothing left over.
-/

namespace Wire

/-! ## Sixteen bits -/

/-- The word with these bytes. -/
def word (hi lo : UInt8) : UInt16 :=
  UInt16.ofNat (256 * hi.toNat + lo.toNat)

/-- The low byte first. -/
def le16 (u : UInt16) : List UInt8 :=
  [u.toUInt8, (u >>> 8).toUInt8]

/-- The high byte first. -/
def be16 (u : UInt16) : List UInt8 :=
  [(u >>> 8).toUInt8, u.toUInt8]

@[simp] theorem le16_length (u : UInt16) : (le16 u).length = 2 := rfl

@[simp] theorem be16_length (u : UInt16) : (be16 u).length = 2 := rfl

theorem word_toNat (hi lo : UInt8) : (word hi lo).toNat = 256 * hi.toNat + lo.toNat := by
  have hhi := hi.toNat_lt
  have hlo := lo.toNat_lt
  rw [word, UInt16.toNat_ofNat']
  omega

theorem high_toNat (u : UInt16) : (u >>> 8).toUInt8.toNat = u.toNat / 256 := by
  have hu := u.toNat_lt
  simp [Nat.shiftRight_eq_div_pow]
  omega

theorem low_toNat (u : UInt16) : u.toUInt8.toNat = u.toNat % 256 := by
  simp

@[simp] theorem word_high_low (u : UInt16) : word (u >>> 8).toUInt8 u.toUInt8 = u := by
  apply UInt16.toNat_inj.mp
  calc (word (u >>> 8).toUInt8 u.toUInt8).toNat
      = 256 * (u.toNat / 256) + u.toNat % 256 := by rw [word_toNat, high_toNat, low_toNat]
    _ = u.toNat := Nat.div_add_mod u.toNat 256

@[simp] theorem low_word (hi lo : UInt8) : (word hi lo).toUInt8 = lo := by
  have hlo := lo.toNat_lt
  apply UInt8.toNat_inj.mp
  calc (word hi lo).toUInt8.toNat
      = (256 * hi.toNat + lo.toNat) % 256 := by rw [low_toNat, word_toNat]
    _ = lo.toNat := by omega

@[simp] theorem high_word (hi lo : UInt8) : (word hi lo >>> 8).toUInt8 = hi := by
  have hlo := lo.toNat_lt
  apply UInt8.toNat_inj.mp
  calc (word hi lo >>> 8).toUInt8.toNat
      = (256 * hi.toNat + lo.toNat) / 256 := by rw [high_toNat, word_toNat]
    _ = hi.toNat := by omega

@[simp] theorem le16_word (hi lo : UInt8) : le16 (word hi lo) = [lo, hi] := by
  simp [le16]

theorem eq_toUInt16_iff (u : UInt16) (b : UInt8) : u = b.toUInt16 ↔ u.toNat = b.toNat := by
  rw [← UInt16.toNat_inj, UInt8.toNat_toUInt16]

theorem be16_ofNat_toNat {n : ℕ} (h : n < 65536) :
    256 * (UInt16.ofNat n >>> 8).toUInt8.toNat + (UInt16.ofNat n).toUInt8.toNat = n := by
  rw [high_toNat, low_toNat, UInt16.toNat_ofNat']
  omega

/-! ## Thirty-two bits -/

/-- The high byte first. -/
def be32 (u : UInt32) : List UInt8 :=
  [(u >>> 24).toUInt8, (u >>> 16).toUInt8, (u >>> 8).toUInt8, u.toUInt8]

/-- Shift a byte into a 32-bit accumulator. -/
def shiftIn (acc : UInt32) (b : UInt8) : UInt32 :=
  (acc <<< 8) + b.toUInt32

theorem shiftIn_toNat (acc : UInt32) (b : UInt8) :
    (shiftIn acc b).toNat = (acc.toNat * 256 + b.toNat) % 4294967296 := by
  simp [shiftIn, Nat.shiftLeft_eq]

theorem be32_toNat (u : UInt32) :
    (u >>> 24).toUInt8.toNat = u.toNat / 16777216 ∧
      (u >>> 16).toUInt8.toNat = u.toNat / 65536 % 256 ∧
      (u >>> 8).toUInt8.toNat = u.toNat / 256 % 256 ∧ u.toUInt8.toNat = u.toNat % 256 := by
  have hu := u.toNat_lt
  simp [Nat.shiftRight_eq_div_pow]
  omega

/-- Four shifted-in bytes push out whatever the accumulator held before. -/
theorem shiftIn_four (old old' : UInt32) (b₁ b₂ b₃ b₄ : UInt8) :
    shiftIn (shiftIn (shiftIn (shiftIn old b₁) b₂) b₃) b₄ =
      shiftIn (shiftIn (shiftIn (shiftIn old' b₁) b₂) b₃) b₄ := by
  apply UInt32.toNat_inj.mp
  simp only [shiftIn_toNat]
  omega

theorem shiftIn_be32 (acc u : UInt32) : (be32 u).foldl shiftIn acc = u := by
  obtain ⟨h3, h2, h1, h0⟩ := be32_toNat u
  have hu := u.toNat_lt
  apply UInt32.toNat_inj.mp
  simp only [be32, List.foldl_cons, List.foldl_nil, shiftIn_toNat, h3, h2, h1, h0]
  omega

/-! ## Options -/

/-- A byte string that splits into options and ends with the last of them. -/
inductive Options : List UInt8 → Prop
  | nil : Options []
  | option {type len : UInt8} {data rest : List UInt8} :
      data.length = len.toNat → Options rest → Options (type :: len :: (data ++ rest))

theorem Options.single {type len : UInt8} {data : List UInt8} (h : data.length = len.toNat) :
    Options (type :: len :: data) := by
  simpa using Options.option h .nil

theorem Options.append {first second : List UInt8} (h : Options first) (h' : Options second) :
    Options (first ++ second) := by
  induction h with
  | nil => exact h'
  | option hdata _ ih =>
      rw [List.cons_append, List.cons_append, List.append_assoc]
      exact .option hdata ih

end Wire
