import Mathlib.Tactic.Common

/-!
# Cyclic redundancy checks, least significant bit first

A register of `w` bits takes a message bit by bit.  `bitStep` is one bit: the
register moves down one place, and the generator is added when the bit that
leaves differs from the bit that comes in.  `reflected` writes a generator down
from the exponents of its polynomial: the coefficient of `x ^ (w - 1)` is the
lowest bit.

Implementations take a byte at a time and look eight bit steps up in a table.
`bitwise_eq_tableDriven` says that they compute the same, for every table that
holds `shifts generator 8 i` at index `i`.  Everything follows from `feed_lowBits`:
feeding the bits of a word is adding the word and shifting it out.
-/

namespace Crc

variable {w : ℕ}

/-! ## Bit by bit -/

/-- The generator of `x ^ w + x ^ e₁ + ⋯ + x ^ eₙ`. -/
def reflected (w : ℕ) (exponents : List ℕ) : BitVec w :=
  exponents.foldl (fun acc e => acc ^^^ 1#w <<< (w - 1 - e)) 0

/-- Take one bit. -/
def bitStep (generator crc : BitVec w) (bit : Bool) : BitVec w :=
  if crc.getLsbD 0 ^^ bit then crc >>> 1 ^^^ generator else crc >>> 1

/-- The `n` lowest bits, the lowest first. -/
def lowBits {v : ℕ} (x : BitVec v) (n : ℕ) : List Bool := (List.range n).map x.getLsbD

/-- Take the bits one by one. -/
def feed (generator crc : BitVec w) (bits : List Bool) : BitVec w :=
  bits.foldl (bitStep generator) crc

/-- The check of a byte string, from an initial value on. -/
def bitwise (generator crc : BitVec w) (bytes : List UInt8) : BitVec w :=
  feed generator crc (bytes.flatMap fun byte => lowBits byte.toBitVec 8)

theorem lowBits_succ {v : ℕ} (x : BitVec v) (n : ℕ) :
    lowBits x (n + 1) = lowBits x n ++ [x.getLsbD n] := by
  simp [lowBits, List.range_succ]

theorem bitwise_append (generator crc : BitVec w) (first second : List UInt8) :
    bitwise generator crc (first ++ second) =
      bitwise generator (bitwise generator crc first) second := by
  rw [bitwise, List.flatMap_append]
  exact List.foldl_append

theorem feed_append (generator crc : BitVec w) (first second : List Bool) :
    feed generator crc (first ++ second) = feed generator (feed generator crc first) second :=
  List.foldl_append

/-! ## Shifting -/

/-- `n` bit steps without a message. -/
def shifts (generator : BitVec w) : ℕ → BitVec w → BitVec w
  | 0, crc => crc
  | n + 1, crc => bitStep generator (shifts generator n crc) false

/-- A bit that is added to the register and fed to it cancels. -/
theorem bitStep_xor (generator crc x : BitVec w) :
    bitStep generator (crc ^^^ x) (x.getLsbD 0) = bitStep generator crc false ^^^ x >>> 1 := by
  have hbit : ((crc ^^^ x).getLsbD 0 ^^ x.getLsbD 0) = (crc.getLsbD 0 ^^ false) := by
    rw [BitVec.getLsbD_xor]
    cases crc.getLsbD 0 <;> cases x.getLsbD 0 <;> rfl
  rw [bitStep, bitStep, hbit, BitVec.ushiftRight_xor_distrib]
  split_ifs
  · rw [BitVec.xor_assoc, BitVec.xor_assoc, BitVec.xor_comm generator]
  · rfl

/-- **Feeding the low bits of a word** adds the word, shifts, and takes off what is
left of the word. -/
theorem feed_lowBits (generator crc x : BitVec w) (n : ℕ) :
    feed generator crc (lowBits x n) = shifts generator n (crc ^^^ x) ^^^ x >>> n := by
  induction n with
  | zero =>
      show crc = crc ^^^ x ^^^ x >>> 0
      rw [BitVec.ushiftRight_zero, BitVec.xor_assoc, BitVec.xor_self, BitVec.xor_zero]
  | succ n ih =>
      have hbit : x.getLsbD n = (x >>> n).getLsbD 0 := by rw [BitVec.getLsbD_ushiftRight]; rfl
      calc feed generator crc (lowBits x (n + 1))
          = bitStep generator (feed generator crc (lowBits x n)) (x.getLsbD n) := by
            rw [lowBits_succ, feed_append]
            rfl
        _ = bitStep generator (shifts generator n (crc ^^^ x) ^^^ x >>> n)
              ((x >>> n).getLsbD 0) := by rw [ih, hbit]
        _ = shifts generator (n + 1) (crc ^^^ x) ^^^ x >>> (n + 1) := by
            rw [bitStep_xor, BitVec.shiftRight_add]
            rfl

/-- Low bits that are all clear shift the register. -/
theorem feed_zeros (generator crc : BitVec w) (n : ℕ) :
    feed generator crc (List.replicate n false) = shifts generator n crc := by
  have hzeros : lowBits 0#w n = List.replicate n false := by
    rw [List.eq_replicate_iff]
    simp [lowBits]
  rw [← hzeros, feed_lowBits, BitVec.xor_zero, BitVec.zero_ushiftRight, BitVec.xor_zero]

/-- A word whose low bits are clear moves down unchanged. -/
theorem shifts_xor (generator crc : BitVec w) {x : BitVec w} {n : ℕ}
    (h : ∀ i < n, x.getLsbD i = false) :
    shifts generator n (crc ^^^ x) = shifts generator n crc ^^^ x >>> n := by
  have hzeros : lowBits x n = List.replicate n false := by
    rw [List.eq_replicate_iff]
    simpa [lowBits] using h
  have hfed := feed_lowBits generator crc x n
  rw [hzeros, feed_zeros] at hfed
  rw [hfed, BitVec.xor_assoc, BitVec.xor_self, BitVec.xor_zero]

theorem shifts_zero (generator : BitVec w) (n : ℕ) : shifts generator n 0#w = 0#w := by
  induction n with
  | zero => rfl
  | succ n ih => simp [shifts, ih, bitStep]

/-- **The check of a message with its own check** is zero. -/
theorem feed_self (generator crc : BitVec w) : feed generator crc (lowBits crc w) = 0#w := by
  rw [feed_lowBits, BitVec.xor_self, BitVec.ushiftRight_eq_zero (Nat.le_refl w), BitVec.xor_zero,
    shifts_zero]

/-! ## By table -/

/-- One byte at a time: the register moves down eight places, and the entry for
its low byte and the message's is added. -/
def tableStep (table : List (BitVec w)) (crc : BitVec w) (byte : UInt8) : BitVec w :=
  crc >>> 8 ^^^ table.getD (crc.setWidth 8 ^^^ byte.toBitVec).toNat 0#w

/-- The table of a generator: eight bit steps for each byte. -/
def IsTable (generator : BitVec w) (table : List (BitVec w)) : Prop :=
  ∀ i < 256, table.getD i 0#w = shifts generator 8 (BitVec.ofNat w i)

theorem lowBits_setWidth (x : BitVec 8) (hw : 8 ≤ w) :
    lowBits (x.setWidth w) 8 = lowBits x 8 := by
  apply List.map_congr_left
  intro i hi
  have hlt : i < w := Nat.lt_of_lt_of_le (List.mem_range.mp hi) hw
  simp [hlt]

/-- **One byte** by table is eight bit steps. -/
theorem tableStep_eq {generator : BitVec w} {table : List (BitVec w)} (hw : 8 ≤ w)
    (htable : IsTable generator table) (crc : BitVec w) (byte : UInt8) :
    tableStep table crc byte = feed generator crc (lowBits byte.toBitVec 8) := by
  -- the sum of the two, split into its low byte and the rest
  let sum := crc ^^^ byte.toBitVec.setWidth w
  let low := (crc.setWidth 8 ^^^ byte.toBitVec).setWidth w
  have hlow : low = BitVec.ofNat w (crc.setWidth 8 ^^^ byte.toBitVec).toNat := by
    rw [BitVec.ofNat_toNat]
  have hrest : ∀ i < 8, (sum ^^^ low).getLsbD i = false := by
    intro i hi
    have hlt : i < w := Nat.lt_of_lt_of_le hi hw
    have hsum : sum.getLsbD i = low.getLsbD i := by simp [sum, low, hi, hlt]
    rw [BitVec.getLsbD_xor, hsum, Bool.xor_self]
  have hbyte : byte.toBitVec.setWidth w >>> 8 = 0#w := by
    apply BitVec.eq_of_getLsbD_eq
    intro i _
    simp
  have hlow8 : low >>> 8 = 0#w := by
    apply BitVec.eq_of_getLsbD_eq
    intro i _
    simp [low]
  have hsplit : sum = low ^^^ (sum ^^^ low) := by
    rw [BitVec.xor_comm sum, ← BitVec.xor_assoc, BitVec.xor_self, BitVec.zero_xor]
  calc tableStep table crc byte
      = shifts generator 8 low ^^^ crc >>> 8 := by
        rw [tableStep, htable _ (BitVec.isLt _), ← hlow, BitVec.xor_comm]
    _ = shifts generator 8 low ^^^ (sum ^^^ low) >>> 8 := by
        simp only [sum, BitVec.ushiftRight_xor_distrib, hbyte, hlow8, BitVec.xor_zero]
    _ = shifts generator 8 sum := by
        rw [← shifts_xor generator low hrest, ← hsplit]
    _ = feed generator crc (lowBits byte.toBitVec 8) := by
        rw [← lowBits_setWidth byte.toBitVec hw, feed_lowBits, hbyte, BitVec.xor_zero]

/-- **The table-driven check** is the bitwise one. -/
theorem bitwise_eq_tableDriven {generator : BitVec w} {table : List (BitVec w)} (hw : 8 ≤ w)
    (htable : IsTable generator table) (crc : BitVec w) (bytes : List UInt8) :
    bytes.foldl (tableStep table) crc = bitwise generator crc bytes := by
  induction bytes generalizing crc with
  | nil => rfl
  | cons byte rest ih =>
      calc (byte :: rest).foldl (tableStep table) crc
          = bitwise generator (tableStep table crc byte) rest := ih _
        _ = bitwise generator crc (byte :: rest) := by
            rw [tableStep_eq hw htable, bitwise, bitwise, List.flatMap_cons, feed_append]

end Crc
