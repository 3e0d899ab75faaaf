import Mathlib.Tactic.Common

/-!
# Self-delimiting formats

In such a format a value says itself where it ends: a decoder finds the value at the
front of any longer text, and leaves the rest of the text as it was.  So the values of a
sequence need nothing between them: their texts, one after the other, decode to this
sequence (`decodeAll_flatMap`).
-/

namespace Delimited

/-- A format for values of `α` over the alphabet `β`. -/
structure Format (α β : Type*) where
  encode : α → List β
  decode : List β → Option (α × List β)
  encode_ne_nil : ∀ a, encode a ≠ []
  decode_encode : ∀ a rest, decode (encode a ++ rest) = some (a, rest)

namespace Format

variable {α β : Type*} (f : Format α β)

/-- At most `fuel` values, up to the end of the text. -/
def decodeUpTo : ℕ → List β → Option (List α)
  | _, [] => some []
  | 0, _ => none
  | fuel + 1, text => (f.decode text).bind fun r => (decodeUpTo fuel r.2).map (r.1 :: ·)

/-- All values of a text; each takes at least one letter. -/
def decodeAll (text : List β) : Option (List α) := f.decodeUpTo text.length text

variable {f}

theorem decodeUpTo_flatMap (as : List α) {fuel : ℕ} (h : as.length ≤ fuel) :
    f.decodeUpTo fuel (as.flatMap f.encode) = some as := by
  induction as generalizing fuel with
  | nil =>
      rw [List.flatMap_nil]
      unfold decodeUpTo
      cases fuel <;> rfl
  | cons a rest ih =>
      obtain ⟨fuel, rfl⟩ : ∃ k, fuel = k + 1 := ⟨fuel - 1, by rw [List.length_cons] at h; omega⟩
      rw [List.length_cons] at h
      have hne : f.encode a ++ rest.flatMap f.encode ≠ [] :=
        List.append_ne_nil_of_left_ne_nil (f.encode_ne_nil a) _
      rw [List.flatMap_cons]
      have hdecode : f.decodeUpTo (fuel + 1) (f.encode a ++ rest.flatMap f.encode) =
          (f.decode (f.encode a ++ rest.flatMap f.encode)).bind fun r =>
            (f.decodeUpTo fuel r.2).map (r.1 :: ·) := by
        cases htext : f.encode a ++ rest.flatMap f.encode with
        | nil => exact absurd htext hne
        | cons b text => rfl
      rw [hdecode, f.decode_encode, Option.bind_some, ih (by omega)]
      rfl

theorem length_le_flatMap (as : List α) : as.length ≤ (as.flatMap f.encode).length := by
  induction as with
  | nil => exact Nat.le_refl 0
  | cons a rest ih =>
      have hpos := List.length_pos_iff.mpr (f.encode_ne_nil a)
      rw [List.flatMap_cons, List.length_append, List.length_cons]
      omega

/-- **A sequence of values** is found again in its text. -/
theorem decodeAll_flatMap (as : List α) : f.decodeAll (as.flatMap f.encode) = some as :=
  decodeUpTo_flatMap as (length_le_flatMap as)

end Format

end Delimited
