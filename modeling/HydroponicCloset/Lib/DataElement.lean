import HydroponicCloset.Lib.Delimited
import HydroponicCloset.Lib.Wire

/-!
# Data elements

The values of service discovery.  An element starts with a byte that gives its type and a
size index.  Up to an index of four the size is a power of two; after that it is written
in one, two or four bytes behind the first.  The data of a sequence are elements again.

An element says itself where it ends, so the elements have a `Format`, and `children` finds
the elements of a sequence again (`children_seq`).
-/

namespace DataElement

open Wire Delimited

/-! ## Sizes -/

/-- How an element gives the size of its data: by the index alone, or in so many bits. -/
inductive Size
  | fixed (index : Fin 5)
  | field8
  | field16
  | field32
  deriving DecidableEq

/-- The size index of a header byte. -/
def Size.index : Size → ℕ
  | .fixed index => index
  | .field8 => 5
  | .field16 => 6
  | .field32 => 7

/-- The size with an index, which is taken from three bits. -/
def Size.ofIndex : ℕ → Size
  | 0 => .fixed 0
  | 1 => .fixed 1
  | 2 => .fixed 2
  | 3 => .fixed 3
  | 4 => .fixed 4
  | 5 => .field8
  | 6 => .field16
  | _ => .field32

theorem Size.ofIndex_index (size : Size) : Size.ofIndex size.index = size := by
  cases size with
  | fixed index =>
      revert index
      decide
  | _ => rfl

theorem Size.index_lt (size : Size) : size.index < 8 := by
  cases size with
  | fixed index =>
      have hindex := index.isLt
      rw [Size.index]
      omega
  | _ => decide

/-- The element of type nil has no data. -/
def fixedLength (type : Fin 32) (index : Fin 5) : ℕ := if type = 0 then 0 else 1 <<< index.val

/-- Data of this length can be given this size. -/
def Fits (type : Fin 32) (length : ℕ) : Size → Prop
  | .fixed index => length = fixedLength type index
  | .field8 => length < 256
  | .field16 => length < 65536
  | .field32 => length < 4294967296

instance (type : Fin 32) (length : ℕ) (size : Size) : Decidable (Fits type length size) :=
  match size with
  | .fixed _ => inferInstanceAs (Decidable (_ = _))
  | .field8 | .field16 | .field32 => inferInstanceAs (Decidable (_ < _))

/-- What is written of a length. -/
def Size.field (length : ℕ) : Size → List UInt8
  | .fixed _ => []
  | .field8 => [UInt8.ofNat length]
  | .field16 => be16 (UInt16.ofNat length)
  | .field32 => be32 (UInt32.ofNat length)

/-- The length at the front of some bytes, and the bytes behind it. -/
def readLength (type : Fin 32) : Size → List UInt8 → Option (ℕ × List UInt8)
  | .fixed index, bytes => some (fixedLength type index, bytes)
  | .field8, b :: bytes => some (b.toNat, bytes)
  | .field16, hi :: lo :: bytes => some ((word hi lo).toNat, bytes)
  | .field32, b₃ :: b₂ :: b₁ :: b₀ :: bytes =>
      some (([b₃, b₂, b₁, b₀].foldl shiftIn 0).toNat, bytes)
  | _, _ => none

/-- A length that fits is read back. -/
theorem readLength_field {type : Fin 32} {length : ℕ} {size : Size} (h : Fits type length size)
    (rest : List UInt8) :
    readLength type size (size.field length ++ rest) = some (length, rest) := by
  cases size with
  | fixed index =>
      have hlength : length = fixedLength type index := h
      rw [hlength]
      rfl
  | field8 =>
      have hlength : (UInt8.ofNat length).toNat = length :=
        UInt8.toNat_ofNat_of_lt h
      show some ((UInt8.ofNat length).toNat, rest) = _
      rw [hlength]
  | field16 =>
      have hlength : (UInt16.ofNat length).toNat = length :=
        UInt16.toNat_ofNat_of_lt h
      show some ((word _ _).toNat, rest) = _
      rw [word_high_low, hlength]
  | field32 =>
      have hlength : (UInt32.ofNat length).toNat = length :=
        UInt32.toNat_ofNat_of_lt h
      show some (((be32 (UInt32.ofNat length)).foldl shiftIn 0).toNat, rest) = _
      rw [shiftIn_be32, hlength]

/-! ## Elements -/

/-- A data element: a type, a size that fits it, and the data. -/
structure Element where
  type : Fin 32
  size : Size
  data : List UInt8
  fits : Fits type data.length size
  deriving DecidableEq

namespace Element

/-- The header byte, the size in its field, and the data. -/
def encode (e : Element) : List UInt8 :=
  UInt8.ofNat (8 * e.type + e.size.index) :: (e.size.field e.data.length ++ e.data)

/-- Cut the data off. -/
def take (type : Fin 32) (size : Size) (length : ℕ) (bytes : List UInt8) :
    Option (Element × List UInt8) :=
  if h : Fits type (bytes.take length).length size ∧ length ≤ bytes.length then
    some (⟨type, size, bytes.take length, h.1⟩, bytes.drop length)
  else none

theorem type_lt (b : UInt8) : b.toNat / 8 < 32 := by
  have hb := b.toNat_lt
  omega

/-- The element at the front of some bytes, and the bytes behind it. -/
def decode : List UInt8 → Option (Element × List UInt8)
  | [] => none
  | b :: bytes =>
      let type : Fin 32 := ⟨b.toNat / 8, type_lt b⟩
      let size := Size.ofIndex (b.toNat % 8)
      (readLength type size bytes).bind fun r => take type size r.1 r.2

theorem take_data (e : Element) (rest : List UInt8) :
    take e.type e.size e.data.length (e.data ++ rest) = some (e, rest) := by
  unfold take
  have hdata : (e.data ++ rest).take e.data.length = e.data := List.take_left
  have hwhole : Fits e.type ((e.data ++ rest).take e.data.length).length e.size ∧
      e.data.length ≤ (e.data ++ rest).length := by
    rw [hdata]
    exact ⟨e.fits, by simp⟩
  rw [dif_pos hwhole]
  simp only [hdata, List.drop_left]

theorem decode_encode (e : Element) (rest : List UInt8) :
    decode (e.encode ++ rest) = some (e, rest) := by
  have htype := e.type.isLt
  have hindex := e.size.index_lt
  have hfirst : (UInt8.ofNat (8 * e.type + e.size.index)).toNat = 8 * e.type + e.size.index := by
    rw [UInt8.toNat_ofNat']
    omega
  have hread : ∀ (type : Fin 32) (size : Size), type = e.type → size = e.size →
      ((readLength type size (e.size.field e.data.length ++ (e.data ++ rest))).bind fun r =>
        take type size r.1 r.2) = some (e, rest) := by
    rintro _ _ rfl rfl
    rw [readLength_field e.fits, Option.bind_some, take_data]
  rw [encode, List.cons_append, List.append_assoc, decode]
  apply hread
  · apply Fin.ext
    show (UInt8.ofNat (8 * e.type + e.size.index)).toNat / 8 = e.type
    rw [hfirst]
    omega
  · have hlow : (8 * e.type + e.size.index) % 8 = e.size.index := by omega
    rw [hfirst, hlow, Size.ofIndex_index]

/-- The format of a list of elements. -/
def format : Format Element UInt8 where
  encode := encode
  decode := decode
  encode_ne_nil := fun _ => List.cons_ne_nil _ _
  decode_encode := decode_encode

/-! ## Kinds of elements -/

/-- An unsigned integer of one byte. -/
def uint8 (u : UInt8) : Element := ⟨1, .fixed 0, [u], rfl⟩

/-- An unsigned integer of two bytes. -/
def uint16 (u : UInt16) : Element := ⟨1, .fixed 1, be16 u, rfl⟩

/-- An unsigned integer of four bytes. -/
def uint32 (u : UInt32) : Element := ⟨1, .fixed 2, be32 u, rfl⟩

/-- A UUID of two bytes. -/
def uuid16 (u : UInt16) : Element := ⟨3, .fixed 1, be16 u, rfl⟩

/-- A truth value. -/
def bool (b : Bool) : Element := ⟨5, .fixed 0, [b.toUInt8], rfl⟩

/-- A text, with its size in one byte. -/
def text (s : List UInt8) (h : s.length < 256) : Element := ⟨4, .field8, s, h⟩

/-- A sequence. -/
def seq (size : Size) (es : List Element) (h : Fits 6 (es.flatMap encode).length size) : Element :=
  ⟨6, size, es.flatMap encode, h⟩

/-- The elements of a sequence. -/
def children (e : Element) : Option (List Element) :=
  if e.type = 6 then format.decodeAll e.data else none

/-- **The elements of a sequence** are found again in its data. -/
theorem children_seq {es : List Element} {size : Size}
    (h : Fits 6 (es.flatMap encode).length size) : (seq size es h).children = some es := by
  have htype : (seq size es h).type = 6 := rfl
  rw [children, if_pos htype]
  exact Format.decodeAll_flatMap es

/-- The UUIDs in an element, at most so many sequences deep. -/
def uuidsUpTo : ℕ → Element → List UInt16
  | 0, _ => []
  | depth + 1, e =>
      match e.type, e.data with
      | 3, [hi, lo] => [word hi lo]
      | _, _ => (e.children.getD []).flatMap (uuidsUpTo depth)

/-- The UUIDs in an element; each sequence takes at least a byte. -/
def uuids (e : Element) : List UInt16 := e.uuidsUpTo (e.data.length + 1)

end Element

end DataElement
