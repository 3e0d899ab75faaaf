import Mathlib.Data.List.TakeWhile
import Mathlib.Tactic.Common

/-!
# Byte buffers and the loops that fill them

A C array of bytes is a `Buffer`: a memory indexed by every natural number and
the high-water mark `top`, one past the highest index ever written.  Writing
never fails here; whether the writes stay inside an array of `size` bytes is
the statement `top ≤ size` about the buffer that results.

`write` is a run of single assignments, and `write_bytes` reads every byte of
the result.  `forRange` lists the indices of a `for` loop with a constant
stride, and `copyLoop` is the loop that copies the bytes at such indices to the
front of a buffer.
-/

namespace CMemory

/-! ## Reading -/

/-- The `n` bytes of a memory from index `x` on. -/
def slice (mem : ℕ → UInt8) (x n : ℕ) : List UInt8 :=
  (List.range n).map fun k => mem (x + k)

@[simp] theorem slice_length (mem : ℕ → UInt8) (x n : ℕ) : (slice mem x n).length = n := by
  simp [slice]

theorem slice_getElem (mem : ℕ → UInt8) (x n k : ℕ) (hk : k < (slice mem x n).length) :
    (slice mem x n)[k] = mem (x + k) := by
  simp [slice]

theorem slice_add (mem : ℕ → UInt8) (x m n : ℕ) :
    slice mem x (m + n) = slice mem x m ++ slice mem (x + m) n := by
  simp [slice, List.range_add, Nat.add_assoc]

theorem eq_of_slice_eq {mem : ℕ → UInt8} {x : ℕ} {bytes : List UInt8}
    (h : slice mem x bytes.length = bytes) {k : ℕ} (hk : k < bytes.length) :
    mem (x + k) = bytes[k] := by
  have hget := slice_getElem mem x bytes.length k (by simpa using hk)
  rw [← hget]
  simp only [h]

theorem slice_eq_of_forall {mem : ℕ → UInt8} {x : ℕ} {bytes : List UInt8}
    (h : ∀ k (hk : k < bytes.length), mem (x + k) = bytes[k]) :
    slice mem x bytes.length = bytes := by
  apply List.ext_getElem (by simp)
  intro k _ hk
  rw [slice_getElem, h k hk]

theorem slice_append {mem : ℕ → UInt8} {x : ℕ} {first second : List UInt8}
    (h : slice mem x (first ++ second).length = first ++ second) :
    slice mem x first.length = first ∧ slice mem (x + first.length) second.length = second := by
  rw [List.length_append, slice_add] at h
  exact List.append_inj h (by simp)

theorem slice_drop {mem : ℕ → UInt8} {x : ℕ} {bytes : List UInt8}
    (h : slice mem x bytes.length = bytes) (n : ℕ) :
    slice mem (x + n) (bytes.length - n) = bytes.drop n := by
  apply List.ext_getElem (by simp)
  intro k hk _
  have hlt : n + k < bytes.length := by
    rw [slice_length] at hk
    omega
  rw [slice_getElem, Nat.add_assoc, eq_of_slice_eq h hlt, List.getElem_drop]

/-! ## Buffers -/

/-- A byte array: its contents, and one past the highest index written so far. -/
structure Buffer where
  bytes : ℕ → UInt8
  top : ℕ

/-- An array of zeros that has not been written. -/
def zeroed : Buffer := ⟨fun _ => 0, 0⟩

@[simp] theorem zeroed_bytes (k : ℕ) : zeroed.bytes k = 0 := rfl

namespace Buffer

/-- One assignment. -/
def set (b : Buffer) (x : ℕ) (v : UInt8) : Buffer :=
  ⟨fun k => if k = x then v else b.bytes k, max b.top (x + 1)⟩

/-- Consecutive assignments from index `x` on. -/
def write (b : Buffer) (x : ℕ) : List UInt8 → Buffer
  | [] => b
  | v :: rest => (b.set x v).write (x + 1) rest

/-- Copy the bytes `s` to the front and end them with a NUL. -/
def putString (b : Buffer) (s : List UInt8) : Buffer := b.write 0 (s ++ [0])

/-- The buffer starts with the C string `s`: its bytes and then a NUL. -/
def Holds (b : Buffer) (s : List UInt8) : Prop :=
  slice b.bytes 0 (s.length + 1) = s ++ [0]

instance (b : Buffer) (s : List UInt8) : Decidable (b.Holds s) :=
  inferInstanceAs (Decidable (_ = _))

/-- The C string at the start of an array of `size` bytes. -/
def cString (b : Buffer) (size : ℕ) : List UInt8 :=
  (slice b.bytes 0 size).takeWhile (· ≠ 0)

theorem set_bytes (b : Buffer) (x k : ℕ) (v : UInt8) :
    (b.set x v).bytes k = if k = x then v else b.bytes k := rfl

theorem write_append (b : Buffer) (x : ℕ) (first second : List UInt8) :
    b.write x (first ++ second) = (b.write x first).write (x + first.length) second := by
  induction first generalizing b x with
  | nil => rfl
  | cons v rest ih =>
      simp only [List.cons_append, write, ih, List.length_cons]
      congr 1
      omega

theorem write_bytes_of_lt (b : Buffer) {x k : ℕ} (vs : List UInt8) (hlt : k < x) :
    (b.write x vs).bytes k = b.bytes k := by
  induction vs generalizing b x with
  | nil => rfl
  | cons v rest ih =>
      rw [write, ih _ (by omega), set_bytes, if_neg (by omega)]

/-- Every byte after a write: the written ones where the write went, the old
ones elsewhere. -/
theorem write_bytes (b : Buffer) (x k : ℕ) (vs : List UInt8) :
    (b.write x vs).bytes (x + k) = (vs[k]?).getD (b.bytes (x + k)) := by
  induction vs generalizing b x k with
  | nil => simp [write]
  | cons v rest ih =>
      cases k with
      | zero =>
          rw [write, write_bytes_of_lt _ _ (by omega)]
          simp [set_bytes]
      | succ k =>
          rw [write, show x + (k + 1) = x + 1 + k by omega, ih, set_bytes, if_neg (by omega)]
          simp

theorem write_zero_bytes (b : Buffer) (k : ℕ) (vs : List UInt8) :
    (b.write 0 vs).bytes k = (vs[k]?).getD (b.bytes k) := by
  simpa using write_bytes b 0 k vs

theorem write_slice (b : Buffer) (vs : List UInt8) :
    slice (b.write 0 vs).bytes 0 vs.length = vs := by
  apply slice_eq_of_forall
  intro k hk
  rw [Nat.zero_add, write_zero_bytes, List.getElem?_eq_getElem hk, Option.getD_some]

theorem write_top (b : Buffer) (x : ℕ) (v : UInt8) (vs : List UInt8) :
    (b.write x (v :: vs)).top = max b.top (x + vs.length + 1) := by
  induction vs generalizing b x v with
  | nil => rfl
  | cons v' rest ih =>
      rw [write, ih]
      simp only [set, List.length_cons]
      omega

theorem write_top_le (b : Buffer) (x : ℕ) (vs : List UInt8) :
    (b.write x vs).top ≤ max b.top (x + vs.length) := by
  cases vs with
  | nil => exact Nat.le_max_left ..
  | cons v rest => exact Nat.le_of_eq (b.write_top x v rest)

theorem putString_top (b : Buffer) (s : List UInt8) :
    (b.putString s).top = max b.top (s.length + 1) := by
  cases s with
  | nil => rfl
  | cons v rest =>
      rw [putString, List.cons_append, write_top, List.length_append, List.length_singleton,
        List.length_cons, Nat.zero_add]

/-- Strings stay inside an array if each of them does. -/
theorem foldl_putString_top_le {strings : List (List UInt8)} {n : ℕ} {b : Buffer} :
    (strings.foldl putString b).top ≤ n ↔ b.top ≤ n ∧ ∀ s ∈ strings, s.length < n := by
  induction strings generalizing b with
  | nil => simp
  | cons s rest ih =>
      rw [List.foldl_cons, ih, putString_top, Nat.max_le, List.forall_mem_cons, and_assoc,
        Nat.succ_le_iff]

theorem putString_bytes (b : Buffer) (s : List UInt8) (k : ℕ) :
    (b.putString s).bytes k = ((s ++ [0])[k]?).getD (b.bytes k) :=
  b.write_zero_bytes k (s ++ [0])

/-- A string too short to reach a byte leaves it. -/
theorem putString_bytes_of_lt {b : Buffer} {s : List UInt8} {n : ℕ} (h : s.length < n) :
    (b.putString s).bytes n = b.bytes n := by
  have hlen : (s ++ [0]).length ≤ n := by
    rw [List.length_append, List.length_singleton]
    exact h
  rw [putString_bytes, List.getElem?_eq_none hlen, Option.getD_none]

theorem putString_bytes_getElem {b : Buffer} {s : List UInt8} {k : ℕ} (h : k < s.length) :
    (b.putString s).bytes k = s[k] := by
  rw [putString_bytes, List.getElem?_append_left h, List.getElem?_eq_getElem h, Option.getD_some]

theorem foldl_putString_bytes {strings : List (List UInt8)} {n : ℕ}
    (h : ∀ s ∈ strings, s.length < n) (b : Buffer) :
    (strings.foldl putString b).bytes n = b.bytes n := by
  induction strings generalizing b with
  | nil => rfl
  | cons s rest ih =>
      obtain ⟨hs, hrest⟩ := List.forall_mem_cons.mp h
      rw [List.foldl_cons, ih hrest, putString_bytes_of_lt hs]

theorem holds_putString (b : Buffer) (s : List UInt8) : (b.putString s).Holds s := by
  have hslice := b.write_slice (s ++ [0])
  rwa [List.length_append, List.length_singleton] at hslice

/-- Of several strings the last one stays. -/
theorem Holds.foldl_putString {b : Buffer} {cur : List UInt8} (h : b.Holds cur)
    (strings : List (List UInt8)) :
    (strings.foldl putString b).Holds (strings.getLastD cur) := by
  induction strings generalizing b cur with
  | nil => exact h
  | cons s rest ih =>
      rw [List.foldl_cons, List.getLastD_cons]
      exact ih (b.holds_putString s)

theorem holds_iff (b : Buffer) (s : List UInt8) :
    b.Holds s ↔ (∀ k (hk : k < s.length), b.bytes k = s[k]) ∧ b.bytes s.length = 0 := by
  have hlen : (s ++ [0]).length = s.length + 1 := by simp
  constructor
  · intro h
    have hget : ∀ k (hk : k < (s ++ [0]).length), b.bytes k = (s ++ [0])[k] := by
      intro k hk
      have hread : slice b.bytes 0 (s ++ [0]).length = s ++ [0] := by rw [hlen]; exact h
      have hbyte := eq_of_slice_eq hread hk
      rwa [Nat.zero_add] at hbyte
    refine ⟨fun k hk => ?_, ?_⟩
    · rw [hget k (by omega), List.getElem_append_left hk]
    · rw [hget s.length (by omega)]
      simp
  · rintro ⟨hbytes, hnul⟩
    unfold Holds
    rw [← hlen]
    apply slice_eq_of_forall
    intro k hk
    rw [Nat.zero_add]
    rcases Nat.lt_or_ge k s.length with hlt | hge
    · rw [hbytes k hlt, List.getElem_append_left hlt]
    · obtain rfl : k = s.length := by omega
      simp [hnul]

theorem Holds.of_append {b : Buffer} {v w tail : List UInt8} (h : b.Holds v)
    (heq : v ++ [0] = w ++ [0] ++ tail) : b.Holds w := by
  have hlen : v.length + 1 = (w ++ [0] ++ tail).length := by rw [← heq]; simp
  have hslice : slice b.bytes 0 (w ++ [0] ++ tail).length = w ++ [0] ++ tail := by
    rw [← hlen, ← heq]
    exact h
  have hfirst := (slice_append hslice).1
  rwa [List.length_append, List.length_singleton] at hfirst

theorem takeWhile_noNul {s : List UInt8} (h : 0 ∉ s) : s.takeWhile (· ≠ 0) = s := by
  rw [List.takeWhile_eq_self_iff]
  intro v hv
  simp only [ne_eq, decide_eq_true_eq]
  rintro rfl
  exact h hv

/-- The C string of an array that holds `s`: `s` up to its first NUL, if it has
one. -/
theorem Holds.cString_eq {b : Buffer} {s : List UInt8} {size : ℕ} (h : b.Holds s)
    (hsize : s.length < size) : b.cString size = s.takeWhile (· ≠ 0) := by
  have hsplit : slice b.bytes 0 size =
      (s ++ [0]) ++ slice b.bytes (s.length + 1) (size - (s.length + 1)) := by
    have hadd := slice_add b.bytes 0 (s.length + 1) (size - (s.length + 1))
    rw [Nat.add_sub_of_le (by omega), Nat.zero_add] at hadd
    rw [hadd, h]
  rw [cString, hsplit, List.append_assoc, List.takeWhile_append]
  split
  · rename_i hall
    rw [(List.takeWhile_prefix _).eq_of_length hall]
    simp
  · rfl

theorem Holds.cString_eq_self {b : Buffer} {s : List UInt8} {size : ℕ} (h : b.Holds s)
    (hnul : 0 ∉ s) (hsize : s.length < size) : b.cString size = s := by
  rw [h.cString_eq hsize, takeWhile_noNul hnul]

/-- A string without a NUL is held by a buffer exactly when it is the C string
that the buffer starts with. -/
theorem Holds.holds_iff {b : Buffer} {v w : List UInt8} (h : b.Holds v) (hnul : 0 ∉ w) :
    b.Holds w ↔ v.takeWhile (· ≠ 0) = w := by
  constructor
  · intro hw
    have hv := h.cString_eq (show v.length < v.length + w.length + 1 by omega)
    rw [← hv, hw.cString_eq (by omega), takeWhile_noNul hnul]
  · intro heq
    have hsplit : v.takeWhile (· ≠ 0) ++ v.dropWhile (· ≠ 0) = v := List.takeWhile_append_dropWhile
    rw [heq] at hsplit
    cases hrest : v.dropWhile (· ≠ 0) with
    | nil =>
        rw [hrest, List.append_nil] at hsplit
        rwa [hsplit]
    | cons x rest =>
        have hx : x = 0 := by
          have hhead := List.head?_dropWhile_not (fun x : UInt8 => decide (x ≠ 0)) v
          rw [hrest] at hhead
          simpa using hhead
        rw [hrest, hx] at hsplit
        have hend : v ++ [0] = w ++ [0] ++ (rest ++ [0]) := by rw [← hsplit]; simp
        exact h.of_append hend

/-! ## Overwriting -/

/-- What is written, and where, does not depend on the buffer. -/
def Overwrites (f : Buffer → Buffer) : Prop :=
  ∃ (new : ℕ → Option UInt8) (n : ℕ),
    ∀ b, f b = ⟨fun k => (new k).getD (b.bytes k), max b.top n⟩

theorem overwrites_id : Overwrites fun b => b :=
  ⟨fun _ => none, 0, fun b => by simp⟩

theorem overwrites_set (x : ℕ) (v : UInt8) : Overwrites fun b => b.set x v := by
  refine ⟨fun k => if k = x then some v else none, x + 1, fun b => ?_⟩
  simp only [set]
  congr 1
  funext k
  split_ifs <;> rfl

theorem Overwrites.comp {f f' : Buffer → Buffer} (h : Overwrites f) (h' : Overwrites f') :
    Overwrites fun b => f' (f b) := by
  obtain ⟨new, n, hf⟩ := h
  obtain ⟨new', n', hf'⟩ := h'
  refine ⟨fun k => (new' k).or (new k), max n n', fun b => ?_⟩
  simp only [hf', hf]
  congr 1
  · funext k
    cases new' k <;> rfl
  · exact Nat.max_assoc ..

theorem overwrites_foldl {β : Type*} {f : Buffer → β → Buffer}
    (h : ∀ x, Overwrites fun b => f b x) (xs : List β) : Overwrites fun b => xs.foldl f b := by
  induction xs with
  | nil => exact overwrites_id
  | cons x rest ih => exact (h x).comp ih

theorem overwrites_write (x : ℕ) (vs : List UInt8) : Overwrites fun b => b.write x vs := by
  induction vs generalizing x with
  | nil => exact overwrites_id
  | cons v rest ih => exact (overwrites_set x v).comp (ih (x + 1))

/-- **Overwriting twice** with the same is overwriting once. -/
theorem Overwrites.twice {f : Buffer → Buffer} (h : Overwrites f) (b : Buffer) :
    f (f b) = f b := by
  obtain ⟨new, n, hf⟩ := h
  rw [hf (f b), hf b]
  congr 1
  · funext k
    show (new k).getD ((new k).getD (b.bytes k)) = (new k).getD (b.bytes k)
    cases new k <;> rfl
  · rw [Nat.max_assoc, Nat.max_self]

end Buffer

/-! ## Loops -/

/-- The values of `j` in `for (j = start; j < stop; j += step)`, for `step > 0`. -/
def forRange (start stop step : ℕ) : List ℕ :=
  List.range' start ((stop - start + step - 1) / step) step

/-- A loop stays below `n` if it is empty, or its last index does. -/
theorem forall_forRange_lt {start stop step n : ℕ} (hstep : 0 < step) :
    (∀ k ∈ forRange start stop step, k < n) ↔
      stop ≤ start ∨ start + step * ((stop - start - 1) / step) < n := by
  unfold forRange
  rcases Nat.lt_or_ge start stop with hlt | hge
  · have hcount : (stop - start + step - 1) / step = (stop - start - 1) / step + 1 := by
      rw [show stop - start + step - 1 = stop - start - 1 + step by omega,
        Nat.add_div_right _ hstep]
    rw [hcount]
    simp only [List.mem_range', show ¬ stop ≤ start by omega, false_or]
    constructor
    · intro h
      exact h _ ⟨_, Nat.lt_succ_self _, rfl⟩
    · rintro h k ⟨m, hm, rfl⟩
      have hle : step * m ≤ step * ((stop - start - 1) / step) :=
        Nat.mul_le_mul_left step (Nat.le_of_lt_succ hm)
      omega
  · have hcount : (stop - start + step - 1) / step = 0 := by
      rw [Nat.div_eq_zero_iff]
      omega
    rw [hcount]
    exact iff_of_true nofun (Or.inl hge)

/-- `x = 0; for (j in js) b[x++] = src[j];` gives the final `x` and `b`. -/
def copyLoop (src : ℕ → UInt8) (b : Buffer) (js : List ℕ) : ℕ × Buffer :=
  js.foldl (fun s j => (s.1 + 1, s.2.set s.1 (src j))) (0, b)

theorem copyLoop_eq (src : ℕ → UInt8) (b : Buffer) (js : List ℕ) :
    copyLoop src b js = (js.length, b.write 0 (js.map src)) := by
  have hfold : ∀ (js : List ℕ) (x : ℕ) (b : Buffer),
      js.foldl (fun s j => (s.1 + 1, s.2.set s.1 (src j))) (x, b) =
        (x + js.length, b.write x (js.map src)) := by
    intro js
    induction js with
    | nil => intro x b; rfl
    | cons j rest ih =>
        intro x b
        simp only [List.foldl_cons, ih, List.map_cons, Buffer.write, List.length_cons]
        congr 1
        omega
  simpa [copyLoop] using hfold js 0 b

theorem copyLoop_terminated (src : ℕ → UInt8) (b : Buffer) (js : List ℕ) :
    (copyLoop src b js).2.set (copyLoop src b js).1 0 = b.putString (js.map src) := by
  rw [copyLoop_eq, Buffer.putString, Buffer.write_append]
  simp [Buffer.write]

theorem map_forRange_one (src : ℕ → UInt8) (start n : ℕ) :
    (forRange start (start + n) 1).map src = slice src start n := by
  unfold forRange slice
  rw [show (start + n - start + 1 - 1) / 1 = n by omega, List.range'_eq_map_range, List.map_map]
  simp [Function.comp_def]

/-- The bytes at the odd positions. -/
def oddBytes : List UInt8 → List UInt8
  | _ :: b :: rest => b :: oddBytes rest
  | _ => []

/-- A loop with stride two that starts one past the start of a slice reads its
odd positions. -/
theorem map_forRange_two (src : ℕ → UInt8) (start n : ℕ) :
    (forRange (start + 1) (start + n) 2).map src = oddBytes (slice src start n) := by
  induction n using Nat.strongRecOn generalizing start with
  | ind n ih =>
      match n with
      | 0 => simp [forRange, slice, oddBytes]
      | 1 => simp [forRange, slice, oddBytes]
      | n + 2 =>
          have hrest := ih n (by omega) (start + 2)
          have hstep : forRange (start + 1) (start + (n + 2)) 2 =
              (start + 1) :: forRange (start + 2 + 1) (start + 2 + n) 2 := by
            unfold forRange
            rw [show (start + (n + 2) - (start + 1) + 2 - 1) / 2 =
              (start + 2 + n - (start + 2 + 1) + 2 - 1) / 2 + 1 by omega, List.range'_succ]
          have hslice : slice src start (n + 2) =
              src start :: src (start + 1) :: slice src (start + 2) n := by
            rw [show n + 2 = 2 + n by omega, slice_add]
            rfl
          rw [hstep, hslice, List.map_cons, hrest, oddBytes]

end CMemory
