import HydroponicCloset.Lib.Crc

/-!
# Errors that a cyclic redundancy check detects

The check is linear: that of a message with errors is that of the message, with the check
of the errors added (`feed_errors`).  So an error pattern is detected if and only if its
own check, from zero on, is not zero.

The generator moves a register other than zero to another such register
(`shifts_ne_zero`), so what comes before and after the errors plays no part.  From this
follow three kinds of patterns that are detected.

* Bursts: all errors lie within as many bits as the register has (`burst_ne_zero`).
* Odd numbers of errors, if the generator has an even number of terms (`odd_ne_zero`): the
  parity of the register is that of the bits it has taken.
* Two errors, if the register does not come back to the generator within the length of the
  message (`pair_ne_zero`).
-/

namespace Crc

variable {w : ℕ} {generator : BitVec w}

/-! ## Linearity -/

theorem xor_xor_xor (a b c d : BitVec w) : a ^^^ b ^^^ (c ^^^ d) = a ^^^ c ^^^ (b ^^^ d) := by
  rw [BitVec.xor_assoc, BitVec.xor_assoc, ← BitVec.xor_assoc b, BitVec.xor_comm b c,
    BitVec.xor_assoc c]

theorem bitStep_add (generator a b : BitVec w) (x y : Bool) :
    bitStep generator (a ^^^ b) (x ^^ y) = bitStep generator a x ^^^ bitStep generator b y := by
  have hbit : ((a ^^^ b).getLsbD 0 ^^ (x ^^ y)) = ((a.getLsbD 0 ^^ x) ^^ (b.getLsbD 0 ^^ y)) := by
    rw [BitVec.getLsbD_xor]
    cases a.getLsbD 0 <;> cases b.getLsbD 0 <;> cases x <;> cases y <;> rfl
  rw [bitStep, bitStep, bitStep, hbit, BitVec.ushiftRight_xor_distrib]
  cases a.getLsbD 0 ^^ x <;> cases b.getLsbD 0 ^^ y
  · rfl
  · exact BitVec.xor_assoc ..
  · show a >>> 1 ^^^ b >>> 1 ^^^ generator = a >>> 1 ^^^ generator ^^^ b >>> 1
    rw [BitVec.xor_assoc, BitVec.xor_assoc, BitVec.xor_comm generator]
  · show a >>> 1 ^^^ b >>> 1 = a >>> 1 ^^^ generator ^^^ (b >>> 1 ^^^ generator)
    rw [xor_xor_xor, BitVec.xor_self, BitVec.xor_zero]

theorem feed_add (generator a b : BitVec w) {bits errors : List Bool}
    (h : bits.length = errors.length) :
    feed generator (a ^^^ b) (List.zipWith xor bits errors) =
      feed generator a bits ^^^ feed generator b errors := by
  induction bits generalizing a b errors with
  | nil =>
      obtain rfl := List.length_eq_zero_iff.mp h.symm
      rfl
  | cons x rest ih =>
      cases errors with
      | nil => cases h
      | cons y errors =>
          show feed generator (bitStep generator (a ^^^ b) (x ^^ y))
              (List.zipWith xor rest errors) =
            feed generator (bitStep generator a x) rest ^^^
              feed generator (bitStep generator b y) errors
          rw [bitStep_add]
          exact ih _ _ (Nat.succ.inj h)

/-- The bits in which two messages differ. -/
def differences (sent received : List Bool) : List Bool := List.zipWith xor sent received

/-- **The check of a message with errors.** -/
theorem feed_errors (generator crc : BitVec w) {sent received : List Bool}
    (h : sent.length = received.length) :
    feed generator crc received =
      feed generator crc sent ^^^ feed generator 0#w (differences sent received) := by
  have hlength : sent.length = (differences sent received).length := by
    rw [differences, List.length_zipWith, h, Nat.min_self]
  have hreceived : List.zipWith xor sent (differences sent received) = received := by
    unfold differences
    clear hlength
    induction sent generalizing received with
    | nil =>
        obtain rfl := List.length_eq_zero_iff.mp h.symm
        rfl
    | cons x rest ih =>
        cases received with
        | nil => cases h
        | cons y received =>
            have hbit : (x ^^ (x ^^ y)) = y := by cases x <;> cases y <;> rfl
            rw [List.zipWith_cons_cons, List.zipWith_cons_cons, hbit, ih (Nat.succ.inj h)]
  have hsum := feed_add generator crc 0#w hlength
  rwa [hreceived, BitVec.xor_zero] at hsum

/-! ## Bursts -/

/-- The generator has its constant term, so that no register but zero is shifted to zero. -/
theorem bitStep_eq_zero (htop : generator.getLsbD (w - 1) = true) {crc : BitVec w} {bit : Bool}
    (h : bitStep generator crc bit = 0#w) : crc >>> 1 = 0#w ∧ crc.getLsbD 0 = bit := by
  unfold bitStep at h
  split_ifs at h with hbit
  · -- the top bit of the register moves down, and the generator's is added
    have hw := BitVec.lt_of_getLsbD htop
    have hbits := congrArg (fun x : BitVec w => x.getLsbD (w - 1)) h
    have hshifted : (crc >>> 1).getLsbD (w - 1) = false := by
      rw [BitVec.getLsbD_ushiftRight]
      exact BitVec.getLsbD_of_ge _ _ (by omega)
    rw [BitVec.getLsbD_xor, hshifted, htop, BitVec.getLsbD_zero] at hbits
    cases hbits
  · refine ⟨h, ?_⟩
    cases hcrc : crc.getLsbD 0 <;> cases bit <;> simp [hcrc] at hbit ⊢

theorem eq_zero_of_ushiftRight {crc : BitVec w} (hshift : crc >>> 1 = 0#w)
    (hlow : crc.getLsbD 0 = false) : crc = 0#w := by
  apply BitVec.eq_of_getLsbD_eq
  intro i hi
  rw [BitVec.getLsbD_zero]
  cases i with
  | zero => exact hlow
  | succ i =>
      have hbit := congrArg (fun x : BitVec w => x.getLsbD i) hshift
      rw [BitVec.getLsbD_ushiftRight, BitVec.getLsbD_zero, Nat.add_comm] at hbit
      exact hbit

theorem shifts_ne_zero (htop : generator.getLsbD (w - 1) = true) {crc : BitVec w}
    (h : crc ≠ 0#w) (n : ℕ) : shifts generator n crc ≠ 0#w := by
  induction n with
  | zero => exact h
  | succ n ih =>
      intro hzero
      obtain ⟨hshift, hlow⟩ := bitStep_eq_zero htop hzero
      exact ih (eq_zero_of_ushiftRight hshift hlow)

/-- Zeros before and after some bits. -/
theorem feed_padded (generator : BitVec w) (before after : ℕ) (bits : List Bool) :
    feed generator 0#w (List.replicate before false ++ bits ++ List.replicate after false) =
      shifts generator after (feed generator 0#w bits) := by
  have hbefore : feed generator 0#w (List.replicate before false) = 0#w := by
    rw [feed_zeros, shifts_zero]
  rw [feed_append, feed_append, hbefore, feed_zeros]

/-- A word with these low bits and no others. -/
theorem exists_lowBits {bits : List Bool} (h : bits.length ≤ w) :
    ∃ x : BitVec w, lowBits x bits.length = bits ∧ x >>> bits.length = 0#w := by
  refine ⟨(BitVec.ofBoolListLE bits).setWidth w, ?_, ?_⟩
  · apply List.ext_getElem (by simp [lowBits])
    intro i _ hi
    have hlt : i < w := Nat.lt_of_lt_of_le hi h
    simp only [lowBits, List.getElem_map, List.getElem_range]
    rw [BitVec.getLsbD_setWidth, decide_eq_true hlt, Bool.true_and, BitVec.getLsbD_ofBoolListLE,
      List.getD_eq_getElem?_getD, List.getElem?_eq_getElem hi, Option.getD_some]
  · apply BitVec.eq_of_getLsbD_eq
    intro i _
    simp

/-- **Bursts** no longer than the register. -/
theorem burst_ne_zero (htop : generator.getLsbD (w - 1) = true) {burst : List Bool}
    (hlength : burst.length ≤ w) (herror : true ∈ burst) (before after : ℕ) :
    feed generator 0#w (List.replicate before false ++ burst ++ List.replicate after false) ≠
      0#w := by
  obtain ⟨x, hbits, hhigh⟩ := exists_lowBits hlength
  have hx : x ≠ 0#w := by
    rintro rfl
    rw [← hbits] at herror
    simp [lowBits] at herror
  have hfed : feed generator 0#w burst = shifts generator burst.length x := by
    have hlow := feed_lowBits generator 0#w x burst.length
    rwa [hbits, hhigh, BitVec.xor_zero, BitVec.zero_xor] at hlow
  rw [feed_padded, hfed]
  exact shifts_ne_zero htop (shifts_ne_zero htop hx _) _

/-! ## Odd numbers of errors -/

/-- Whether an odd number of bits is set. -/
def parity (bits : List Bool) : Bool := bits.foldr xor false

theorem parity_append (first second : List Bool) :
    parity (first ++ second) = (parity first ^^ parity second) := by
  induction first with
  | nil => exact (Bool.false_xor _).symm
  | cons x rest ih =>
      show (x ^^ parity (rest ++ second)) = ((x ^^ parity rest) ^^ parity second)
      rw [ih, Bool.xor_assoc]

theorem parity_iff {bits : List Bool} : parity bits = true ↔ bits.count true % 2 = 1 := by
  induction bits with
  | nil => decide
  | cons x rest ih =>
      show (x ^^ parity rest) = true ↔ _
      cases x with
      | true =>
          rw [List.count_cons_self, Bool.true_xor, Bool.not_eq_true', ← Bool.not_eq_true, ih]
          omega
      | false =>
          rw [List.count_cons_of_ne (by simp), Bool.false_xor, ih]

theorem parity_xor (f g : ℕ → Bool) (is : List ℕ) :
    parity (is.map fun i => f i ^^ g i) = (parity (is.map f) ^^ parity (is.map g)) := by
  induction is with
  | nil => rfl
  | cons i rest ih =>
      show ((f i ^^ g i) ^^ parity (rest.map fun i => f i ^^ g i)) =
        ((f i ^^ parity (rest.map f)) ^^ (g i ^^ parity (rest.map g)))
      rw [ih, Bool.xor_assoc, Bool.xor_assoc, Bool.xor_left_comm (g i)]

/-- The parity of a register. -/
def registerParity (crc : BitVec w) : Bool := parity (lowBits crc w)

theorem registerParity_zero : registerParity 0#w = false := by
  have hzeros : lowBits 0#w w = List.replicate w false := by
    rw [List.eq_replicate_iff]
    simp [lowBits]
  have hcount : (List.replicate w false).count true % 2 = 0 := by
    simp [List.count_replicate]
  rw [registerParity, hzeros, ← Bool.not_eq_true, parity_iff, hcount]
  decide

theorem registerParity_xor (a b : BitVec w) :
    registerParity (a ^^^ b) = (registerParity a ^^ registerParity b) := by
  have hbits : lowBits (a ^^^ b) w = (List.range w).map fun i => a.getLsbD i ^^ b.getLsbD i := by
    apply List.map_congr_left
    intro i _
    exact BitVec.getLsbD_xor
  rw [registerParity, hbits, parity_xor]
  rfl

/-- The lowest bit leaves the register. -/
theorem registerParity_shift (crc : BitVec w) :
    registerParity (crc >>> 1) = (registerParity crc ^^ crc.getLsbD 0) := by
  cases w with
  | zero =>
      have hlow : crc.getLsbD 0 = false := BitVec.getLsbD_of_ge _ _ (Nat.le_refl 0)
      rw [hlow, Bool.xor_false]
      rfl
  | succ n =>
      have htop : (crc >>> 1).getLsbD n = false := by
        rw [BitVec.getLsbD_ushiftRight]
        exact BitVec.getLsbD_of_ge _ _ (by omega)
      have hshifted : lowBits (crc >>> 1) n = (List.range n).map fun i => crc.getLsbD (i + 1) := by
        apply List.map_congr_left
        intro i _
        rw [BitVec.getLsbD_ushiftRight, Nat.add_comm 1 i]
      have hwhole : lowBits crc (n + 1) =
          crc.getLsbD 0 :: (List.range n).map fun i => crc.getLsbD (i + 1) := by
        rw [lowBits, List.range_succ_eq_map, List.map_cons, List.map_map]
        rfl
      rw [registerParity, lowBits_succ, htop, hshifted, parity_append, registerParity, hwhole]
      show (parity _ ^^ false) = ((crc.getLsbD 0 ^^ parity _) ^^ crc.getLsbD 0)
      rw [Bool.xor_false, Bool.xor_comm (crc.getLsbD 0), Bool.xor_assoc, Bool.xor_self,
        Bool.xor_false]

/-- Together with `x ^ w` the generator has an even number of terms. -/
theorem registerParity_bitStep (hodd : registerParity generator = true) (crc : BitVec w)
    (bit : Bool) : registerParity (bitStep generator crc bit) = (registerParity crc ^^ bit) := by
  unfold bitStep
  split_ifs with hbit
  · have hlow : crc.getLsbD 0 = !bit := by
      cases bit <;> simpa using hbit
    rw [registerParity_xor, registerParity_shift, hodd, hlow, Bool.xor_true, Bool.xor_not,
      Bool.not_not]
  · have hlow : crc.getLsbD 0 = bit := by
      cases bit <;> simpa using hbit
    rw [registerParity_shift, hlow]

theorem registerParity_feed (hodd : registerParity generator = true) (crc : BitVec w)
    (bits : List Bool) :
    registerParity (feed generator crc bits) = (registerParity crc ^^ parity bits) := by
  induction bits generalizing crc with
  | nil => exact (Bool.xor_false _).symm
  | cons bit rest ih =>
      show registerParity (feed generator (bitStep generator crc bit) rest) = _
      rw [ih, registerParity_bitStep hodd, Bool.xor_assoc]
      rfl

/-- **Odd numbers of errors.** -/
theorem odd_ne_zero (hodd : registerParity generator = true) {errors : List Bool}
    (h : errors.count true % 2 = 1) : feed generator 0#w errors ≠ 0#w := by
  intro hzero
  have hparity := registerParity_feed hodd 0#w errors
  rw [hzero, registerParity_zero, Bool.false_xor, parity_iff.mpr h] at hparity
  cases hparity

/-! ## Two errors -/

theorem eq_replicate_of_count {bits : List Bool} (h : bits.count true = 0) :
    bits = List.replicate bits.length false := by
  rw [List.eq_replicate_iff]
  refine ⟨rfl, fun bit hbit => ?_⟩
  cases bit with
  | false => rfl
  | true => exact absurd hbit (List.count_eq_zero.mp h)

/-- The first bit that is set. -/
theorem exists_first {bits : List Bool} {n : ℕ} (h : bits.count true = n + 1) :
    ∃ before rest, bits = List.replicate before false ++ true :: rest ∧ rest.count true = n := by
  have hmem : true ∈ bits := List.count_pos_iff.mp (by omega)
  obtain ⟨first, rest, rfl, hfirst⟩ := List.eq_append_cons_of_mem hmem
  have hzero : first.count true = 0 := List.count_eq_zero.mpr hfirst
  refine ⟨first.length, rest, by rw [← eq_replicate_of_count hzero], ?_⟩
  rw [List.count_append, List.count_cons_self, hzero] at h
  omega

/-- **Two errors** that are not further apart than the register stays away from one. -/
theorem pair_ne_zero (htop : generator.getLsbD (w - 1) = true) {errors : List Bool}
    (hreturn : ∀ k < errors.length, shifts generator k generator ≠ 1#w)
    (h : errors.count true = 2) : feed generator 0#w errors ≠ 0#w := by
  obtain ⟨before, rest, rfl, hrest⟩ := exists_first h
  obtain ⟨between, last, rfl, hlast⟩ := exists_first hrest
  have hafter := eq_replicate_of_count hlast
  have hbetween := hreturn between (by simp; omega)
  have hsplit : List.replicate before false ++
        true :: (List.replicate between false ++ true :: last) =
      List.replicate before false ++ (true :: (List.replicate between false ++ [true])) ++
        List.replicate last.length false := by
    rw [← hafter]
    simp
  have hfirst : bitStep generator 0#w true = generator := by
    simp [bitStep]
  have hpair : feed generator 0#w (true :: (List.replicate between false ++ [true])) =
      bitStep generator (shifts generator between generator) true := by
    show feed generator (bitStep generator 0#w true) (List.replicate between false ++ [true]) = _
    rw [hfirst, feed_append, feed_zeros]
    rfl
  rw [hsplit, feed_padded, hpair]
  apply shifts_ne_zero htop
  intro hzero
  obtain ⟨hshift, hlow⟩ := bitStep_eq_zero htop hzero
  apply hbetween
  apply BitVec.eq_of_getLsbD_eq
  intro i hi
  cases i with
  | zero =>
      rw [hlow]
      simp [hi]
  | succ i =>
      have hbit := congrArg (fun x : BitVec w => x.getLsbD i) hshift
      rw [BitVec.getLsbD_ushiftRight, BitVec.getLsbD_zero, Nat.add_comm] at hbit
      rw [hbit]
      simp

/-- The register stays away from a word for some steps. -/
def avoids (generator word : BitVec w) : ℕ → BitVec w → Bool
  | 0, _ => true
  | n + 1, crc => crc ≠ word && avoids generator word n (bitStep generator crc false)

theorem shifts_bitStep (generator crc : BitVec w) (n : ℕ) :
    shifts generator n (bitStep generator crc false) = shifts generator (n + 1) crc := by
  induction n with
  | zero => rfl
  | succ n ih =>
      rw [shifts, ih]
      rfl

theorem shifts_ne_of_avoids {word crc : BitVec w} {n : ℕ}
    (h : avoids generator word n crc = true) {k : ℕ} (hk : k < n) :
    shifts generator k crc ≠ word := by
  induction n generalizing crc k with
  | zero => omega
  | succ n ih =>
      obtain ⟨hne, hrest⟩ := Bool.and_eq_true_iff.mp h
      cases k with
      | zero => exact of_decide_eq_true hne
      | succ k =>
          rw [← shifts_bitStep]
          exact ih hrest (by omega)

end Crc
