import HydroponicCloset.Lib.Progress
import HydroponicCloset.Safety.Reads

/-!
# Whether the header loop ends

The header loop of `obex_ftp` has no increment of its own.  It moves by a fixed number of
bytes at four kinds of headers, by a length that it takes from the packet at three more,
and at any other byte not at all.  So it is a loop that only moves forward, and it ends
exactly if it moves at every position that it comes to (`put_ends_iff`): at a byte that is
no header, and at a header that claims to have no bytes, it stays forever.
-/

namespace HydroponicCloset.Safety

open CMemory Wire Bluetooth Obex Progress

/-- Where the loop goes on from `i`. -/
def nextAt (packet : Packet) (i : ℕ) : ℕ := (headerAt packet i).elim i Prod.snd

/-- At `i` is a header of a fixed length, or one that claims to have some bytes. -/
def Advances (packet : Packet) (i : ℕ) : Prop :=
  packet i ∈ [0xcb, 0xc3, 0x97, 0x49] ∨
    packet i ∈ [0x01, 0x48, 0x42] ∧ word (packet (i + 1)) (packet (i + 2)) ≠ 0

instance (packet : Packet) (i : ℕ) : Decidable (Advances packet i) :=
  inferInstanceAs (Decidable (_ ∨ _))

variable {packet : Packet} {i : ℕ}

theorem putHeader_i (packet : Packet) (s : PutState) :
    (putHeader packet s).i = nextAt packet s.i :=
  putHeader_position packet s

theorem le_nextAt (packet : Packet) (i : ℕ) : i ≤ nextAt packet i := by
  unfold nextAt headerAt
  dsimp only
  split_ifs <;> simp

theorem advances_iff : Advances packet i ↔ i < nextAt packet i := by
  have hlen : word (packet (i + 1)) (packet (i + 2)) ≠ 0 ↔
      0 < (word (packet (i + 1)) (packet (i + 2))).toNat := by
    rw [Nat.pos_iff_ne_zero, Ne, Ne, ← UInt16.toNat_inj]
    rfl
  unfold Advances nextAt headerAt
  dsimp only
  rw [hlen]
  split_ifs <;> simp [*]

/-- The positions of the loop. -/
theorem visits_iff : Visits packet i ↔ Comes (nextAt packet) 14 (packet.len.toNat - 2) i := by
  constructor
  · rintro ⟨hpath, hmore⟩
    refine ⟨by omega, ?_⟩
    clear hmore
    induction hpath with
    | refl => exact ⟨0, rfl⟩
    | tail _ hnext ih =>
        obtain ⟨k, rfl⟩ := ih
        obtain ⟨-, h, hfound⟩ := hnext
        refine ⟨k + 1, ?_⟩
        rw [Function.iterate_succ_apply', nextAt, hfound]
        rfl
  · rintro ⟨hmore, k, rfl⟩
    refine ⟨?_, by omega⟩
    induction k with
    | zero => exact .refl
    | succ k ih =>
        rw [Function.iterate_succ_apply'] at hmore ⊢
        have hbefore := le_nextAt packet ((nextAt packet)^[k] 14)
        have hpath := ih (by omega)
        cases hfound : headerAt packet ((nextAt packet)^[k] 14) with
        | none =>
            rw [nextAt, hfound]
            exact hpath
        | some found =>
            refine hpath.tail ⟨by omega, found.1, ?_⟩
            rw [nextAt, hfound]
            rfl

/-- The loop has ended if its position has reached the end. -/
theorem putLoop_isSome_iff {fuel : ℕ} {s : PutState} :
    (putLoop packet fuel s).isSome ↔
      ∃ k ≤ fuel, packet.len.toNat - 2 ≤ (nextAt packet)^[k] s.i := by
  induction fuel generalizing s with
  | zero =>
      rw [putLoop]
      split_ifs with hmore
      · simp
        omega
      · simp
        omega
  | succ fuel ih =>
      rw [putLoop]
      split_ifs with hmore
      · rw [ih, putHeader_i]
        constructor
        · rintro ⟨k, hk, hend⟩
          exact ⟨k + 1, Nat.succ_le_succ hk, hend⟩
        · rintro ⟨k, hk, hend⟩
          cases k with
          | zero =>
              rw [Function.iterate_zero_apply] at hend
              omega
          | succ k => exact ⟨k, Nat.le_of_succ_le_succ hk, hend⟩
      · exact iff_of_true rfl ⟨0, Nat.zero_le _, by rw [Function.iterate_zero_apply]; omega⟩

/-- `len` iterations are as good as any number. -/
theorem putLoop_len {g : Globals} {fuel : ℕ}
    (h : (putLoop packet fuel (putStart g packet)).isSome) :
    (putLoop packet packet.len.toNat (putStart g packet)).isSome := by
  obtain ⟨k, -, hend⟩ := putLoop_isSome_iff.mp h
  have hmoves := (ends_iff (le_nextAt packet)).mp ⟨k, hend⟩
  exact putLoop_isSome_iff.mpr ⟨_, by omega, ends_within (le_nextAt packet) hmoves⟩

/-- **The header loop ends** after some number of iterations if and only if every position
that it comes to is one at which it advances. -/
theorem put_ends_iff (g : Globals) (packet : Packet) :
    (∃ fuel, (putLoop packet fuel (putStart g packet)).isSome) ↔
      ∀ i, Visits packet i → Advances packet i := by
  have hends := ends_iff (a := 14) (n := packet.len.toNat - 2) (le_nextAt packet)
  simp only [visits_iff, advances_iff]
  rw [← hends]
  constructor
  · rintro ⟨fuel, hsome⟩
    obtain ⟨k, -, hend⟩ := putLoop_isSome_iff.mp hsome
    exact ⟨k, hend⟩
  · rintro ⟨k, hend⟩
    exact ⟨k, putLoop_isSome_iff.mpr ⟨k, le_refl k, hend⟩⟩

/-- A PUT I-frame with a header that gives the time of the file. -/
def timePut : Packet :=
  .ofBytes [2, 0, 0, 0, 0, 0, 0, 0x41, 0, 0, 0, 0x82, 0, 0, 0x44, 0, 3, 0, 0]

theorem put_never_ends :
    RunsLoop timePut ∧ ∀ fuel, ¬ (putLoop timePut fuel (putStart initial timePut)).isSome := by
  refine ⟨by decide, fun fuel => ?_⟩
  have hfound : headerAt timePut 14 = none := by decide
  have hhangs : putLoop timePut fuel (putStart initial timePut) = none :=
    putLoop_eq_none hfound (by decide) fuel
  simp [hhangs]

end HydroponicCloset.Safety
