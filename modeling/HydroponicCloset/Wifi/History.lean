import HydroponicCloset.Wifi.Station

/-!
# What a history says

The counter of the retries and the bits of the event group can be read off what has happened,
whether this is a list of events or one of single runs of the handler.  So the list is over any
type here, and what matters in it are three of its elements: `init` begins an attempt, `gotIp`
sets the connected bit and gives the retries back, and `lost` takes a retry, or sets the
fail bit when there is none left.
-/

namespace HydroponicCloset.Wifi

variable {α : Type} [DecidableEq α]

/-- The events after the latest `mark`, the latest first. -/
def since (mark : α) (events : List α) : List α :=
  events.reverse.takeWhile (· ≠ mark)

theorem since_concat (mark event : α) (events : List α) :
    since mark (events ++ [event]) =
      if event = mark then [] else event :: since mark events := by
  unfold since
  rw [List.reverse_append, List.reverse_singleton, List.singleton_append, List.takeWhile_cons]
  by_cases h : event = mark <;> simp [h]

theorem since_self (mark : α) (events : List α) : since mark (events ++ [mark]) = [] := by
  rw [since_concat, if_pos rfl]

theorem mem_since_other {mark event : α} (h : event ≠ mark) (x : α) (events : List α) :
    x ∈ since mark (events ++ [event]) ↔ x = event ∨ x ∈ since mark events := by
  rw [since_concat, if_neg h, List.mem_cons]

theorem since_append {mark : α} {rest : List α} (h : mark ∉ rest) (events : List α) :
    since mark (events ++ rest) = rest.reverse ++ since mark events := by
  unfold since
  rw [List.reverse_append, List.takeWhile_append_of_pos]
  intro x hx
  have hne : x ≠ mark := by
    rintro rfl
    exact h (List.mem_reverse.mp hx)
  simpa using hne

/-- How often something has happened since the latest `mark`. -/
theorem count_since_concat (mark x event : α) (events : List α) :
    (since mark (events ++ [event])).count x =
      if event = mark then 0
      else if event = x then (since mark events).count x + 1
      else (since mark events).count x := by
  rw [since_concat]
  split_ifs with hmark hx
  · rfl
  · rw [hx, List.count_cons_self]
  · rw [List.count_cons_of_ne hx]

/-! ## The bits of an attempt -/

/-- The attempt has set a bit: it has had a got-IP event, or a loss beyond the retries. -/
def HasBit (init gotIp lost : α) (events : List α) : Prop :=
  gotIp ∈ since init events ∨
    lost ∈ since init events ∧ maximumRetry < (since gotIp events).count lost

/-- As long as the attempt has had no got-IP event, the fail bit is set once a loss has come
beyond the retries. -/
def Fails (init gotIp lost : α) (events : List α) (failBit : Bool) : Prop :=
  gotIp ∉ since init events →
    (failBit = true ↔
      lost ∈ since init events ∧ maximumRetry < (since gotIp events).count lost)

variable {init gotIp lost event : α} {events : List α} {failBit : Bool}

theorem hasBit_iff {connectedBit : Bool}
    (hconnected : connectedBit = true ↔ gotIp ∈ since init events)
    (hfails : Fails init gotIp lost events failBit) :
    connectedBit = true ∨ failBit = true ↔ HasBit init gotIp lost events := by
  rw [HasBit, ← hconnected]
  by_cases hbit : connectedBit = true
  · exact iff_of_true (Or.inl hbit) (Or.inl hbit)
  · exact or_congr_right (hfails fun hmem => hbit (hconnected.mpr hmem))

/-- Within an attempt a bit stays set. -/
theorem HasBit.concat (h : HasBit init gotIp lost events) (hinit : event ≠ init) :
    HasBit init gotIp lost (events ++ [event]) := by
  by_cases hgotIp : event = gotIp
  · rw [HasBit, mem_since_other hinit]
    exact Or.inl (Or.inl hgotIp.symm)
  · rw [HasBit, mem_since_other hinit, mem_since_other hinit]
    refine h.imp Or.inr ?_
    rintro ⟨hmem, hmany⟩
    refine ⟨Or.inr hmem, ?_⟩
    rw [count_since_concat, if_neg hgotIp]
    split_ifs
    · exact Nat.lt_succ_of_lt hmany
    · exact hmany

/-- Nothing is set at the beginning of an attempt. -/
theorem fails_init : Fails init gotIp lost (events ++ [init]) false := by
  intro _
  rw [since_self]
  exact iff_of_false (by simp) (by simp)

theorem fails_gotIp (hinit : gotIp ≠ init) : Fails init gotIp lost (events ++ [gotIp]) failBit :=
  fun hnone => absurd ((mem_since_other hinit gotIp events).mpr (Or.inl rfl)) hnone

/-- A loss beyond the retries sets the fail bit. -/
theorem fails_lost (hinit : lost ≠ init) (hgotIp : lost ≠ gotIp)
    (hspent : maximumRetry ≤ (since gotIp events).count lost) :
    Fails init gotIp lost (events ++ [lost]) true := by
  intro _
  refine iff_of_true rfl ⟨(mem_since_other hinit lost events).mpr (Or.inl rfl), ?_⟩
  rw [count_since_concat, if_neg hgotIp, if_pos rfl]
  exact Nat.lt_succ_of_le hspent

/-- A loss that takes a retry leaves it. -/
theorem Fails.retry (h : Fails init gotIp lost events failBit) (hinit : lost ≠ init)
    (hgotIp : lost ≠ gotIp) (hretry : (since gotIp events).count lost < maximumRetry) :
    Fails init gotIp lost (events ++ [lost]) failBit := by
  intro hnone
  rw [mem_since_other hinit, not_or] at hnone
  rw [h hnone.2, count_since_concat, if_neg hgotIp, if_pos rfl]
  exact iff_of_false (fun hmany => by omega) fun hmany => by omega

theorem Fails.other (h : Fails init gotIp lost events failBit) (hinit : event ≠ init)
    (hgotIp : event ≠ gotIp) (hlost : event ≠ lost) :
    Fails init gotIp lost (events ++ [event]) failBit := by
  intro hnone
  rw [mem_since_other hinit, not_or] at hnone
  rw [h hnone.2, mem_since_other hinit, or_iff_right (Ne.symm hlost), count_since_concat,
    if_neg hgotIp, if_neg hlost]

end HydroponicCloset.Wifi
