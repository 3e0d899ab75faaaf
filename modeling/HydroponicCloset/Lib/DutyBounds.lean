import HydroponicCloset.Lib.DutyCycle

/-!
# Duty cycles that are looked after

`DutyCycle` bounds from below how long a device stays on and off.  If the passes come
often enough there are bounds from above too: with a delay of at most `d` from one pass
to the next, and within a pass, every switch is decided within `d` of the limit
(`Punctual.pass`).  So the device is switched on at a steady rate (`Punctual.span`).

Without any such bound, it is still switched on and off again and again, if the passes go
on and the clock does (`Tended.exists_switch`).
-/

namespace DutyCycle

/-- `b` is decided soon after `a` has lasted for its limit. -/
def Soon (limits : Limits) (d : ℤ) (a b : Switch) : Prop :=
  b.reading - a.stored ≤ limits.of a.on + d

/-- The switches so far, when the latest check has read `reading`. -/
structure Punctual (limits : Limits) (d : ℤ) (log : List Switch) (c : Cycle) (reading : ℤ) :
    Prop where
  chain : log.IsChain (Soon limits d)
  quick : ∀ s ∈ log, s.stored ≤ s.reading + d
  fresh : log ≠ [] → reading - c.since ≤ limits.of c.on

variable {limits : Limits} {clock : Clock} {log : List Switch} {c : Cycle} {d r : ℤ}

theorem punctual_nil : Punctual limits d [] c r := ⟨.nil, by simp, by simp⟩

theorem Punctual.mono {r' : ℤ} (h : Punctual limits d log c r) (hle : r' ≤ r) :
    Punctual limits d log c r' :=
  ⟨h.chain, h.quick, fun hne => (sub_le_sub_right hle _).trans (h.fresh hne)⟩

/-- Both limits are times. -/
def Limits.Nonneg (limits : Limits) : Prop := ∀ on, 0 ≤ limits.of on

/-- A check at most `d` after the latest one. -/
theorem Punctual.check {p : Pass} (hlimits : limits.Nonneg)
    (hkept : Kept limits (log ++ p.switches) p.cycle)
    (h : Punctual limits d (log ++ p.switches) p.cycle r)
    (hsoon : log ++ p.switches ≠ [] → clock p.reads ≤ r + d)
    (hnext : clock p.reads ≤ clock (p.reads + 1))
    (hquick : clock (p.reads + 1) ≤ clock p.reads + d) :
    Punctual limits d (log ++ (DutyCycle.check limits clock p).switches)
      (DutyCycle.check limits clock p).cycle (clock p.reads) := by
  unfold DutyCycle.check
  split_ifs with hdue
  · rw [← List.append_assoc]
    refine ⟨?_, ?_, fun _ => ?_⟩
    · rw [List.isChain_append]
      refine ⟨h.chain, .singleton _, ?_⟩
      intro s hs b hb
      obtain rfl : _ = b := Option.some.inj hb
      obtain ⟨hon, hstored⟩ := hkept.latest s hs
      have hne : log ++ p.switches ≠ [] := by
        rintro hnil
        rw [hnil] at hs
        cases hs
      have hfresh := h.fresh hne
      have hreading := hsoon hne
      show clock p.reads - s.stored ≤ limits.of s.on + d
      rw [hon, hstored]
      omega
    · intro s hs
      rcases List.mem_append.mp hs with hs | hs
      · exact h.quick s hs
      · rw [List.mem_singleton.mp hs]
        exact hquick
    · have hnonneg := hlimits (p.cycle.switch (clock (p.reads + 1))).on
      dsimp only
      rw [Cycle.switch_since]
      omega
  · refine ⟨h.chain, h.quick, fun _ => ?_⟩
    unfold Cycle.Due at hdue
    show clock p.reads - p.cycle.since ≤ limits.of p.cycle.on
    omega

/-- **A pass** at most `d` after the latest check. -/
theorem Punctual.pass (hlimits : limits.Nonneg) (hkept : Kept limits log c)
    (h : Punctual limits d log c r) (hclock : Monotone clock)
    (hspan : ∀ k, clock k ≤ clock 0 + d) (hsoon : log ≠ [] → clock 0 ≤ r + d) :
    Punctual limits d (log ++ (DutyCycle.pass limits clock c).switches)
      (DutyCycle.pass limits clock c).cycle (clock 0) := by
  have hquick : ∀ k, clock (k + 1) ≤ clock k + d := by
    intro k
    have hspan' := hspan (k + 1)
    have hzero := hclock (Nat.zero_le k)
    omega
  have hnext : ∀ k, clock k ≤ clock (k + 1) := fun k => hclock (Nat.le_succ k)
  have hkept' : Kept limits (log ++ (⟨c, 0, []⟩ : Pass).switches) (⟨c, 0, []⟩ : Pass).cycle := by
    simpa using hkept
  have hfirst : Punctual limits d (log ++ (DutyCycle.check limits clock ⟨c, 0, []⟩).switches)
      (DutyCycle.check limits clock ⟨c, 0, []⟩).cycle (clock 0) := by
    refine Punctual.check hlimits hkept' (by simpa using h) ?_ (hnext 0) (hquick 0)
    simpa using hsoon
  by_cases hc : c.on = true
  · by_cases hdue : c.Due limits (clock 0)
    · -- Switched off; the second check follows within the same pass.
      have hswitched : DutyCycle.check limits clock ⟨c, 0, []⟩ =
          ⟨c.switch (clock 1), 2, [⟨false, clock 0, clock 1⟩]⟩ := by
        simp [DutyCycle.check, hdue, hc]
      rw [pass_of_due hc hdue, ← hswitched]
      refine (Punctual.check hlimits hkept'.check hfirst (fun _ => hspan _) (hnext _)
        (hquick _)).mono (hclock (Nat.zero_le _))
    · have hsame : DutyCycle.check limits clock ⟨c, 0, []⟩ = ⟨c, 1, []⟩ := by
        simp [DutyCycle.check, hdue]
      rw [pass_of_on hc hdue, ← hsame]
      exact hfirst
  · rw [pass_of_off (Bool.eq_false_iff.mpr hc)]
    exact hfirst

/-! ## Rates -/

/-- The gaps between switches add up. -/
theorem chain_span {a : Switch} {rest : List Switch} (hchain : (a :: rest).IsChain (Soon limits d))
    (hquick : ∀ s ∈ a :: rest, s.stored ≤ s.reading + d) {last : Switch}
    (hlast : (a :: rest).getLast? = some last) {t : ℤ}
    (ht : t - last.stored ≤ limits.of last.on + 2 * d) :
    t - a.stored ≤ ((a :: rest).map fun s => limits.of s.on + 2 * d).sum := by
  induction rest generalizing a with
  | nil =>
      obtain rfl : a = last := by simpa using hlast
      simpa using ht
  | cons b rest ih =>
      obtain ⟨hsoon, hchain'⟩ := List.isChain_cons_cons.mp hchain
      obtain ⟨-, hquick'⟩ := List.forall_mem_cons.mp hquick
      have hrest := ih hchain' hquick' (by rwa [List.getLast?_cons_cons] at hlast)
      have hstored := hquick' b (List.mem_cons_self ..)
      unfold Soon at hsoon
      rw [List.map_cons, List.sum_cons]
      omega

/-- The gaps, by the two kinds of switches. -/
theorem sum_gaps (log : List Switch) :
    (log.map fun s => limits.of s.on + 2 * d).sum =
      (log.map Switch.on).count true * (limits.on + 2 * d) +
        (log.map Switch.on).count false * (limits.off + 2 * d) := by
  induction log with
  | nil => simp
  | cons s rest ih =>
      rw [List.map_cons, List.sum_cons, ih, List.map_cons]
      cases hs : s.on <;> simp [Limits.of] <;> ring

theorem count_starts (log : List Switch) :
    (log.map Switch.on).count true = (starts log).length := by
  rw [starts, ← List.countP_eq_length_filter, List.count, List.countP_map]
  congr 1
  funext s
  cases hs : s.on <;> simp [hs]

/-- A device that was off has been switched off no more often than on. -/
theorem Regular.count_le (h : Regular limits log) :
    (log.map Switch.on).count false ≤ (log.map Switch.on).count true := by
  cases log with
  | nil => simp
  | cons a rest =>
      have ha : a.on = true := h.first a rfl
      have hchain : ((a :: rest).map Switch.on).IsChain (· ≠ ·) := by
        rw [List.isChain_map]
        refine h.chain.imp fun x y hxy => ?_
        rw [hxy.1]
        cases x.on <;> decide
      rw [List.map_cons, ha] at hchain ⊢
      have hcount := List.IsChain.count_not_cons hchain
      rw [List.count_cons_self, List.count_cons_of_ne (by decide)]
      have hmod := Nat.mod_lt (rest.map Switch.on).length two_pos
      rw [Bool.not_true] at hcount
      omega

/-- **The rate from below.**  With `n` starts, at most `n` times the sum of the limits and
the delays has passed since the first. -/
theorem Punctual.span (hlimits : limits.Nonneg) (hd : 0 ≤ d) (h : Punctual limits d log c r)
    (hkept : Kept limits log c) {first : Switch} (hfirst : log.head? = some first) :
    r - first.stored ≤ (starts log).length * (limits.on + limits.off + 4 * d) := by
  cases log with
  | nil => cases hfirst
  | cons a rest =>
      obtain rfl : a = first := by simpa using hfirst
      obtain ⟨last, hlast⟩ : ∃ last, (a :: rest).getLast? = some last :=
        ⟨_, List.getLast?_eq_some_getLast (by simp)⟩
      obtain ⟨hon, hstored⟩ := hkept.latest last hlast
      have hfresh := h.fresh (by simp)
      rw [← hon, ← hstored] at hfresh
      have hsum := chain_span h.chain h.quick hlast (by omega : r - last.stored ≤ _ + 2 * d)
      rw [sum_gaps, count_starts] at hsum
      have hcount := hkept.regular.count_le
      rw [count_starts] at hcount
      have hoff : 0 ≤ limits.off + 2 * d := by
        have hnonneg : 0 ≤ limits.off := hlimits false
        omega
      have hstops : (((a :: rest).map Switch.on).count false : ℤ) * (limits.off + 2 * d) ≤
          (starts (a :: rest)).length * (limits.off + 2 * d) :=
        mul_le_mul_of_nonneg_right (by exact_mod_cast hcount) hoff
      calc r - a.stored
          ≤ (starts (a :: rest)).length * (limits.on + 2 * d) +
              ((a :: rest).map Switch.on).count false * (limits.off + 2 * d) := hsum
        _ ≤ (starts (a :: rest)).length * (limits.on + 2 * d) +
              (starts (a :: rest)).length * (limits.off + 2 * d) := by omega
        _ = (starts (a :: rest)).length * (limits.on + limits.off + 4 * d) := by ring

/-- Starts that are apart take their time. -/
theorem pairwise_span {gap : ℤ} (a : Switch) (rest : List Switch)
    (htimely : Timely (a :: rest))
    (hspaced : (a :: rest).Pairwise fun a b => b.reading - a.stored > gap) {t : ℤ}
    (ht : ∀ s ∈ a :: rest, s.stored ≤ t) : rest.length * gap ≤ t - a.stored := by
  induction rest generalizing a with
  | nil =>
      have hstored := ht a (List.mem_singleton.mpr rfl)
      simp
      omega
  | cons b rest ih =>
      obtain ⟨ha, hrest⟩ := List.pairwise_cons.mp hspaced
      have hgap := ha b (List.mem_cons_self ..)
      obtain ⟨-, htimely'⟩ := List.forall_mem_cons.mp htimely
      have hlater := ih b htimely' hrest fun s hs => ht s (List.mem_cons_of_mem _ hs)
      have hstored := htimely' b (List.mem_cons_self ..)
      rw [List.length_cons, Nat.cast_add, Nat.cast_one, add_mul, one_mul]
      omega

/-! ## Passes for ever -/

theorem cycle_of_not_due (hdue : ¬ c.Due limits (clock 0)) : (pass limits clock c).cycle = c := by
  cases hc : c.on with
  | true => rw [pass_of_on hc hdue]
  | false =>
      rw [pass_of_off hc, check, if_neg hdue]

theorem mem_switches_of_due (hdue : c.Due limits (clock 0)) :
    ⟨!c.on, clock 0, clock 1⟩ ∈ (pass limits clock c).switches := by
  cases hc : c.on with
  | true =>
      rw [pass_of_due hc hdue]
      exact switches_subset_check _ (List.mem_singleton.mpr rfl)
  | false =>
      rw [pass_of_off hc, check, if_pos hdue, hc]
      exact List.mem_singleton.mpr rfl

/-- After a pass that makes switches of one kind only, the device is as they leave it. -/
theorem on_of_switches {on : Bool} (hne : (pass limits clock c).switches ≠ [])
    (hall : ∀ s ∈ (pass limits clock c).switches, s.on = on) :
    (pass limits clock c).cycle.on = on := by
  rw [← pass_latest]
  rcases List.eq_nil_or_concat (pass limits clock c).switches with hnil | ⟨front, last, hlast⟩
  · exact absurd hnil hne
  · rw [hlast] at hall ⊢
    simpa using hall last (by simp)

/-- The device at each time, if passes are made at some of the times. -/
def Tended (limits : Limits) (cycle : ℕ → Cycle) (clock? : ℕ → Option Clock) : Prop :=
  ∀ n, cycle (n + 1) =
    (clock? n).elim (cycle n) fun clock => (pass limits clock (cycle n)).cycle

section Tended

variable {cycle : ℕ → Cycle} {clock? : ℕ → Option Clock}

/-- As passes go on and time does too, the device comes to be due. -/
theorem Tended.exists_due (h : Tended limits cycle clock?)
    (hoften : ∀ m, ∃ n, m ≤ n ∧ (clock? n).isSome)
    (htime : ∀ T, ∃ N, ∀ n, N ≤ n → ∀ clock ∈ clock? n, T < clock 0) (m : ℕ) :
    ∃ n, m ≤ n ∧ cycle n = cycle m ∧ ∃ clock ∈ clock? n, (cycle n).Due limits (clock 0) := by
  by_contra hnever
  have hnot : ∀ n, m ≤ n → cycle n = cycle m → ∀ clock ∈ clock? n,
      ¬ (cycle n).Due limits (clock 0) :=
    fun n hn hsame clock hclock hdue => hnever ⟨n, hn, hsame, clock, hclock, hdue⟩
  have hsame : ∀ n, m ≤ n → cycle n = cycle m := by
    intro n hn
    induction n, hn using Nat.le_induction with
    | base => rfl
    | succ n hn ih =>
        rw [h n, ← ih]
        cases hclock : clock? n with
        | none => rfl
        | some clock => exact cycle_of_not_due (hnot n hn ih clock hclock)
  obtain ⟨N, hN⟩ := htime ((cycle m).since + limits.of (cycle m).on)
  obtain ⟨n, hn, hsome⟩ := hoften (max m N)
  obtain ⟨clock, hclock⟩ := Option.isSome_iff_exists.mp hsome
  have hlate := hN n (le_of_max_le_right hn) clock hclock
  have hcycle := hsame n (le_of_max_le_left hn)
  apply hnot n (le_of_max_le_left hn) hcycle clock hclock
  rw [hcycle, Cycle.Due]
  omega

/-- **The device is switched on and off for ever.** -/
theorem Tended.exists_switch (h : Tended limits cycle clock?)
    (hoften : ∀ m, ∃ n, m ≤ n ∧ (clock? n).isSome)
    (htime : ∀ T, ∃ N, ∀ n, N ≤ n → ∀ clock ∈ clock? n, T < clock 0) (on : Bool) (m : ℕ) :
    ∃ n, m ≤ n ∧ ∃ clock ∈ clock? n, ∃ s ∈ (pass limits clock (cycle n)).switches, s.on = on := by
  obtain ⟨n, hn, -, clock, hclock, hdue⟩ := h.exists_due hoften htime m
  have hfirst := mem_switches_of_due hdue
  by_cases hkind : ∃ s ∈ (pass limits clock (cycle n)).switches, s.on = on
  · exact ⟨n, hn, clock, hclock, hkind⟩
  · -- it has only been switched the other way, so that the next switch is the one
    have hother : ∀ s ∈ (pass limits clock (cycle n)).switches, s.on = !on :=
      fun s hs => Bool.eq_not.mpr fun hon => hkind ⟨s, hs, hon⟩
    have hafter : (cycle (n + 1)).on = !on := by
      rw [h n, hclock, Option.elim_some]
      exact on_of_switches (List.ne_nil_of_mem hfirst) hother
    obtain ⟨n', hn', hsame, clock', hclock', hdue'⟩ := h.exists_due hoften htime (n + 1)
    refine ⟨n', by omega, clock', hclock', _, mem_switches_of_due hdue', ?_⟩
    rw [hsame, hafter, Bool.not_not]

end Tended

end DutyCycle
