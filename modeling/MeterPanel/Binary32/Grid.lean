/-!
# The grid of binary32 magnitudes

A finite binary32 number is a whole multiple of `2^-149`. Counting in that
unit turns every magnitude into a natural number, and the format keeps the
24 leading binary digits of it: near `n` the representable counts are the
multiples of `spacing n`.

Rounding is therefore one division. `nearest n` takes the multiple of
`spacing n` closest to `n`, and of two equally close ones the even multiple.

## Main results

* `onGrid_mul_two_pow` — a count of at most `2^24` times a power of two lies
  on the grid.
* `onGrid_nearest` — rounding lands on the grid.
* `two_mul_nearest_le` — rounding moves a count by half a spacing at most.
* `nearest_of_onGrid` — a count on the grid is its own rounding.
* `nearest_le` — rounding never passes a grid point, from below.
* `nearest_mono` — rounding keeps the order.
-/

namespace MeterPanel.Binary32

/-- Powers of natural numbers are the built-in ones, beside any other theory
of powers. -/
@[default_instance 20000]
instance (priority := 20000) builtinPow : Pow Nat Nat := instPowNat

/-! ## Spacing -/

/-- Distance between neighbouring representable counts around `n`: a power
of two that leaves 24 binary digits. -/
def spacing (n : Nat) : Nat := 2 ^ (n.log2 - 23)

/-- A count on the grid: a multiple of the spacing at its own size. -/
def OnGrid (n : Nat) : Prop := spacing n ∣ n

instance (n : Nat) : Decidable (OnGrid n) :=
  inferInstanceAs (Decidable (spacing n ∣ n))

/-- Rounds a count to the nearest multiple of its spacing; a half goes to
the even multiple. -/
def nearest (n : Nat) : Nat :=
  let quotient := n / spacing n
  let remainder := n % spacing n
  if spacing n < 2 * remainder ∨ (spacing n = 2 * remainder ∧ quotient % 2 = 1) then
    (quotient + 1) * spacing n
  else
    quotient * spacing n

theorem spacing_pos (n : Nat) : 0 < spacing n := Nat.two_pow_pos _

/-- A count that has 24 binary digits is at least `2^23` spacings. -/
theorem two_pow_mul_spacing_le {n : Nat} (h : 23 ≤ n.log2) : 2 ^ 23 * spacing n ≤ n := by
  have hn : n ≠ 0 := by
    rintro rfl
    simp at h
  rw [spacing, ← Nat.pow_add, Nat.add_sub_cancel' h]
  exact Nat.log2_self_le hn

theorem spacing_dvd_spacing {n m : Nat} (h : n ≤ m) : spacing n ∣ spacing m := by
  have hlog : n.log2 ≤ m.log2 := by
    by_cases hn : n = 0
    · subst hn; simp
    · exact (Nat.le_log2 (by omega)).2 (Nat.le_trans (Nat.log2_self_le hn) h)
  exact Nat.pow_dvd_pow 2 (by omega)

/-- There are fewer than `2^24` spacings below a count. -/
theorem div_spacing_lt (n : Nat) : n / spacing n < 2 ^ 24 := by
  rw [Nat.div_lt_iff_lt_mul (spacing_pos n), spacing, ← Nat.pow_add]
  exact Nat.lt_of_lt_of_le Nat.lt_log2_self
    (Nat.pow_le_pow_right (by decide) (by omega))

/-! ## Points of the grid -/

/-- At most `2^24` steps of any power of two make a grid point. -/
theorem onGrid_mul_two_pow {m : Nat} (h : m ≤ 2 ^ 24) (e : Nat) :
    OnGrid (m * 2 ^ e) := by
  by_cases hm : m = 0
  · subst hm; exact ⟨0, by simp⟩
  rcases Nat.lt_or_eq_of_le h with hlt | heq
  · have hne : m * 2 ^ e ≠ 0 := Nat.mul_ne_zero hm (Nat.ne_of_gt (Nat.two_pow_pos e))
    have hsize : m * 2 ^ e < 2 ^ (24 + e) := by
      rw [Nat.pow_add]
      exact Nat.mul_lt_mul_of_pos_right hlt (Nat.two_pow_pos e)
    have hlog : (m * 2 ^ e).log2 < 24 + e := (Nat.log2_lt hne).2 hsize
    have hdvd : spacing (m * 2 ^ e) ∣ 2 ^ e := Nat.pow_dvd_pow 2 (by omega)
    exact Nat.dvd_trans hdvd (Nat.dvd_mul_left _ _)
  · subst heq
    rw [← Nat.pow_add, OnGrid, spacing, Nat.log2_two_pow]
    exact Nat.pow_dvd_pow 2 (by omega)

/-- Rounding lands on the grid. -/
theorem onGrid_nearest (n : Nat) : OnGrid (nearest n) := by
  have hquotient := div_spacing_lt n
  unfold nearest
  dsimp only
  split
  · exact onGrid_mul_two_pow (by omega) _
  · exact onGrid_mul_two_pow (by omega) _

/-! ## Rounding and order -/

/-- Rounding moves a count by half a spacing at most. -/
theorem two_mul_nearest_le (n : Nat) : 2 * nearest n ≤ 2 * n + spacing n := by
  have hmod := Nat.div_add_mod' n (spacing n)
  unfold nearest
  dsimp only
  split
  · rename_i hup
    rw [Nat.add_mul, Nat.one_mul]
    omega
  · omega

/-- A count on the grid is its own rounding. -/
theorem nearest_of_onGrid {n : Nat} (h : OnGrid n) : nearest n = n := by
  have hremainder : n % spacing n = 0 := Nat.mod_eq_zero_of_dvd h
  have hpos := spacing_pos n
  have hcond : ¬ (spacing n < 2 * 0 ∨ (spacing n = 2 * 0 ∧ n / spacing n % 2 = 1)) := by
    omega
  unfold nearest
  dsimp only
  rw [hremainder, if_neg hcond]
  exact Nat.div_mul_cancel h

/-- Rounding a count below a grid point stays at or below that point. -/
theorem nearest_le {n m : Nat} (h : n ≤ m) (hm : OnGrid m) : nearest n ≤ m := by
  obtain ⟨k, hk⟩ := Nat.dvd_trans (spacing_dvd_spacing h) hm
  have hpos := spacing_pos n
  have hquotient : n / spacing n ≤ k := by
    have hdiv := Nat.div_le_div_right h (c := spacing n)
    rwa [hk, Nat.mul_div_cancel_left k hpos] at hdiv
  rcases Nat.lt_or_eq_of_le hquotient with hlt | heq
  · have hup : (n / spacing n + 1) * spacing n ≤ m := by
      rw [hk, Nat.mul_comm]
      exact Nat.mul_le_mul_left _ hlt
    have hdown : n / spacing n * spacing n ≤ m :=
      Nat.le_trans (Nat.mul_le_mul_right _ (Nat.le_succ _)) hup
    unfold nearest
    dsimp only
    split <;> assumption
  · have hpoint : m ≤ n := by
      rw [hk, ← heq]
      exact Nat.mul_div_le n (spacing n)
    have hsame : n = m := Nat.le_antisymm h hpoint
    rw [nearest_of_onGrid (hsame ▸ hm)]
    exact h

/-- Between a count and the grid point below it the spacing does not change. -/
theorem spacing_eq_of_le {n m : Nat} (h : n ≤ m) (hpoint : m / spacing m * spacing m ≤ n) :
    spacing n = spacing m := by
  refine Nat.dvd_antisymm (spacing_dvd_spacing h) ?_
  by_cases hlog : m.log2 ≤ 23
  · have hone : spacing m = 1 := by rw [spacing, Nat.sub_eq_zero_of_le hlog, Nat.pow_zero]
    rw [hone]
    exact Nat.one_dvd _
  · -- the leading digit of `m` is on the grid, and so not above the point
    have hm : m ≠ 0 := by
      rintro rfl
      simp at hlog
    have hlead : spacing m ∣ 2 ^ m.log2 := Nat.pow_dvd_pow 2 (Nat.sub_le _ _)
    have hbelow : 2 ^ m.log2 ≤ n := by
      refine Nat.le_trans ?_ hpoint
      rw [← Nat.div_mul_cancel hlead]
      exact Nat.mul_le_mul_right _ (Nat.div_le_div_right (Nat.log2_self_le hm))
    have hn : n ≠ 0 := Nat.ne_of_gt (Nat.lt_of_lt_of_le (Nat.two_pow_pos _) hbelow)
    have hdigits := (Nat.le_log2 hn).2 hbelow
    exact Nat.pow_dvd_pow 2 (by omega)

/-- Rounding keeps the order. -/
theorem nearest_mono {n m : Nat} (h : n ≤ m) : nearest n ≤ nearest m := by
  by_cases hpoint : n ≤ nearest m
  · exact nearest_le hpoint (onGrid_nearest m)
  -- `m` is rounded down, past `n`, and so is `n`
  · have hpos := spacing_pos m
    have hmod := Nat.div_add_mod' m (spacing m)
    have hlt := Nat.mod_lt m hpos
    have hround : nearest m = m / spacing m * spacing m ∧ ¬ (spacing m < 2 * (m % spacing m) ∨
        (spacing m = 2 * (m % spacing m) ∧ m / spacing m % 2 = 1)) := by
      unfold nearest at hpoint ⊢
      dsimp only at hpoint ⊢
      split
      · rename_i hup
        rw [if_pos hup, Nat.add_mul, Nat.one_mul] at hpoint
        omega
      · rename_i hdown
        exact ⟨rfl, hdown⟩
    have hspacing : spacing n = spacing m := spacing_eq_of_le h (by omega)
    have hquotient : n / spacing m = m / spacing m :=
      Nat.le_antisymm (Nat.div_le_div_right h)
        ((Nat.le_div_iff_mul_le hpos).2 (by omega))
    have hmod' := Nat.div_add_mod' n (spacing m)
    rw [hquotient] at hmod'
    have hdown : nearest n = n / spacing m * spacing m := by
      unfold nearest
      dsimp only
      rw [hspacing, if_neg]
      rw [hquotient]
      omega
    exact Nat.le_of_eq (by rw [hdown, hround.1, hquotient])

end MeterPanel.Binary32
