import MeterPanel.Binary32.Basic

/-!
# The order of binary32 numbers

All numbers but not-a-number stand in one line, the infinities at its ends.
Not-a-number compares with nothing, so a number that compares with any is not
it. The larger of two numbers passes over a not-a-number, and so stays in the
line as long as one of the two does.

A difference is rounded, but never past the number it was taken from: that
number is on the grid, and rounding does not pass a point of the grid.

## Main results

* `le_iff` — the order is that of the places.
* `clampUnit_mono` — clamping keeps the order.
* `le_max_right`, `max_le` — the larger of two numbers.
* `sub_le_self` — taking away nothing negative leads down.
-/

namespace MeterPanel.Binary32

variable {x y z : Binary32}

/-! ## Places -/

/-- Two numbers compare when both have a place and the places do. -/
theorem le_iff : x ≤ y ↔ ∃ a b, x.rank? = some a ∧ y.rank? = some b ∧ a ≤ b := by
  show le x y ↔ _
  unfold le
  cases x.rank? <;> cases y.rank? <;> simp

theorem exists_rank (h : x ≠ nan) : ∃ a, x.rank? = some a := by
  cases x with
  | nan => exact absurd rfl h
  | infinite negative => cases negative <;> exact ⟨_, rfl⟩
  | finite units onGrid bounded => exact ⟨units, rfl⟩

theorem ne_nan_of_rank {a : Int} (h : x.rank? = some a) : x ≠ nan := by
  rintro rfl
  cases h

theorem ne_nan_of_le (h : x ≤ y) : x ≠ nan ∧ y ≠ nan := by
  obtain ⟨a, b, hx, hy, -⟩ := le_iff.1 h
  exact ⟨ne_nan_of_rank hx, ne_nan_of_rank hy⟩

theorem le_refl_of_ne_nan (h : x ≠ nan) : x ≤ x := by
  obtain ⟨a, ha⟩ := exists_rank h
  exact le_iff.2 ⟨a, a, ha, ha, Int.le_refl a⟩

theorem le_trans (hxy : x ≤ y) (hyz : y ≤ z) : x ≤ z := by
  obtain ⟨a, b, hx, hy, hab⟩ := le_iff.1 hxy
  obtain ⟨b', c, hy', hz, hbc⟩ := le_iff.1 hyz
  obtain rfl : b = b' := Option.some.inj (hy.symm.trans hy')
  exact le_iff.2 ⟨a, c, hx, hz, Int.le_trans hab hbc⟩

/-- Of two numbers in the line one is at most the other. -/
theorem le_of_not_le (hx : x ≠ nan) (hy : y ≠ nan) (h : ¬ x ≤ y) : y ≤ x := by
  obtain ⟨a, ha⟩ := exists_rank hx
  obtain ⟨b, hb⟩ := exists_rank hy
  have hnot : ¬ a ≤ b := fun hab => h (le_iff.2 ⟨a, b, ha, hb, hab⟩)
  exact le_iff.2 ⟨b, a, hb, ha, by omega⟩

/-- One number is below another when both have a place and the places are so
ordered. -/
theorem lt_iff_of_rank {a b : Int} (hx : x.rank? = some a) (hy : y.rank? = some b) :
    x < y ↔ a < b := by
  show lt x y ↔ _
  unfold lt
  rw [hx, hy]

/-- One number is at most another when both have a place and the places are so
ordered. -/
theorem le_iff_of_rank {a b : Int} (hx : x.rank? = some a) (hy : y.rank? = some b) :
    x ≤ y ↔ a ≤ b := by
  show le x y ↔ _
  unfold le
  rw [hx, hy]

theorem not_le_of_lt (h : x < y) : ¬ y ≤ x := by
  intro hle
  obtain ⟨b, a, hy, hx, hba⟩ := le_iff.1 hle
  have hab := (lt_iff_of_rank hx hy).1 h
  omega

/-! ## Clamped numbers -/

/-- Clamping moves a place to the nearest one between zero and one. -/
theorem rank_clampUnit {a : Int} (h : x.rank? = some a) :
    x.clampUnit.rank? = some (Max.max 0 (Min.min a unitsPerOne)) := by
  have hlow : x < 0 ↔ a < 0 := lt_iff_of_rank h rfl
  have hhigh : 1 < x ↔ (unitsPerOne : Int) < a := lt_iff_of_rank rfl h
  have hone : (0 : Int) < unitsPerOne := by decide
  unfold clampUnit
  by_cases hbelow : x < 0
  · have ha := hlow.1 hbelow
    rw [if_pos hbelow]
    show some (0 : Int) = _
    congr 1
    omega
  · have ha := mt hlow.2 hbelow
    rw [if_neg hbelow]
    by_cases habove : 1 < x
    · have ha' := hhigh.1 habove
      rw [if_pos habove]
      show some (unitsPerOne : Int) = _
      congr 1
      omega
    · have ha' := mt hhigh.2 habove
      rw [if_neg habove, h]
      congr 1
      omega

/-- Clamping keeps the order. -/
theorem clampUnit_mono (h : x ≤ y) : x.clampUnit ≤ y.clampUnit := by
  obtain ⟨a, b, hx, hy, hab⟩ := le_iff.1 h
  exact le_iff.2 ⟨_, _, rank_clampUnit hx, rank_clampUnit hy, by omega⟩

/-! ## The larger of two numbers -/

theorem max_of_ne_nan (hx : x ≠ nan) (hy : y ≠ nan) : x.max y = if x ≤ y then y else x := by
  unfold Binary32.max
  split
  · exact absurd rfl hx
  · exact absurd rfl hy
  · rfl

theorem le_max_right (hy : y ≠ nan) : y ≤ x.max y := by
  by_cases hx : x = nan
  · subst hx
    exact le_refl_of_ne_nan hy
  · rw [max_of_ne_nan hx hy]
    split
    · exact le_refl_of_ne_nan hy
    · rename_i h
      exact le_of_not_le hx hy h

/-- A number that is not below either of two is not below the larger one; a
not-a-number among them does not count. -/
theorem max_le (hx : x = nan ∨ x ≤ z) (hy : y ≤ z) : x.max y ≤ z := by
  rcases hx with rfl | hx
  · exact hy
  · rw [max_of_ne_nan (ne_nan_of_le hx).1 (ne_nan_of_le hy).1]
    split <;> assumption

/-! ## Differences -/

/-- A rounded difference does not pass the count it was taken from. -/
theorem nearestInt_sub_le {a b : Int} (ha : 0 ≤ a) (onGrid : OnGrid a.natAbs) (hb : 0 ≤ b) :
    nearestInt (a - b) ≤ a := by
  unfold nearestInt
  by_cases hnegative : a - b < 0
  · rw [if_pos hnegative]
    omega
  · have hround : nearest (a - b).natAbs ≤ a.natAbs := nearest_le (by omega) onGrid
    rw [if_neg hnegative]
    omega

/-- A count that rounds to at most a finite number gives at most that
number. -/
theorem ofUnits_le {n units : Int} {onGrid : OnGrid units.natAbs}
    {bounded : units.natAbs < limit} (h : nearestInt n ≤ units) :
    ofUnits n ≤ finite units onGrid bounded := by
  unfold ofUnits
  split
  · exact h
  · rename_i hrange
    by_cases hnegative : n < 0
    · rw [decide_eq_true hnegative]
      show -(limit : Int) ≤ units
      omega
    · exfalso
      have hsign : nearestInt n = nearest n.natAbs := if_neg hnegative
      omega

/-- A number that is not negative is finite or the upper infinity. -/
theorem cases_of_zero_le (h : 0 ≤ x) :
    x = infinite false ∨
      ∃ units onGrid bounded, x = finite units onGrid bounded ∧ 0 ≤ units := by
  cases x with
  | nan => exact h.elim
  | infinite negative =>
      cases negative with
      | true => exact absurd h (by decide)
      | false => exact .inl rfl
  | finite units onGrid bounded => exact .inr ⟨units, onGrid, bounded, rfl, h⟩

/-- Taking away what is not negative leads down, as long as it leads to a
number. -/
theorem sub_le_self {step : Binary32} (hx : 0 ≤ x) (hstep : step = nan ∨ 0 ≤ step) :
    x - step = nan ∨ x - step ≤ x := by
  rcases hstep with rfl | hstep
  · cases x <;> exact .inl rfl
  · rcases cases_of_zero_le hx with rfl | ⟨units, onGrid, bounded, rfl, hunits⟩
    · rcases cases_of_zero_le hstep with rfl | ⟨_, _, _, rfl, -⟩
      · exact .inl rfl
      · exact .inr (Int.le_refl (limit : Int))
    · rcases cases_of_zero_le hstep with rfl | ⟨_, _, _, rfl, hlow⟩
      · right
        show -(limit : Int) ≤ units
        omega
      · exact .inr (ofUnits_le (nearestInt_sub_le hunits onGrid hlow))

end MeterPanel.Binary32
