import Mathlib.Data.Rat.Floor
import MeterPanel.Bar.Extent
import MeterPanel.Proofs.NumberOrder

/-!
# From levels to pixels

A level is clamped, multiplied by the height of the bar, rounded and cut. Each
of these steps keeps the order, so a higher level never has fewer pixels, even
where the product was rounded up to a whole number.

The pixels are the exact product rounded down or up. Whole numbers are on the
grid, so rounding does not pass one, and cutting then leaves the whole number
below or above. Only a full level fills the bar: the next number below one is
`2^-24` away from it, its product with the height is short of the whole by
more than half a spacing, and rounding does not bridge that.

## Main results

* `le_nearest_div`, `nearest_div_le` — rounding does not pass a whole number.
* `nearest_mul_lt` — the product of a number below one stays below the whole.
* `pixels_mono` — more level, no fewer pixels.
* `pixels_eq_height_iff` — what fills a bar.
* `pixels_of_any_level` — scaling as a whole.
-/

namespace MeterPanel

namespace Binary32

/-! ## Rounding a product with a whole number -/

/-- Rounding does not fall below a whole number. -/
theorem le_nearest_div {n whole : Nat} (hwhole : whole ≤ 2 ^ 24) (h : whole * unitsPerOne ≤ n) :
    whole ≤ nearest n / unitsPerOne := by
  have hpoint : OnGrid (whole * unitsPerOne) := onGrid_mul_two_pow hwhole 149
  rw [Nat.le_div_iff_mul_le (by decide), ← nearest_of_onGrid hpoint]
  exact nearest_mono h

/-- Rounding does not rise above a whole number. -/
theorem nearest_div_le {n whole : Nat} (hwhole : whole ≤ 2 ^ 24) (h : n ≤ whole * unitsPerOne) :
    nearest n / unitsPerOne ≤ whole := by
  refine Nat.div_le_of_le_mul ?_
  rw [Nat.mul_comm]
  exact nearest_le h (onGrid_mul_two_pow hwhole 149)

/-- Below one the numbers are `2^-24` apart, or a part of that. -/
theorem spacing_dvd_of_lt_one {n : Nat} (h : n < unitsPerOne) : spacing n ∣ 2 ^ 125 := by
  refine Nat.pow_dvd_pow 2 ?_
  by_cases hn : n = 0
  · subst hn
    decide
  · have hlog : n.log2 < 149 := (Nat.log2_lt hn).2 h
    omega

/-- A number below one is below it by `2^-24` at least. -/
theorem add_le_of_onGrid_of_lt {n : Nat} (hpoint : OnGrid n) (h : n < unitsPerOne) :
    n + 2 ^ 125 ≤ unitsPerOne := by
  have hsteps := div_spacing_lt n
  have hspacing : spacing n ≤ 2 ^ 125 :=
    Nat.le_of_dvd (Nat.two_pow_pos 125) (spacing_dvd_of_lt_one h)
  calc n + 2 ^ 125 = n / spacing n * spacing n + 2 ^ 125 := by rw [Nat.div_mul_cancel hpoint]
    _ ≤ (2 ^ 24 - 1) * 2 ^ 125 + 2 ^ 125 :=
        Nat.add_le_add_right (Nat.mul_le_mul (by omega) hspacing) _
    _ = unitsPerOne := by decide

/-- The product of a number below one with a whole number stays below that
whole number, also when it is rounded. -/
theorem nearest_mul_lt {n factor : Nat} (hpoint : OnGrid n) (h : n < unitsPerOne)
    (hfactor : 0 < factor) : nearest (n * factor) < factor * unitsPerOne := by
  -- the product is short by `factor * 2 ^ 125`, and its spacing is less than twice that
  have hone : unitsPerOne = 2 ^ 149 := rfl
  have hshort : n * factor + factor * 2 ^ 125 ≤ factor * 2 ^ 149 := by
    have hgap := Nat.mul_le_mul_left factor (add_le_of_onGrid_of_lt hpoint h)
    rw [Nat.mul_add, Nat.mul_comm factor n] at hgap
    exact hgap
  have hspacing : spacing (n * factor) < 2 * (factor * 2 ^ 125) := by
    by_cases hlog : 23 ≤ (n * factor).log2
    · have hdigits := two_pow_mul_spacing_le hlog
      omega
    · rw [spacing, Nat.sub_eq_zero_of_le (by omega), Nat.pow_zero]
      omega
  have hround := two_mul_nearest_le (n * factor)
  rw [hone]
  omega

/-! ## The count of a clamped number -/

/-- The exact value of a number, clamped to the range from zero to one. -/
def unitValue : Binary32 → ℚ
  | nan => 0
  | infinite negative => if negative then 0 else 1
  | finite units _ _ => Max.max 0 (Min.min 1 ((units : ℚ) / unitsPerOne))

/-- A number is clamped to so many units. -/
structure ClampsTo (x : Binary32) (n : Nat) : Prop where
  clampUnit : ∃ onGrid bounded, x.clampUnit = finite n onGrid bounded
  le_one : n ≤ unitsPerOne
  value : x.unitValue = (n : ℚ) / unitsPerOne
  full : n = unitsPerOne ↔ 1 ≤ x

theorem unitValue_of_rank {x : Binary32} {a : Int} (h : x.rank? = some a) :
    x.unitValue = ((Max.max 0 (Min.min a unitsPerOne) : Int) : ℚ) / unitsPerOne := by
  have hone : (0 : ℚ) < unitsPerOne := by
    rw [Nat.cast_pos]
    decide
  cases x with
  | nan => cases h
  | infinite negative =>
      cases negative with
      | false =>
          obtain rfl : (limit : Int) = a := Option.some.inj h
          rw [show Max.max 0 (Min.min (limit : Int) unitsPerOne) = unitsPerOne by decide,
            Int.cast_natCast, div_self hone.ne']
          rfl
      | true =>
          obtain rfl : -(limit : Int) = a := Option.some.inj h
          rw [show Max.max 0 (Min.min (-(limit : Int)) unitsPerOne) = 0 by decide, Int.cast_zero,
            zero_div]
          rfl
  | finite units onGrid bounded =>
      obtain rfl : units = a := Option.some.inj h
      rw [Int.cast_max, Int.cast_min, Int.cast_zero, Int.cast_natCast,
        ← max_div_div_right hone.le, ← min_div_div_right hone.le, zero_div, div_self hone.ne',
        min_comm]
      rfl

theorem exists_clampsTo {x : Binary32} (h : x ≠ nan) : ∃ n, ClampsTo x n := by
  obtain ⟨a, ha⟩ := exists_rank h
  have hplace := rank_clampUnit ha
  rcases clampUnit_cases x with hnan | ⟨units, onGrid, bounded, hunits, hlow, hhigh⟩
  · exact absurd hnan (ne_nan_of_rank hplace)
  · obtain ⟨n, rfl⟩ := Int.eq_ofNat_of_zero_le hlow
    rw [hunits] at hplace
    have hcount := Option.some.inj hplace
    have hone : (0 : Int) < unitsPerOne := by decide
    have hfull : 1 ≤ x ↔ (unitsPerOne : Int) ≤ a := le_iff_of_rank rfl ha
    refine ⟨n, ⟨onGrid, bounded, hunits⟩, by omega, ?_, ?_⟩
    · rw [unitValue_of_rank ha, ← hcount]
      rfl
    · rw [hfull]
      omega

namespace ClampsTo

variable {x y : Binary32} {n m : Nat}

theorem onGrid (h : ClampsTo x n) : OnGrid n := by
  obtain ⟨hpoint, -, -⟩ := h.clampUnit
  rwa [Int.natAbs_natCast] at hpoint

theorem mono (hx : ClampsTo x n) (hy : ClampsTo y m) (h : x ≤ y) : n ≤ m := by
  obtain ⟨_, _, hunits⟩ := hx.clampUnit
  obtain ⟨_, _, hunits'⟩ := hy.clampUnit
  have hclamped := clampUnit_mono h
  rw [hunits, hunits'] at hclamped
  exact Int.ofNat_le.1 hclamped

/-- The exact product with a whole number, in units. -/
theorem value_mul (h : ClampsTo x n) (factor : Nat) :
    x.unitValue * factor = ((n * factor : Nat) : ℚ) / unitsPerOne := by
  rw [h.value, Nat.cast_mul, div_mul_eq_mul_div]

end ClampsTo

end Binary32

namespace BarExtent

open Binary32 (ClampsTo exists_clampsTo unitsPerOne nearest)

/-- The pixels of a level: its clamped count times the height, rounded and
cut. -/
theorem toNat_pixels (extent : BarExtent) {level : Binary32} {n : Nat} (h : ClampsTo level n) :
    (extent.pixels level).toNat = nearest (n * extent.height.toNat) / unitsPerOne := by
  obtain ⟨_, _, hunits⟩ := h.clampUnit
  rw [pixels, hunits,
    Binary32.toNat_toUInt8_scale (Int.natCast_nonneg n) (Int.ofNat_le.2 h.le_one),
    Int.toNat_natCast]

/-- A higher level never has fewer pixels. -/
theorem pixels_mono (extent : BarExtent) {a b : Binary32} (h : a ≤ b) :
    extent.pixels a ≤ extent.pixels b := by
  obtain ⟨ha, hb⟩ := Binary32.ne_nan_of_le h
  obtain ⟨n, hn⟩ := exists_clampsTo ha
  obtain ⟨m, hm⟩ := exists_clampsTo hb
  rw [UInt8.le_iff_toNat_le, toNat_pixels extent hn, toNat_pixels extent hm]
  exact Nat.div_le_div_right
    (Binary32.nearest_mono (Nat.mul_le_mul_right _ (hn.mono hm h)))

section

variable (extent : BarExtent) {level : Binary32}

/-- A level has no fewer pixels than the whole part of its exact product. -/
theorem floor_le_pixels (h : level ≠ .nan) :
    ⌊level.unitValue * extent.height.toNat⌋ ≤ ((extent.pixels level).toNat : ℤ) := by
  obtain ⟨n, hn⟩ := exists_clampsTo h
  have hbyte := (extent.pixels level).toNat_lt
  have hpixels := toNat_pixels extent hn
  have hbelow : n * extent.height.toNat < ((extent.pixels level).toNat + 1) * unitsPerOne := by
    by_contra hnot
    have hwhole := Binary32.le_nearest_div (by omega) (Nat.le_of_not_lt hnot)
    omega
  rw [← Int.lt_add_one_iff, Int.floor_lt, hn.value_mul,
    div_lt_iff₀ (Nat.cast_pos.2 (by decide))]
  exact_mod_cast hbelow

/-- A level has no more pixels than its exact product rounded up. -/
theorem pixels_le_ceil (h : level ≠ .nan) :
    ((extent.pixels level).toNat : ℤ) ≤ ⌈level.unitValue * extent.height.toNat⌉ := by
  obtain ⟨n, hn⟩ := exists_clampsTo h
  have hbyte := (extent.pixels level).toNat_lt
  have hpixels := toNat_pixels extent hn
  cases hcount : (extent.pixels level).toNat with
  | zero =>
      refine Int.ceil_nonneg ?_
      rw [hn.value_mul]
      exact div_nonneg (Nat.cast_nonneg _) (Nat.cast_nonneg _)
  | succ count =>
      have habove : count * unitsPerOne < n * extent.height.toNat := by
        by_contra hnot
        have hwhole := Binary32.nearest_div_le (by omega) (Nat.le_of_not_lt hnot)
        omega
      rw [Nat.cast_succ, Int.add_one_le_iff, Int.lt_ceil, hn.value_mul,
        lt_div_iff₀ (Nat.cast_pos.2 (by decide))]
      exact_mod_cast habove

-- The number closest to 0.7 lies below it, and its product with ten is rounded up to seven.
example :
    (BarExtent.mk 2 10).pixels (.finite (11744051 * 2 ^ 125) (by decide) (by decide)) = 7 := by
  decide +kernel

/-- Nothing but a full level fills a bar. -/
theorem pixels_eq_height_iff (hheight : 0 < extent.height) (level : Binary32) :
    extent.pixels level = extent.height ↔ 1 ≤ level := by
  have hpos : 0 < extent.height.toNat := UInt8.lt_iff_toNat_lt.1 hheight
  have hbyte := extent.height.toNat_lt
  by_cases hnan : level = .nan
  · subst hnan
    have hdark : (extent.pixels .nan).toNat = 0 := rfl
    constructor
    · intro hfull
      rw [hfull] at hdark
      omega
    · intro hone
      exact absurd rfl (Binary32.ne_nan_of_le hone).2
  · obtain ⟨n, hn⟩ := exists_clampsTo hnan
    rw [← hn.full, ← UInt8.toNat_inj, toNat_pixels extent hn]
    constructor
    · intro hfull
      by_contra hne
      have hlt : n < unitsPerOne := Nat.lt_of_le_of_ne hn.le_one hne
      have hround := Binary32.nearest_mul_lt hn.onGrid hlt hpos
      have hcut := (Nat.div_lt_iff_lt_mul (by decide)).2 hround
      omega
    · rintro rfl
      exact Nat.le_antisymm (Binary32.nearest_div_le (by omega) (Nat.le_of_eq (Nat.mul_comm _ _)))
        (Binary32.le_nearest_div (by omega) (Nat.le_of_eq (Nat.mul_comm _ _)))

end

/-- Scaling on a bar of any height: not-a-number has no pixels; every other
level has its exact product with the height, rounded down or up, and so never
more than the height; a higher level never has fewer pixels; and nothing but a
full level fills the bar. -/
theorem pixels_of_any_level (extent : BarExtent) :
    extent.pixels .nan = 0 ∧
      (∀ level : Binary32, level ≠ .nan →
        let exact := level.unitValue * extent.height.toNat
        ⌊exact⌋ ≤ ((extent.pixels level).toNat : ℤ) ∧
          ((extent.pixels level).toNat : ℤ) ≤ ⌈exact⌉ ∧
          extent.pixels level ≤ extent.height) ∧
      (∀ a b : Binary32, a ≤ b → extent.pixels a ≤ extent.pixels b) ∧
      (0 < extent.height → ∀ level : Binary32,
        extent.pixels level = extent.height ↔ 1 ≤ level) :=
  ⟨rfl, fun level h => ⟨floor_le_pixels extent h, pixels_le_ceil extent h, pixels_le extent level⟩,
    fun _ _ h => pixels_mono extent h, pixels_eq_height_iff extent⟩

end BarExtent

end MeterPanel
