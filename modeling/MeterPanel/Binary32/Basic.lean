import MeterPanel.Binary32.Grid

/-!
# Binary32 numbers

A level travels as a binary32 number. A value is not-a-number, one of the two
infinities, or a finite number given by its exact count of `2^-149` units.
The two zeros are one value here, and so are all not-a-numbers: nothing the
meter shows depends on the difference.

Every operation takes the exact result first and rounds it once, to nearest
with halves to even. A rounded result of `2^128` or more is out of range and
becomes an infinity.

Comparison goes through `rank?`, which puts the infinities just outside the
finite counts and gives not-a-number no place at all, so that not-a-number
compares with nothing.

## Main results

* `clampUnit_cases` — a clamped number is not-a-number or a finite count
  between zero and one.
* `toNat_toUInt8_scale` — the whole part of a product with a whole number.
* `toUInt8_scale_clampUnit_le` — a clamped number times a whole number never
  comes out above that whole number.
-/

namespace MeterPanel

namespace Binary32

/-- Units in the number one: the least positive number is `2^-149`. -/
def unitsPerOne : Nat := 2 ^ 149

/-- The first count out of range: the units of `2^128`. -/
def limit : Nat := 2 ^ 128 * unitsPerOne

end Binary32

open Binary32 in
/-- A binary32 number, the sign of zero and the payload of a not-a-number
left out. -/
inductive Binary32 where
  /-- The result of an operation without a value. -/
  | nan
  /-- A result beyond the finite range, on one of its two sides. -/
  | infinite (negative : Bool)
  /-- A number of `2^-149` units that the format can hold. -/
  | finite (units : Int) (onGrid : OnGrid units.natAbs) (bounded : units.natAbs < limit)
  deriving DecidableEq

namespace Binary32

/-! ## Rounding a count -/

/-- Rounds the size of a signed count and keeps its sign. -/
def nearestInt (n : Int) : Int :=
  if n < 0 then -(nearest n.natAbs : Int) else nearest n.natAbs

theorem natAbs_nearestInt (n : Int) : (nearestInt n).natAbs = nearest n.natAbs := by
  unfold nearestInt
  split <;> simp

/-- The number nearest to a count of units, or an infinity when that is out
of range. -/
def ofUnits (n : Int) : Binary32 :=
  if bounded : (nearestInt n).natAbs < limit then
    finite (nearestInt n) (natAbs_nearestInt n ▸ onGrid_nearest n.natAbs) bounded
  else
    infinite (decide (n < 0))

instance : OfNat Binary32 0 :=
  ⟨finite 0 (by decide) (by decide)⟩

instance : OfNat Binary32 1 :=
  ⟨finite unitsPerOne (by decide) (by decide)⟩

/-! ## Order -/

/-- Place on the number line, in units; the infinities sit at the first
counts out of range. -/
def rank? : Binary32 → Option Int
  | nan => none
  | infinite true => some (-limit)
  | infinite false => some limit
  | finite units _ _ => some units

/-- One number is at most another when both have a place and the places
compare. -/
def le (x y : Binary32) : Prop :=
  match x.rank?, y.rank? with
  | some a, some b => a ≤ b
  | _, _ => False

/-- One number is below another when both have a place and the places
compare. -/
def lt (x y : Binary32) : Prop :=
  match x.rank?, y.rank? with
  | some a, some b => a < b
  | _, _ => False

instance : LE Binary32 := ⟨le⟩

instance : LT Binary32 := ⟨lt⟩

instance (x y : Binary32) : Decidable (x ≤ y) := by
  change Decidable (le x y)
  unfold le
  split <;> infer_instance

instance (x y : Binary32) : Decidable (x < y) := by
  change Decidable (lt x y)
  unfold lt
  split <;> infer_instance

/-- The larger of two numbers; next to a not-a-number it is the other one. -/
def max (x y : Binary32) : Binary32 :=
  match x, y with
  | nan, y => y
  | x, nan => x
  | x, y => if x ≤ y then y else x

/-- The nearest number between zero and one; not-a-number stays. -/
def clampUnit (x : Binary32) : Binary32 :=
  if x < 0 then 0 else if 1 < x then 1 else x

/-! ## Arithmetic -/

/-- The difference of two numbers, rounded once. -/
def sub : Binary32 → Binary32 → Binary32
  | nan, _ => nan
  | _, nan => nan
  | infinite a, infinite b => if a = b then nan else infinite a
  | infinite a, finite _ _ _ => infinite a
  | finite _ _ _, infinite b => infinite (!b)
  | finite a _ _, finite b _ _ => ofUnits (a - b)

instance : Sub Binary32 := ⟨sub⟩

/-- The product with a small whole number, rounded once. -/
def scale : Binary32 → UInt8 → Binary32
  | nan, _ => nan
  | infinite negative, factor => if factor = 0 then nan else infinite negative
  | finite units _ _, factor => ofUnits (units * factor.toNat)

/-- The whole part as a byte: what is below zero gives 0, what is too large
gives 255, and not-a-number gives 0. -/
def toUInt8 : Binary32 → UInt8
  | nan => 0
  | infinite true => 0
  | infinite false => 255
  | finite units _ _ => UInt8.ofNat (min (units.toNat / unitsPerOne) 255)

/-! ## Clamped numbers -/

/-- A clamped number is not-a-number or a finite count from zero to one. -/
theorem clampUnit_cases (x : Binary32) :
    x.clampUnit = nan ∨
      ∃ units onGrid bounded, x.clampUnit = finite units onGrid bounded ∧
        0 ≤ units ∧ units ≤ unitsPerOne := by
  unfold clampUnit
  split
  · exact .inr ⟨0, by decide, by decide, rfl, by decide, by decide⟩
  · split
    · exact .inr ⟨unitsPerOne, by decide, by decide, rfl, by decide, by decide⟩
    · rename_i hlow hhigh
      cases x with
      | nan => exact .inl rfl
      | infinite negative =>
          cases negative
          · exact absurd (show (unitsPerOne : Int) < limit by decide) hhigh
          · exact absurd (show -(limit : Int) < 0 by decide) hlow
      | finite units onGrid bounded =>
          have hlow' : ¬ units < 0 := hlow
          have hhigh' : ¬ (unitsPerOne : Int) < units := hhigh
          exact .inr ⟨units, onGrid, bounded, rfl, by omega, by omega⟩

/-- At most one, times a whole number, rounds to that whole number at most:
the product with one is on the grid. -/
theorem nearest_mul_le {n : Nat} (h : n ≤ unitsPerOne) (factor : UInt8) :
    nearest (n * factor.toNat) ≤ factor.toNat * unitsPerOne := by
  have hfactor : factor.toNat < 256 := factor.toNat_lt
  refine nearest_le ?_ (onGrid_mul_two_pow (by omega) 149)
  rw [Nat.mul_comm]
  exact Nat.mul_le_mul_left _ h

theorem nearest_mul_div_le {n : Nat} (h : n ≤ unitsPerOne) (factor : UInt8) :
    nearest (n * factor.toNat) / unitsPerOne ≤ factor.toNat := by
  refine Nat.div_le_of_le_mul ?_
  rw [Nat.mul_comm unitsPerOne]
  exact nearest_mul_le h factor

/-- The whole part of the product of a number between zero and one with a
whole number. -/
theorem toNat_toUInt8_scale {units : Int} {onGrid : OnGrid units.natAbs}
    {bounded : units.natAbs < limit} (hlow : 0 ≤ units) (hhigh : units ≤ unitsPerOne)
    (factor : UInt8) :
    ((finite units onGrid bounded).scale factor).toUInt8.toNat =
      nearest (units.toNat * factor.toNat) / unitsPerOne := by
  have hfactor : factor.toNat < 256 := factor.toNat_lt
  have hround := nearest_mul_le (show units.toNat ≤ unitsPerOne by omega) factor
  have hcount : (units * factor.toNat).natAbs = units.toNat * factor.toNat := by
    rw [Int.natAbs_mul, Int.natAbs_natCast]
    congr 1
    omega
  have hsign : ¬ units * factor.toNat < 0 := by
    have := Int.mul_nonneg hlow (Int.natCast_nonneg factor.toNat)
    omega
  have hnearest : nearestInt (units * factor.toNat) = nearest (units.toNat * factor.toNat) := by
    rw [nearestInt, if_neg hsign, hcount]
  have hsmall : (nearestInt (units * factor.toNat)).natAbs < limit := by
    rw [hnearest, Int.natAbs_natCast]
    refine Nat.lt_of_le_of_lt hround ?_
    have h := Nat.mul_lt_mul_of_pos_right hfactor (show 0 < unitsPerOne by decide)
    exact Nat.lt_trans h (by decide)
  have hwhole := nearest_mul_div_le (show units.toNat ≤ unitsPerOne by omega) factor
  have hscale : (finite units onGrid bounded).scale factor = ofUnits (units * factor.toNat) := rfl
  rw [hscale, ofUnits, dif_pos hsmall, toUInt8, hnearest, Int.toNat_natCast,
    UInt8.toNat_ofNat_of_lt' (by
      show _ < 256
      omega)]
  omega

/-- A clamped number times a whole number never comes out above that whole
number. -/
theorem toUInt8_scale_clampUnit_le (x : Binary32) (factor : UInt8) :
    (x.clampUnit.scale factor).toUInt8 ≤ factor := by
  rw [UInt8.le_iff_toNat_le]
  rcases clampUnit_cases x with hnan | ⟨units, onGrid, bounded, hfinite, hlow, hhigh⟩
  · rw [hnan]
    exact Nat.zero_le _
  · rw [hfinite, toNat_toUInt8_scale hlow hhigh]
    exact nearest_mul_div_le (by omega) factor

end Binary32

end MeterPanel
