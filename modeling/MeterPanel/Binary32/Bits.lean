import MeterPanel.Binary32.Basic

/-!
# Bit patterns of binary32 numbers

A pattern is a sign bit, eight exponent bits and 23 fraction bits. With
exponent `0` the fraction is the count of units itself; with exponent `e`
from 1 to 254 the count is `2^23 + fraction` doubled `e - 1` times; exponent
255 is set aside for the infinities and not-a-number.

Both zeros read as one number, which is written without a sign, and every
not-a-number is written as the one pattern `0x7fc00000`.
-/

namespace MeterPanel.Binary32

/-! ## Reading -/

/-- Units of the magnitude with the given exponent and fraction fields. -/
def unitsOfFields (exponent fraction : Nat) : Nat :=
  if exponent = 0 then fraction else (2 ^ 23 + fraction) * 2 ^ (exponent - 1)

theorem onGrid_unitsOfFields (exponent : Nat) {fraction : Nat} (h : fraction < 2 ^ 23) :
    OnGrid (unitsOfFields exponent fraction) := by
  unfold unitsOfFields
  split
  · simpa using onGrid_mul_two_pow (m := fraction) (by omega) 0
  · exact onGrid_mul_two_pow (by omega) _

theorem unitsOfFields_lt {exponent fraction : Nat}
    (hexponent : exponent < 255) (hfraction : fraction < 2 ^ 23) :
    unitsOfFields exponent fraction < limit := by
  unfold unitsOfFields
  split
  · exact Nat.lt_trans hfraction (by decide)
  · have hscale : 2 ^ (exponent - 1) ≤ 2 ^ 253 :=
      Nat.pow_le_pow_right (by decide) (by omega)
    have hbound : 2 ^ 23 + fraction < 2 ^ 24 := by omega
    calc (2 ^ 23 + fraction) * 2 ^ (exponent - 1)
        < 2 ^ 24 * 2 ^ (exponent - 1) :=
          Nat.mul_lt_mul_of_pos_right hbound (Nat.two_pow_pos _)
      _ ≤ 2 ^ 24 * 2 ^ 253 := Nat.mul_le_mul_left _ hscale
      _ = limit := by decide

/-- Gives a magnitude its sign. -/
private def signedUnits (negative : Bool) (n : Nat) : Int :=
  if negative then -(n : Int) else n

private theorem natAbs_signedUnits (negative : Bool) (n : Nat) :
    (signedUnits negative n).natAbs = n := by
  unfold signedUnits
  split <;> simp

/-- The number with the given bit pattern. -/
def ofBits (bits : UInt32) : Binary32 :=
  let negative := decide (2 ^ 31 ≤ bits.toNat)
  let exponent := bits.toNat / 2 ^ 23 % 2 ^ 8
  let fraction := bits.toNat % 2 ^ 23
  if h : exponent < 255 then
    have hfraction : fraction < 2 ^ 23 := Nat.mod_lt _ (by decide)
    finite (signedUnits negative (unitsOfFields exponent fraction))
      (by rw [natAbs_signedUnits]; exact onGrid_unitsOfFields _ hfraction)
      (by rw [natAbs_signedUnits]; exact unitsOfFields_lt h hfraction)
  else if fraction = 0 then
    infinite negative
  else
    nan

/-! ## Writing -/

/-- Exponent and fraction fields of a magnitude, as one number. A normal
magnitude keeps its leading digit in the quotient, which adds the one that
the exponent lacks. -/
def fieldsOfUnits (n : Nat) : Nat :=
  (n.log2 - 23) * 2 ^ 23 + n / spacing n

/-- The bit pattern of a number. -/
def toBits : Binary32 → UInt32
  | nan => 0x7fc00000
  | infinite true => 0xff800000
  | infinite false => 0x7f800000
  | finite units _ _ =>
      UInt32.ofNat ((if units < 0 then 2 ^ 31 else 0) + fieldsOfUnits units.natAbs)

/-! ## Reading back -/

/-- A magnitude of 24 digits has its leading digit in the quotient by its
spacing. -/
private theorem two_pow_le_div_spacing {n : Nat} (h : 23 ≤ n.log2) :
    2 ^ 23 ≤ n / spacing n :=
  (Nat.le_div_iff_mul_le (spacing_pos n)).2 (two_pow_mul_spacing_le h)

private theorem log2_lt_add {n a b : Nat} (hn : n ≠ 0) (h : n < 2 ^ a * 2 ^ b) :
    n.log2 < a + b := by
  rwa [Nat.log2_lt hn, Nat.pow_add]

/-- The fields of a magnitude in range stay below those of an infinity. -/
theorem fieldsOfUnits_lt {n : Nat} (h : n < limit) : fieldsOfUnits n < 255 * 2 ^ 23 := by
  have hquotient := div_spacing_lt n
  have hlog : n.log2 - 23 ≤ 253 := by
    by_cases hn : n = 0
    · subst hn
      simp
    · have hsize : n.log2 < 128 + 149 := log2_lt_add hn h
      omega
  unfold fieldsOfUnits
  omega

/-- The fields of a magnitude on the grid give it back. -/
theorem unitsOfFields_fieldsOfUnits {n : Nat} (h : OnGrid n) :
    unitsOfFields (fieldsOfUnits n / 2 ^ 23) (fieldsOfUnits n % 2 ^ 23) = n := by
  have hupper := div_spacing_lt n
  by_cases hlog : 23 ≤ n.log2
  · have hlower := two_pow_le_div_spacing hlog
    have hfields : fieldsOfUnits n = (n.log2 - 23) * 2 ^ 23 + n / spacing n := rfl
    have hexponent : fieldsOfUnits n / 2 ^ 23 = n.log2 - 23 + 1 := by omega
    have hfraction : 2 ^ 23 + fieldsOfUnits n % 2 ^ 23 = n / spacing n := by omega
    rw [unitsOfFields, if_neg (by omega), hexponent, hfraction, Nat.add_sub_cancel]
    exact Nat.div_mul_cancel h
  · have hspacing : spacing n = 1 := by
      rw [spacing, Nat.sub_eq_zero_of_le (by omega), Nat.pow_zero]
    have hsmall : n < 2 ^ 23 := by
      by_cases hn : n = 0
      · omega
      · exact (Nat.log2_lt hn).1 (by omega)
    have hfields : fieldsOfUnits n = n := by
      rw [fieldsOfUnits, hspacing, Nat.div_one, Nat.sub_eq_zero_of_le (by omega),
        Nat.zero_mul, Nat.zero_add]
    rw [hfields, unitsOfFields, if_pos (Nat.div_eq_of_lt hsmall), Nat.mod_eq_of_lt hsmall]

/-- A number written as a bit pattern reads back. -/
theorem ofBits_toBits (x : Binary32) : ofBits x.toBits = x := by
  match x with
  | nan => rfl
  | infinite true => rfl
  | infinite false => rfl
  | finite units onGrid bounded =>
      have hfields := fieldsOfUnits_lt bounded
      have hback := unitsOfFields_fieldsOfUnits onGrid
      generalize hsign : (if units < 0 then 2 ^ 31 else 0) = sign
      have hpattern : (finite units onGrid bounded).toBits.toNat
          = sign + fieldsOfUnits units.natAbs := by
        have hbound : sign ≤ 2 ^ 31 := by
          rw [← hsign]
          split <;> omega
        rw [toBits, hsign, UInt32.toNat_ofNat']
        exact Nat.mod_eq_of_lt (by omega)
      have hexponent : (finite units onGrid bounded).toBits.toNat / 2 ^ 23 % 2 ^ 8
          = fieldsOfUnits units.natAbs / 2 ^ 23 := by
        rw [hpattern]
        split at hsign <;> omega
      have hfraction : (finite units onGrid bounded).toBits.toNat % 2 ^ 23
          = fieldsOfUnits units.natAbs % 2 ^ 23 := by
        rw [hpattern]
        split at hsign <;> omega
      have hnegative : decide (2 ^ 31 ≤ (finite units onGrid bounded).toBits.toNat)
          = decide (units < 0) := by
        rw [hpattern, decide_eq_decide]
        split at hsign <;> omega
      have hvalue : signedUnits (decide (units < 0)) units.natAbs = units := by
        simp only [signedUnits, decide_eq_true_eq]
        split <;> omega
      unfold ofBits
      simp only [hexponent, hfraction, hnegative, hback, hvalue]
      rw [dif_pos (by omega)]

end MeterPanel.Binary32
