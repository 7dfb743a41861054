import MeterPanel.Text.Cell

/-!
# The bits of a glyph's columns

Columns are collected bit by bit, each bit shifted to its place and joined to
the others. So a bit of the result is a bit of one contribution, and the
contribution for that place is the only one that can have it.

The column of a cell follows: what a cell shows in row `r` is the glyph's row
`(r - 2) / 2`, with an inverted cell turning every pixel from row 2 on, except
in the gap column.

## Main results

* `Glyph.testBit_column`, `Glyph.testBit_tallColumn` — the bits of a column at
  both heights.
* `Cell.testBit_column` — the sixteen pixels of one column of a cell.
-/

namespace MeterPanel

/-! ## Collecting bits -/

/-- Joining parts: a property that holds of a join exactly when it holds of
one side holds of the whole exactly when it holds of some part. -/
theorem collect_iff {α : Type} {P : α → Prop} {join : α → α → α}
    (hjoin : ∀ a b, P (join a b) ↔ P a ∨ P b) (n : Nat) :
    ∀ (part : Fin n → α) (start : α),
      P (Fin.foldl n (fun whole i => join whole (part i)) start) ↔
        P start ∨ ∃ i, P (part i) := by
  induction n with
  | zero =>
      intro part start
      simp
  | succ n ih =>
      intro part start
      rw [Fin.foldl_succ, ih (fun i => part i.succ), hjoin, Fin.exists_fin_succ, or_assoc]

theorem testBit_or_byte (b : Nat) (x y : UInt8) :
    (x ||| y).toNat.testBit b = true ↔
      x.toNat.testBit b = true ∨ y.toNat.testBit b = true := by
  rw [UInt8.toNat_or, Nat.testBit_or, Bool.or_eq_true]

theorem testBit_or_word (b : Nat) (x y : UInt16) :
    (x ||| y).toNat.testBit b = true ↔
      x.toNat.testBit b = true ∨ y.toNat.testBit b = true := by
  rw [UInt16.toNat_or, Nat.testBit_or, Bool.or_eq_true]

theorem testBit_and_one (n b : Nat) :
    (n &&& 1).testBit b = (decide (b = 0) && n.testBit 0) := by
  rw [Nat.and_one_is_mod, show n % 2 = n % 2 ^ 1 from rfl, Nat.testBit_mod_two_pow]
  by_cases h : b = 0
  · subst h; simp
  · simp [h]

/-- One bit of a number, moved to another place. -/
theorem testBit_moved (n s t b : Nat) :
    (((n >>> s) &&& 1) <<< t).testBit b = true ↔ b = t ∧ n.testBit s = true := by
  rw [Nat.testBit_shiftLeft, testBit_and_one, Nat.testBit_shiftRight]
  simp only [Bool.and_eq_true, decide_eq_true_eq, Nat.add_zero]
  constructor
  · rintro ⟨hle, hzero, hbit⟩
    exact ⟨by omega, hbit⟩
  · rintro ⟨rfl, hbit⟩
    exact ⟨Nat.le_refl b, Nat.sub_self b, hbit⟩

theorem toNat_ofNat_mod_eight {s : Nat} (hs : s < 8) : (UInt8.ofNat s).toNat % 8 = s := by
  rw [UInt8.toNat_ofNat_of_lt' (by show s < 256; omega), Nat.mod_eq_of_lt hs]

theorem toNat_ofNat_mod_sixteen {s : Nat} (hs : s < 16) : (UInt16.ofNat s).toNat % 16 = s := by
  rw [UInt16.toNat_ofNat_of_lt' (by show s < 65536; omega), Nat.mod_eq_of_lt hs]

/-- One bit of a byte, moved to another place. -/
theorem testBit_moved_bit (byte : UInt8) {s t b : Nat} (hs : s < 8) (ht : t < 8)
    (hb : b < 8) :
    (((byte >>> UInt8.ofNat s) &&& 1) <<< UInt8.ofNat t).toNat.testBit b = true ↔
      b = t ∧ byte.toNat.testBit s = true := by
  rw [UInt8.toNat_shiftLeft, UInt8.toNat_and, UInt8.toNat_shiftRight, UInt8.toNat_one,
    toNat_ofNat_mod_eight hs, toNat_ofNat_mod_eight ht, Nat.testBit_mod_two_pow,
    decide_eq_true hb, Bool.true_and]
  exact testBit_moved byte.toNat s t b

/-- One bit of a byte, moved to a place of a word. -/
theorem testBit_moved_word (byte : UInt8) {s t b : Nat} (hs : s < 8) (ht : t < 16)
    (hb : b < 16) :
    (((byte >>> UInt8.ofNat s) &&& 1).toUInt16 <<< UInt16.ofNat t).toNat.testBit b = true ↔
      b = t ∧ byte.toNat.testBit s = true := by
  rw [UInt16.toNat_shiftLeft, UInt8.toNat_toUInt16, UInt8.toNat_and, UInt8.toNat_shiftRight,
    UInt8.toNat_one, toNat_ofNat_mod_eight hs, toNat_ofNat_mod_sixteen ht,
    Nat.testBit_mod_two_pow, decide_eq_true hb, Bool.true_and]
  exact testBit_moved byte.toNat s t b

/-! ## Columns of a glyph -/

namespace Glyph

/-- Bit `r` of a column is the pixel in row `r`. -/
theorem testBit_column (glyph : Glyph) (column : Fin columnCount) (row : Fin 8) :
    (glyph.column column).toNat.testBit row = glyph.lit column row := by
  rw [Bool.eq_iff_iff]
  refine (collect_iff (P := fun bits : UInt8 => bits.toNat.testBit row = true)
    (testBit_or_byte row) 8 _ 0).trans ?_
  have hshift : 5 - column.val < 8 := by omega
  constructor
  · rintro (hstart | ⟨source, hbit⟩)
    · simp at hstart
    · obtain ⟨hplace, hbit⟩ := (testBit_moved_bit _ hshift source.isLt row.isLt).1 hbit
      rw [Fin.ext hplace]
      exact hbit
  · intro hlit
    exact .inr ⟨row, (testBit_moved_bit _ hshift row.isLt row.isLt).2 ⟨rfl, hlit⟩⟩

/-- A stretched column shows every bit twice. -/
theorem testBit_stretch (column : UInt8) {r : Nat} (hr : r < 16) :
    (stretch column).toNat.testBit r = column.toNat.testBit (r / 2) := by
  rw [Bool.eq_iff_iff]
  refine (collect_iff (P := fun bits : UInt16 => bits.toNat.testBit r = true)
    (testBit_or_word r) 8 _ 0).trans ?_
  constructor
  · rintro (hstart | ⟨source, hbit⟩)
    · simp at hstart
    · rcases (testBit_or_word r _ _).1 hbit with heven | hodd
      · obtain ⟨hplace, hbit⟩ :=
          (testBit_moved_word _ source.isLt (by omega) hr).1 heven
        rwa [show r / 2 = source.val by omega]
      · obtain ⟨hplace, hbit⟩ :=
          (testBit_moved_word _ source.isLt (by omega) hr).1 hodd
        rwa [show r / 2 = source.val by omega]
  · intro hbit
    have hsource : r / 2 < 8 := by omega
    refine .inr ⟨⟨r / 2, hsource⟩, (testBit_or_word r _ _).2 ?_⟩
    -- an even row is the first copy of its bit, an odd row the second
    rcases Nat.mod_two_eq_zero_or_one r with heven | hodd
    · exact .inl ((testBit_moved_word column (t := 2 * (r / 2)) hsource (by omega) hr).2
        ⟨by omega, hbit⟩)
    · exact .inr ((testBit_moved_word column (t := 2 * (r / 2) + 1) hsource (by omega) hr).2
        ⟨by omega, hbit⟩)

/-- Rows `2r` and `2r + 1` of a tall column are the pixel in row `r`. -/
theorem testBit_tallColumn (glyph : Glyph) (column : Fin columnCount) {r : Nat} (hr : r < 16) :
    (glyph.tallColumn column).toNat.testBit r = glyph.lit column ⟨r / 2, by omega⟩ := by
  rw [tallColumn, testBit_stretch _ hr]
  exact testBit_column glyph column ⟨r / 2, by omega⟩

end Glyph

/-! ## Columns of a cell -/

namespace Cell

/-- Whether a cell shows light in column `column` and row `r`: two dark rows
on top, then every row of the glyph twice; inverted, all of that is turned
but the gap column and the two rows. -/
def shows (code : UInt8) (inverted : Bool) (column : Fin Glyph.columnCount) (r : Nat) : Bool :=
  decide (2 ≤ r) &&
    ((Font.glyph code).lit column (Fin.ofNat 8 ((r - 2) / 2)) ^^
      (inverted && decide (0 < column.val)))

/-- The column table holds the columns of the glyph of each code. -/
theorem get_tallColumns (code : UInt8) (column : Fin Glyph.columnCount) :
    (Font.tallColumns.get (Font.index code)).get column = (Font.glyph code).tallColumn column := by
  have hglyph : Font.tallColumns.get (Font.index code) =
      Vector.ofFn (Font.glyph code).tallColumn :=
    Vector.getElem_map _ (Font.index code).isLt
  rw [hglyph]
  exact Vector.getElem_ofFn column.isLt

private theorem testBit_invertMask {b : Nat} (h : b < 14) :
    invertMask.toNat.testBit b = true := by
  rw [show invertMask.toNat = 2 ^ 14 - 1 from rfl, Nat.testBit_two_pow_sub_one]
  simp [h]

private theorem testBit_drop (bits : UInt16) {r : Nat} (hr : r < 16) :
    (bits <<< drop).toNat.testBit r = (decide (2 ≤ r) && bits.toNat.testBit (r - 2)) := by
  rw [UInt16.toNat_shiftLeft, Nat.testBit_mod_two_pow, Nat.testBit_shiftLeft,
    show drop.toNat % 16 = 2 from rfl]
  simp [hr]

/-- The sixteen pixels of one column of a cell. -/
theorem testBit_column (code : UInt8) (inverted : Bool) (column : Fin Glyph.columnCount)
    {r : Nat} (hr : r < 16) :
    (Cell.column code column inverted).toNat.testBit r = shows code inverted column r := by
  unfold Cell.column shows
  dsimp only
  rw [testBit_drop _ hr, get_tallColumns]
  by_cases htop : 2 ≤ r
  · have hrow : (⟨(r - 2) / 2, by omega⟩ : Fin 8) = Fin.ofNat 8 ((r - 2) / 2) := by
      apply Fin.ext
      show (r - 2) / 2 = (r - 2) / 2 % 8
      omega
    have hglyph := Glyph.testBit_tallColumn (Font.glyph code) column
      (show r - 2 < 16 by omega)
    rw [hrow] at hglyph
    by_cases hflip : inverted = true ∧ 0 < column.val
    · rw [if_pos hflip, UInt16.toNat_xor, Nat.testBit_xor, hglyph,
        testBit_invertMask (by omega)]
      simp [hflip]
    · rw [if_neg hflip, hglyph]
      simp only [not_and, Nat.not_lt] at hflip
      cases inverted <;> simp_all
  · simp [htop]

end Cell

end MeterPanel
