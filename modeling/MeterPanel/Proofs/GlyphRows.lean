import MeterPanel.Proofs.ByteChanges
import MeterPanel.Proofs.GlyphColumns

/-!
# Rows from columns

Turning a glyph into columns is a transposition: column `c` holds bit `5 - c`
of every row, the tall column holds it twice. Six columns read six bits of a
row, so the two higher bits are lost and nothing else is.

Here the rows are collected from the columns again, bit by bit, and a tall
column is squeezed to a plain one first. What comes back are the rows with
their two higher bits cleared, so glyphs with the same columns of either
height are those that show the same picture.

## Main results

* `columns_masked` — the two higher bits of a row show in no column.
* `ofColumns_columns` — the rows are collected from the columns.
* `squeeze_stretch` — a tall column determines the plain one.
* `columns_determine_rows` — all of it, for any glyph.
-/

namespace MeterPanel.Glyph

/-- The columns of a glyph from left to right. -/
def columns (glyph : Glyph) : Vector UInt8 columnCount := Vector.ofFn glyph.column

/-- The tall columns of a glyph from left to right. -/
def tallColumns (glyph : Glyph) : Vector UInt16 columnCount := Vector.ofFn glyph.tallColumn

theorem get_columns (glyph : Glyph) (column : Fin columnCount) :
    glyph.columns.get column = glyph.column column :=
  Vector.getElem_ofFn column.isLt

/-- A glyph without the bits that show nowhere. -/
def masked (glyph : Glyph) : Glyph := ⟨glyph.rows.map fun row => row &&& 0x3F⟩

/-! ## Collecting rows -/

/-- One row as a byte: bit `5 - c` is the pixel in column `c`. -/
def rowOf (columns : Vector UInt8 columnCount) (row : Fin 8) : UInt8 :=
  Fin.foldl columnCount (fun bits (column : Fin columnCount) =>
    bits ||| (((columns.get column >>> UInt8.ofNat row) &&& 1) <<< UInt8.ofNat (5 - column))) 0

/-- The glyph with the given columns. -/
def ofColumns (columns : Vector UInt8 columnCount) : Glyph := ⟨Vector.ofFn (rowOf columns)⟩

/-- Takes every second bit of a tall column: bit `2r` becomes bit `r`. -/
def squeeze (column : UInt16) : UInt8 :=
  Fin.foldl 8 (fun bits (row : Fin 8) =>
    bits ||| (((column >>> UInt16.ofNat (2 * row)) &&& 1).toUInt8 <<< UInt8.ofNat row)) 0

/-- The glyph with the given tall columns. -/
def ofTallColumns (columns : Vector UInt16 columnCount) : Glyph := ofColumns (columns.map squeeze)

/-! ## Six bits of a row -/

theorem testBit_mask (byte : UInt8) (b : Nat) :
    (byte &&& 0x3F).toNat.testBit b = (byte.toNat.testBit b && decide (b < 6)) := by
  rw [UInt8.toNat_and, Nat.testBit_and, show (0x3F : UInt8).toNat = 2 ^ 6 - 1 from rfl,
    Nat.testBit_two_pow_sub_one]

theorem lit_masked (glyph : Glyph) (column : Fin columnCount) (row : Fin 8) :
    glyph.masked.lit column row = glyph.lit column row := by
  have hrow : glyph.masked.rows[row] = glyph.rows[row] &&& 0x3F := Vector.getElem_map _ row.isLt
  rw [lit, hrow, testBit_mask, lit, decide_eq_true (by omega), Bool.and_true]

/-- The higher bits of a row show in no column. -/
theorem columns_masked (glyph : Glyph) : glyph.masked.columns = glyph.columns := by
  refine congrArg Vector.ofFn (funext fun column => byte_eq_of_testBit fun b hb => ?_)
  rw [testBit_column glyph.masked column ⟨b, hb⟩, testBit_column glyph column ⟨b, hb⟩, lit_masked]

/-- A bit of a row comes from the one column that shows it. -/
theorem testBit_rowOf (columns : Vector UInt8 columnCount) (row : Fin 8) {b : Nat} (hb : b < 8) :
    (rowOf columns row).toNat.testBit b = true ↔
      ∃ column : Fin columnCount, b = 5 - column ∧
        (columns.get column).toNat.testBit row = true := by
  refine (collect_iff (P := fun bits : UInt8 => bits.toNat.testBit b = true)
    (testBit_or_byte b) columnCount _ 0).trans ?_
  have hplace : ∀ column : Fin columnCount, 5 - column.val < 8 := fun _ => by omega
  constructor
  · rintro (hstart | ⟨column, hbit⟩)
    · simp at hstart
    · exact ⟨column, (testBit_moved_bit _ row.isLt (hplace column) hb).1 hbit⟩
  · rintro ⟨column, hbit⟩
    exact .inr ⟨column, (testBit_moved_bit _ row.isLt (hplace column) hb).2 hbit⟩

/-- The columns determine the rows but for their two higher bits. -/
theorem ofColumns_columns (glyph : Glyph) : ofColumns glyph.columns = glyph.masked := by
  refine congrArg Glyph.mk (Vector.ext fun row hrow => ?_)
  rw [Vector.getElem_ofFn, Vector.getElem_map]
  refine byte_eq_of_testBit fun b hb => ?_
  rw [Bool.eq_iff_iff, testBit_rowOf _ _ hb, testBit_mask, Bool.and_eq_true, decide_eq_true_eq]
  have hcolumn : ∀ column : Fin columnCount,
      (glyph.columns.get column).toNat.testBit row = glyph.lit column ⟨row, hrow⟩ := by
    intro column
    rw [get_columns]
    exact testBit_column glyph column ⟨row, hrow⟩
  constructor
  · rintro ⟨column, rfl, hlit⟩
    exact ⟨(hcolumn column).symm.trans hlit, by omega⟩
  · rintro ⟨hlit, hlow⟩
    have hplace : 5 - (5 - b) = b := by omega
    refine ⟨⟨5 - b, by unfold columnCount; omega⟩, hplace.symm, (hcolumn _).trans ?_⟩
    rw [lit, hplace]
    exact hlit

theorem masked_eq_iff (a b : Glyph) :
    a.masked = b.masked ↔ ∀ row, a.rows.get row &&& 0x3F = b.rows.get row &&& 0x3F := by
  rw [masked, masked, Glyph.mk.injEq, Vector.ext_iff]
  constructor
  · intro h row
    have hrow := h row row.isLt
    rwa [Vector.getElem_map, Vector.getElem_map] at hrow
  · intro h row hrow
    rw [Vector.getElem_map, Vector.getElem_map]
    exact h ⟨row, hrow⟩

/-- Glyphs have the same columns exactly if their rows agree where they
show. -/
theorem columns_eq_iff (a b : Glyph) : a.columns = b.columns ↔ a.masked = b.masked := by
  constructor
  · intro h
    rw [← ofColumns_columns, h, ofColumns_columns]
  · intro h
    rw [← columns_masked, h, columns_masked]

/-! ## Tall columns -/

/-- One bit of a word, moved to a place of a byte. -/
theorem testBit_moved_down (word : UInt16) {s t b : Nat} (hs : s < 16) (ht : t < 8)
    (hb : b < 8) :
    (((word >>> UInt16.ofNat s) &&& 1).toUInt8 <<< UInt8.ofNat t).toNat.testBit b = true ↔
      b = t ∧ word.toNat.testBit s = true := by
  have hone : (word.toNat >>> s &&& 1) % 2 ^ 8 = word.toNat >>> s &&& 1 :=
    Nat.mod_eq_of_lt (Nat.lt_of_le_of_lt Nat.and_le_right (by decide))
  rw [UInt8.toNat_shiftLeft, UInt16.toNat_toUInt8, UInt16.toNat_and, UInt16.toNat_shiftRight,
    UInt16.toNat_one, toNat_ofNat_mod_sixteen hs, toNat_ofNat_mod_eight ht, hone,
    Nat.testBit_mod_two_pow, decide_eq_true hb, Bool.true_and]
  exact testBit_moved word.toNat s t b

theorem testBit_squeeze (column : UInt16) {b : Nat} (hb : b < 8) :
    (squeeze column).toNat.testBit b = column.toNat.testBit (2 * b) := by
  rw [Bool.eq_iff_iff]
  refine (collect_iff (P := fun bits : UInt8 => bits.toNat.testBit b = true)
    (testBit_or_byte b) 8 _ 0).trans ?_
  constructor
  · rintro (hstart | ⟨row, hbit⟩)
    · simp at hstart
    · obtain ⟨rfl, hlit⟩ := (testBit_moved_down column (by omega) row.isLt hb).1 hbit
      exact hlit
  · intro hbit
    exact .inr ⟨⟨b, hb⟩, (testBit_moved_down column (by omega) hb hb).2 ⟨rfl, hbit⟩⟩

/-- A tall column determines the plain one. -/
theorem squeeze_stretch (column : UInt8) : squeeze (stretch column) = column := by
  refine byte_eq_of_testBit fun b hb => ?_
  rw [testBit_squeeze _ hb, testBit_stretch _ (by omega), Nat.mul_div_cancel_left b (by decide)]

theorem map_stretch_columns (glyph : Glyph) : glyph.columns.map stretch = glyph.tallColumns :=
  Vector.map_ofFn ..

theorem map_squeeze_tallColumns (glyph : Glyph) :
    glyph.tallColumns.map squeeze = glyph.columns := by
  have hback : squeeze ∘ stretch = id := funext squeeze_stretch
  rw [← map_stretch_columns, Vector.map_map, hback, Vector.map_id]

theorem ofTallColumns_tallColumns (glyph : Glyph) :
    ofTallColumns glyph.tallColumns = glyph.masked := by
  rw [ofTallColumns, map_squeeze_tallColumns, ofColumns_columns]

theorem columns_eq_iff_tallColumns_eq (a b : Glyph) :
    a.columns = b.columns ↔ a.tallColumns = b.tallColumns := by
  constructor
  · intro h
    rw [← map_stretch_columns, h, map_stretch_columns]
  · intro h
    rw [← map_squeeze_tallColumns, h, map_squeeze_tallColumns]

/-! ## Any glyph -/

/-- For any eight rows: a bit of a column is a bit of a row, once in a plain
column and twice in a tall one. So plain columns, tall columns and the six
shown bits of each row determine each other, and the rows, their two higher
bits cleared, are collected from the columns of either height. The tables of
the font hold its rows in this way. -/
theorem columns_determine_rows (glyph : Glyph) :
    (∀ (column : Fin columnCount) (row : Fin 8),
      (glyph.column column).toNat.testBit row =
        (glyph.rows.get row).toNat.testBit (5 - column) ∧
      (glyph.tallColumn column).toNat.testBit (2 * row) =
        (glyph.rows.get row).toNat.testBit (5 - column) ∧
      (glyph.tallColumn column).toNat.testBit (2 * row + 1) =
        (glyph.rows.get row).toNat.testBit (5 - column)) ∧
    (∀ other : Glyph,
      (glyph.columns = other.columns ↔ glyph.tallColumns = other.tallColumns) ∧
      (glyph.columns = other.columns ↔
        ∀ row, glyph.rows.get row &&& 0x3F = other.rows.get row &&& 0x3F)) ∧
    ofColumns glyph.columns = glyph.masked ∧
    ofTallColumns glyph.tallColumns = glyph.masked ∧
    Font.columns.map ofColumns = Font.glyphs.map masked ∧
    Font.tallColumns.map ofTallColumns = Font.glyphs.map masked := by
  have htall : ∀ (column : Fin columnCount) (row : Fin 8) (copy : Nat), copy < 2 →
      (glyph.tallColumn column).toNat.testBit (2 * row + copy) = glyph.lit column row := by
    intro column row copy hcopy
    rw [testBit_tallColumn glyph column (by omega)]
    congr 1
    apply Fin.ext
    dsimp only
    omega
  refine ⟨fun column row => ⟨testBit_column glyph column row, htall column row 0 (by decide),
    htall column row 1 (by decide)⟩, fun other => ⟨columns_eq_iff_tallColumns_eq glyph other, ?_⟩,
    ofColumns_columns glyph, ofTallColumns_tallColumns glyph, ?_, ?_⟩
  · rw [columns_eq_iff, masked_eq_iff]
  · rw [show Font.columns = Font.glyphs.map columns from rfl, Vector.map_map]
    exact congrArg Font.glyphs.map (funext ofColumns_columns)
  · rw [show Font.tallColumns = Font.glyphs.map tallColumns from rfl, Vector.map_map]
    exact congrArg Font.glyphs.map (funext ofTallColumns_tallColumns)

end MeterPanel.Glyph
