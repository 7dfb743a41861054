import MeterPanel.Proofs.TextCells

/-!
# Characters anywhere

A character can be drawn at any position and in any style, also where its cell
runs past the right edge or the end of the memory. Its pixels are then found
by counting: `place` numbers the bytes that hold them, page after page from
the left, as if the memory had no end. A pixel with a place in the memory
shows its row of the glyph, the others are dropped, and no pixel without such
a place changes.

For a cell that keeps clear of the right edge the places are a rectangle, and
below the fourth row there are none.

## Main results

* `showsChar_drawChar` — the pixels of a character at any position.
* `inRectangle_of_covers` — clear of the right edge they fill a rectangle.
* `char_at_any_place` — the two together.
-/

namespace MeterPanel

namespace Cell

/-- The number of the byte that holds row `row` of a glyph column, in one of
its copies. Bytes are counted from the first one of the picture. -/
def place (x y : UInt8) (style : TextStyle) (column : Fin Glyph.columnCount) (copy row : Nat) :
    Nat :=
  256 * y.toNat + (if style.wide then 12 else 6) * x.toNat + 4 +
    (if style.wide then 2 * column.val + copy else column.val) + 128 * (row / 8)

/-- Whether a pixel of the panel belongs to a cell, wherever its rows run. -/
def Covers (x y : UInt8) (style : TextStyle) (px py : Nat) : Prop :=
  ∃ (column : Fin Glyph.columnCount) (copy row : Nat), copy < style.copies ∧ row < 16 ∧
    place x y style column copy row < 1024 ∧
      px = place x y style column copy row % 128 ∧
      py = 8 * (place x y style column copy row / 128) + row % 8

/-- Whether a pixel of the panel lies in the rectangle of a cell. -/
def InRectangle (x y : UInt8) (style : TextStyle) (px py : Nat) : Prop :=
  let width := if style.wide then 12 else 6
  width * x.toNat + 4 ≤ px ∧ px < width * (x.toNat + 1) + 4 ∧ py / 16 = y.toNat

/-- The byte of a half of a column, found by its place. -/
theorem index_eq_place (x y : UInt8) (style : TextStyle) (column : Fin Glyph.columnCount)
    {copy row : Nat} (hcopy : copy < style.copies) (part : Fin 2) (hrow : row / 8 = part) :
    index x y style column copy part = place x y style column copy row + 1 := by
  unfold index place offset lead Canvas.width TextStyle.cellWidth Glyph.columnCount
  unfold TextStyle.copies at hcopy ⊢
  cases hwide : style.wide with
  | false =>
      simp only [hwide, Bool.false_eq_true, if_false] at hcopy ⊢
      omega
  | true =>
      simp only [hwide, if_true] at hcopy ⊢
      omega

/-- A cell that keeps clear of the right edge is a rectangle. -/
theorem inRectangle_of_covers {x y : UInt8} {style : TextStyle} {px py : Nat}
    (hedge : (if style.wide then 12 else 6) * (x.toNat + 1) + 4 ≤ 128)
    (h : Covers x y style px py) : InRectangle x y style px py := by
  obtain ⟨column, copy, row, hcopy, hrow, -, rfl, rfl⟩ := h
  have hcolumn : column.val < 6 := column.isLt
  unfold InRectangle place
  unfold TextStyle.copies at hcopy
  cases hwide : style.wide with
  | false =>
      simp only [hwide, Bool.false_eq_true, if_false] at hcopy hedge ⊢
      omega
  | true =>
      simp only [hwide, if_true] at hcopy hedge ⊢
      omega

end Cell

namespace Canvas

/-- The canvas `after` shows a character, over the picture `before`. -/
structure ShowsChar (code x y : UInt8) (style : TextStyle) (before after : Canvas) : Prop where
  glyph : ∀ (column : Fin Glyph.columnCount) (copy row : Nat),
    copy < style.copies → row < 16 →
      let place := Cell.place x y style column copy row
      place < 1024 →
        after.pixel (UInt8.ofNat (place % 128)) (UInt8.ofNat (8 * (place / 128) + row % 8)) =
          (decide (2 ≤ row) &&
            ((Font.glyph code).lit column (Fin.ofNat 8 ((row - 2) / 2)) ^^
              (style.inverted && decide (0 < column.val))))
  rest : ∀ px py : UInt8, ¬ Cell.Covers x y style (px.toNat % 128) (py.toNat % 64) →
    after.pixel px py = before.pixel px py
  controlByte : after.byteAt 0 = before.byteAt 0
  height : after.height = before.height

section

variable (canvas : Canvas) (code x y : UInt8) (style : TextStyle)

/-- A pixel with a place in the memory shows its row of the glyph. -/
theorem lit_drawChar_of_place (column : Fin Glyph.columnCount) {copy row : Nat}
    (hcopy : copy < style.copies) (hrow : row < 16)
    (hplace : Cell.place x y style column copy row < 1024) :
    (canvas.drawChar code x y style).lit (Cell.place x y style column copy row % 128)
        (8 * (Cell.place x y style column copy row / 128) + row % 8) =
      Cell.shows code style.inverted column row := by
  have hindex := Cell.index_eq_place x y style column hcopy ⟨row / 8, by omega⟩ rfl
  have hbyte := byteAt_drawChar canvas code x y style column ⟨row / 8, by omega⟩ hcopy (by omega)
  rw [hindex] at hbyte
  rw [← Cell.testBit_column code style.inverted column hrow]
  generalize Cell.place x y style column copy row = place at *
  rw [lit, show 128 * ((8 * (place / 128) + row % 8) / 8) + place % 128 + 1 = place + 1 by omega,
    hbyte, Cell.testBit_half _ _ (by omega)]
  congr 1
  dsimp only
  omega

/-- A pixel without a place in the memory stays as it was. -/
theorem lit_drawChar_of_not_covers {px py : Nat} (hx : px < 128) (hy : py < 64)
    (h : ¬ Cell.Covers x y style px py) :
    (canvas.drawChar code x y style).lit px py = canvas.lit px py := by
  refine lit_congr (byteAt_drawChar_of_ne canvas code x y style (by omega) ?_)
  intro column copy part hcopy hindex
  -- the row of the cell that would show in this pixel
  have hplace := Cell.index_eq_place x y style column hcopy part
    (show (8 * part.val + py % 8) / 8 = part.val by omega)
  refine h ⟨column, copy, 8 * part.val + py % 8, hcopy, ?_, ?_, ?_, ?_⟩ <;> omega

theorem showsChar_drawChar :
    ShowsChar code x y style canvas (canvas.drawChar code x y style) where
  glyph := by
    intro column copy row hcopy hrow place hplace
    rw [pixel_ofNat _ (by omega) (by omega)]
    exact lit_drawChar_of_place canvas code x y style column hcopy hrow hplace
  rest := by
    intro px py hrest
    rw [pixel_eq_lit, pixel_eq_lit]
    exact lit_drawChar_of_not_covers canvas code x y style (by omega) (by omega) hrest
  controlByte := (keeps_drawChar canvas code x y style).controlByte
  height := (keeps_drawChar canvas code x y style).height

/-- A character at any position, in any style, on any picture: its pixels with
a place in the memory show the glyph, nothing else changes. Clear of the right
edge it changes the rectangle of its cell only, and below the fourth row
nothing. -/
theorem char_at_any_place :
    ShowsChar code x y style canvas (canvas.drawChar code x y style) ∧
      ((if style.wide then 12 else 6) * (x.toNat + 1) + 4 ≤ 128 → ∀ px py : UInt8,
        ¬ Cell.InRectangle x y style (px.toNat % 128) (py.toNat % 64) →
          (canvas.drawChar code x y style).pixel px py = canvas.pixel px py) ∧
      (4 ≤ y.toNat → canvas.drawChar code x y style = canvas) := by
  have hshows := showsChar_drawChar canvas code x y style
  refine ⟨hshows, fun hedge px py hout => ?_, drawChar_of_row_ge canvas code x y style⟩
  exact hshows.rest px py fun hcovers => hout (Cell.inRectangle_of_covers hedge hcovers)

end

end Canvas

end MeterPanel
