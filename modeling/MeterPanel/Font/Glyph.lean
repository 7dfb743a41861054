/-!
# Glyphs and their columns

A glyph is drawn row by row, but the panel takes its memory as vertical
bytes, so a glyph is turned into columns before use. A column comes in two
sizes: one bit per row, or two bits per row for text of double height.

## Main definitions

* `Glyph.lit` — the picture itself: is the pixel in this column and row lit?
* `Glyph.column` — a column as a byte, bit `r` for row `r`.
* `Glyph.tallColumn` — the same column with every row shown twice.
-/

namespace MeterPanel

/-- The picture of one character: eight rows, the top one first. Bits 5 to 0
of a row are its six columns from left to right; higher bits show nowhere. -/
structure Glyph where
  rows : Vector UInt8 8
  deriving DecidableEq, Repr

namespace Glyph

/-- Columns of a glyph, the gap on its left included. -/
def columnCount : Nat := 6

/-- Whether the pixel in the given column and row is lit. -/
def lit (glyph : Glyph) (column : Fin columnCount) (row : Fin 8) : Bool :=
  glyph.rows[row].toNat.testBit (5 - column)

/-- One column as a byte: bit `r` is the pixel of row `r`. -/
def column (glyph : Glyph) (column : Fin columnCount) : UInt8 :=
  Fin.foldl 8 (fun bits row =>
    bits ||| (((glyph.rows[row] >>> UInt8.ofNat (5 - column)) &&& 1) <<< UInt8.ofNat row)) 0

/-- Shows every bit of a column twice: bit `r` becomes bits `2r` and
`2r + 1`. -/
def stretch (column : UInt8) : UInt16 :=
  Fin.foldl 8 (fun bits row =>
    let pixel := ((column >>> UInt8.ofNat row) &&& 1).toUInt16
    bits ||| (pixel <<< UInt16.ofNat (2 * row) ||| pixel <<< UInt16.ofNat (2 * row + 1))) 0

/-- One column at double height. -/
def tallColumn (glyph : Glyph) (column : Fin columnCount) : UInt16 :=
  stretch (glyph.column column)

end Glyph

end MeterPanel
