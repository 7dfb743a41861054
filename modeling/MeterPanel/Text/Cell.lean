import MeterPanel.Canvas.Basic
import MeterPanel.Font.Table

/-!
# Character cells

Text stands in cells of two pages. A cell shows one glyph at double height,
moved down by two pixels so that its seven rows sit in the middle of the
sixteen, and an inverted cell keeps a dark border: the gap column on the left
and the two top rows do not take part in the inversion.

Cells are placed by the byte index of their first column. An index that runs
past the right edge goes on in the next page, and what falls behind the end
of the memory is dropped.
-/

namespace MeterPanel

/-- How a character is shown. -/
structure TextStyle where
  /-- Dark on light. -/
  inverted : Bool
  /-- Every column twice. -/
  wide : Bool
  deriving DecidableEq, Repr

namespace TextStyle

/-- Light on dark, every column once. -/
def normal : TextStyle := ⟨false, false⟩

instance : Inhabited TextStyle := ⟨normal⟩

/-- Width of a cell in pixels. -/
def cellWidth (style : TextStyle) : Nat :=
  if style.wide then 2 * Glyph.columnCount else Glyph.columnCount

end TextStyle

namespace Cell

/-- Pixels left of the first cell, the control byte counted in. -/
def lead : Nat := 5

/-- Pixels by which a glyph is moved down in its cell. -/
def drop : UInt16 := 2

/-- The bits that an inverted column flips before it is moved down. -/
def invertMask : UInt16 := 0x3FFF

/-- Byte index of the upper half of a cell's first column. -/
def offset (x y : UInt8) (style : TextStyle) : Nat :=
  y.toNat * (2 * Canvas.width) + x.toNat * style.cellWidth + lead

/-- The sixteen pixels of one column of a character's cell, the topmost in
bit 0. -/
def column (code : UInt8) (column : Fin Glyph.columnCount) (inverted : Bool) : UInt16 :=
  let bits := (Font.tallColumns.get (Font.index code)).get column
  let shown := if inverted ∧ 0 < column.val then bits ^^^ invertMask else bits
  shown <<< drop

/-- A column by number; a glyph has none past the sixth. -/
def column? (code : UInt8) (number : Nat) (inverted : Bool) : Option UInt16 :=
  if h : number < Glyph.columnCount then some (column code ⟨number, h⟩ inverted) else none

end Cell

namespace Canvas

/-- Stores a column of sixteen pixels: its upper half at the index, its lower
half one page below. -/
def putColumn (canvas : Canvas) (index : Nat) (column : UInt16) : Canvas :=
  (canvas.put index column.toUInt8).put (index + width) (column >>> 8).toUInt8

/-- Draws one character in the cell at the given position. -/
def drawChar (canvas : Canvas) (code x y : UInt8) (style : TextStyle) : Canvas :=
  Fin.foldl Glyph.columnCount (fun canvas column =>
    let bits := Cell.column code column style.inverted
    if style.wide then
      let index := Cell.offset x y style + 2 * column
      (canvas.putColumn index bits).putColumn (index + 1) bits
    else
      canvas.putColumn (Cell.offset x y style + column) bits) canvas

/-- Flips the pixels of a cell of normal width that an inverted character
flips, and so turns a normal character into an inverted one and back. -/
def invertCell (canvas : Canvas) (x y : UInt8) : Canvas :=
  let mask := Cell.invertMask <<< Cell.drop
  (List.range' 1 (Glyph.columnCount - 1)).foldl (fun canvas column =>
    let index := Cell.offset x y .normal + column
    (canvas.toggle index mask.toUInt8).toggle (index + width) (mask >>> 8).toUInt8) canvas

end Canvas

end MeterPanel
