import MeterPanel.Text.Cell

/-!
# Lines of text

A panel shows twenty character cells in a row, whatever its height. A line is
drawn from a start column to the right; it ends with the text, at the first
NUL or at the last column, and the rest of the row can be blanked.
-/

namespace MeterPanel

namespace Text

/-- Cells in one row of text. -/
def columnCount : Nat := 20

/-- A space. -/
def blankCode : UInt8 := 0x20

end Text

namespace Canvas

/-- Draws characters from column `x` to the right and gives back the column
behind the last one drawn. -/
def drawRun (canvas : Canvas) (codes : List UInt8) (x y : UInt8) : Canvas × UInt8 :=
  match codes with
  | [] => (canvas, x)
  | code :: rest =>
      if code = 0 ∨ Text.columnCount ≤ x.toNat then
        (canvas, x)
      else
        (canvas.drawChar code x y .normal).drawRun rest (x + 1) y

/-- Blanks the cells from column `x` to the right edge. -/
def blankFrom (canvas : Canvas) (x y : UInt8) : Canvas :=
  (List.range' x.toNat (Text.columnCount - x.toNat)).foldl (fun canvas column =>
    canvas.drawChar Text.blankCode (UInt8.ofNat column) y .normal) canvas

/-- Draws a line of text from column `x`, and with `clearLine` blanks the row
behind it. -/
def drawLine (canvas : Canvas) (codes : List UInt8) (x y : UInt8) (clearLine : Bool) : Canvas :=
  let (drawn, stop) := canvas.drawRun codes x y
  if clearLine then drawn.blankFrom stop y else drawn

/-- Flips the cells of row `y` from column `start` up to, not including,
column `stop`. -/
def invertCells (canvas : Canvas) (y start stop : UInt8) : Canvas :=
  let columns := min stop.toNat Text.columnCount - start.toNat
  (List.range' start.toNat columns).foldl (fun canvas column =>
    canvas.invertCell (UInt8.ofNat column) y) canvas

end Canvas

end MeterPanel
