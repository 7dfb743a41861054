import MeterPanel.Display.Basic
import MeterPanel.Font.Table

/-!
# Text screens

A text screen is what a user interface needs to know of a display: rows and
columns of characters, without pages, fonts or a bus. Positions are in cells,
and nothing is seen before a flush.

A display is a text screen. It refuses to flush before it is ready, and it
does nothing in rows that its panel does not have.
-/

namespace MeterPanel

/-- Why a text screen could not do what it was asked for. -/
inductive ScreenError where
  /-- The display could not be reached. -/
  | communication
  /-- The display has not been powered up. -/
  | notReady
  /-- The panel cannot be set up. -/
  | unsupportedGeometry
  deriving DecidableEq, Repr

/-- An operation on a text screen with states `δ`. -/
abbrev ScreenM (δ : Type) := ExceptT ScreenError (StateM δ)

/-- Screens of text with states `δ`. -/
class TextScreen (δ : Type) where
  /-- Blanks the whole screen. -/
  clear : ScreenM δ Unit
  /-- Writes text from a cell to the right, cut off at the edge. -/
  write (row column : UInt8) (text : String) : ScreenM δ Unit
  /-- Inverts the cells of a row from column `start` up to, not including,
  column `stop`; a second time restores them. -/
  highlight (row start stop : UInt8) : ScreenM δ Unit
  /-- Shows what has been drawn. -/
  flush : ScreenM δ Unit
  /-- Columns and rows. -/
  size (screen : δ) : UInt8 × UInt8
  /-- Whether a flush can work. -/
  isReady (screen : δ) : Bool

/-- What a user of the screen gets to know of an error. -/
def DisplayError.toScreenError {ε : Type} : DisplayError ε → ScreenError
  | .unsupportedHeight _ => .unsupportedGeometry
  | .bus _ => .communication

namespace Display

variable {σ ε : Type} [Bus σ ε]

/-- Draws text in a row that the panel has; the row behind it stays as it
is. -/
def write (row column : UInt8) (text : String) (display : Display σ) : Display σ :=
  if row < display.panel.textRows then
    display.draw fun canvas =>
      canvas.drawLine (text.toList.map Font.codeOf) column row false
  else
    display

/-- Inverts cells in a row that the panel has. -/
def highlight (row start stop : UInt8) (display : Display σ) : Display σ :=
  if row < display.panel.textRows then
    display.draw fun canvas => canvas.invertCells row start stop
  else
    display

/-- Sends the picture of a display that is ready. -/
def flush : ScreenM (Display σ) Unit := do
  unless (← get).ready do
    throw .notReady
  ExceptT.adapt DisplayError.toScreenError sendFrame

instance : TextScreen (Display σ) where
  clear := modify (draw Canvas.clear)
  write row column text := modify (write row column text)
  highlight row start stop := modify (highlight row start stop)
  flush := flush
  size display := (UInt8.ofNat Text.columnCount, display.panel.textRows)
  isReady display := display.ready

end Display

end MeterPanel
