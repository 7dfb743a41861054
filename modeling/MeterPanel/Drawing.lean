import MeterPanel.Bar.Drawing
import MeterPanel.Text.Line

/-!
# Drawing step by step

Everything that can be drawn on a canvas, as a list of steps. A step has no
result when it would need a page that a bar has no room for.
-/

namespace MeterPanel

/-- One step of drawing. -/
inductive Drawing where
  | setPixel (x y : UInt8)
  | clearPixel (x y : UInt8)
  | clear
  | char (code x y : UInt8) (style : TextStyle)
  | invertCell (x y : UInt8)
  | bars (firstRow : UInt8) (levels : Bar.Levels) (peaks : Option Bar.Levels)

namespace Canvas

/-- The canvas after one step. -/
def draw? (canvas : Canvas) : Drawing → Option Canvas
  | .setPixel x y => some (canvas.setPixel x y)
  | .clearPixel x y => some (canvas.clearPixel x y)
  | .clear => some canvas.clear
  | .char code x y style => some (canvas.drawChar code x y style)
  | .invertCell x y => some (canvas.invertCell x y)
  | .bars firstRow levels peaks => canvas.drawBars? firstRow levels peaks

/-- The canvas after all steps. -/
def drawAll? (canvas : Canvas) (steps : List Drawing) : Option Canvas :=
  steps.foldlM draw? canvas

end Canvas

end MeterPanel
