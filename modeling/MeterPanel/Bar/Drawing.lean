import MeterPanel.Bar.Stack

/-!
# Drawing the bars

Nine bars stand side by side, twelve pixels wide with two pixels between
them. Each of the twelve byte columns of a bar receives the same stack, the
lowest page at the bottom. Every page of a bar is written, so nothing of an
earlier picture stays in it, and pages below the end of the memory are
dropped.

## Main results

* `drawBars?_isSome` — the bars of a panel can always be drawn.
-/

namespace MeterPanel

namespace Bar

/-- Channels, and so bars. -/
def channelCount : Nat := 9

/-- Width of a bar in pixels. -/
def width : Nat := 12

/-- Pixels between two bars. -/
def spacing : Nat := 2

/-- Pixels left of the first bar. -/
def margin : Nat := 2

/-- One level for each channel. -/
abbrev Levels := Vector Binary32 channelCount

/-- Byte index of a page of a bar in one of its columns, page 0 at the
bottom; there is none above the top page. -/
def offset? (firstRow : UInt8) (extent : BarExtent) (bar column page : Nat) : Option Nat :=
  let pages := extent.pages.toNat
  if page < pages then
    some (1 + (firstRow.toNat + (pages - 1 - page)) * Canvas.width
      + margin + bar * (width + spacing) + column)
  else
    none

end Bar

namespace Canvas

/-- Stores the stack of one bar in all its columns. -/
def putStack (canvas : Canvas) (firstRow : UInt8) (extent : BarExtent) (bar : Nat)
    (stack : List UInt8) : Canvas :=
  (List.range Bar.width).foldl (fun canvas column =>
    stack.zipIdx.foldl (fun canvas (byte, page) =>
      match Bar.offset? firstRow extent bar column page with
      | some index => canvas.put index byte
      | none => canvas) canvas) canvas

/-- Draws the bar of one channel, if it has a stack. -/
def drawBar? (canvas : Canvas) (firstRow : UInt8) (extent : BarExtent)
    (levels : Bar.Levels) (peaks : Option Bar.Levels) (bar : Fin Bar.channelCount) :
    Option Canvas :=
  (Bar.stack? extent (levels.get bar) (peaks.map fun p => p.get bar)).map
    (canvas.putStack firstRow extent bar)

/-- Draws all bars with their top in page `firstRow`, with marks for the
peaks if they are given. -/
def drawBars? (canvas : Canvas) (firstRow : UInt8) (levels : Bar.Levels)
    (peaks : Option Bar.Levels) : Option Canvas :=
  (List.finRange Bar.channelCount).foldlM
    (fun drawn bar => drawBar? drawn firstRow (.ofPanelHeight canvas.height) levels peaks bar)
    canvas

/-- The bars of a panel can always be drawn. -/
theorem drawBars?_isSome (canvas : Canvas) (firstRow : UInt8) (levels : Bar.Levels)
    (peaks : Option Bar.Levels) : (canvas.drawBars? firstRow levels peaks).isSome := by
  suffices h : ∀ (bars : List (Fin Bar.channelCount)) (drawn : Canvas),
      (bars.foldlM (fun drawn bar =>
        drawBar? drawn firstRow (.ofPanelHeight canvas.height) levels peaks bar) drawn).isSome from
    h _ canvas
  intro bars
  induction bars with
  | nil => exact fun _ => rfl
  | cons bar bars ih =>
      intro drawn
      have hstack := Bar.stack?_isSome_ofPanelHeight canvas.height (levels.get bar)
        (peaks.map fun p => p.get bar)
      obtain ⟨stack, hsome⟩ := Option.isSome_iff_exists.1 hstack
      rw [List.foldlM_cons, drawBar?, hsome]
      exact ih _

/-- Draws all bars of a panel. -/
def drawBars (canvas : Canvas) (firstRow : UInt8) (levels : Bar.Levels)
    (peaks : Option Bar.Levels) : Canvas :=
  (canvas.drawBars? firstRow levels peaks).get (canvas.drawBars?_isSome firstRow levels peaks)

end Canvas

end MeterPanel
