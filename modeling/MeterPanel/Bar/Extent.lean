import MeterPanel.Binary32.Basic
import MeterPanel.Canvas.Basic

/-!
# How tall a bar is

Bars fill the upper pages of a panel and leave the two lowest to the line of
text below them. A level becomes a whole number of pixels: it is clamped to
the range from zero to one, multiplied by the height of the bar, and cut to
its whole part.

## Main results

* `pixels_le` — a level never reaches above the bar.
* `pages_ofPanelHeight_le`, `height_ofPanelHeight` — the bars of a panel span
  at most six pages, and their height is that of their pages.
-/

namespace MeterPanel

/-- How far a bar extends. An extent that does not come from a panel may give
a height that differs from that of its pages. -/
structure BarExtent where
  /-- Pages of a bar. -/
  pages : UInt8
  /-- Height of a full bar in pixels. -/
  height : UInt8
  deriving DecidableEq, Repr

namespace BarExtent

/-- The most pages of a bar: those of the tallest panel, less the pages kept
for text. -/
def maxPages : Nat := 6

/-- Pages kept for text below the bars. -/
def reservedPages : Nat := 2

/-- The bars of a panel of the given height. -/
def ofPanelHeight (panelHeight : UInt8) : BarExtent :=
  let pages := min (panelHeight.toNat / Canvas.pageHeight - reservedPages) maxPages
  { pages := UInt8.ofNat pages, height := UInt8.ofNat (pages * Canvas.pageHeight) }

/-- The pixels that a level lights in a bar. -/
def pixels (extent : BarExtent) (level : Binary32) : UInt8 :=
  (level.clampUnit.scale extent.height).toUInt8

/-- A level never reaches above the bar. -/
theorem pixels_le (extent : BarExtent) (level : Binary32) :
    extent.pixels level ≤ extent.height :=
  Binary32.toUInt8_scale_clampUnit_le level extent.height

/-- The bars of a panel span at most six pages. -/
theorem pages_ofPanelHeight_le (panelHeight : UInt8) :
    (ofPanelHeight panelHeight).pages.toNat ≤ maxPages := by
  have h : (ofPanelHeight panelHeight).pages.toNat ≤
      min (panelHeight.toNat / Canvas.pageHeight - reservedPages) maxPages :=
    Nat.mod_le _ _
  omega

/-- The height of a panel's bars is that of their pages. -/
theorem height_ofPanelHeight (panelHeight : UInt8) :
    (ofPanelHeight panelHeight).height.toNat = 8 * (ofPanelHeight panelHeight).pages.toNat := by
  simp only [ofPanelHeight, Canvas.pageHeight, reservedPages, maxPages, UInt8.toNat_ofNat']
  omega

end BarExtent

end MeterPanel
