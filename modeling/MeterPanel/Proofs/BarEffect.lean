import MeterPanel.Proofs.BarPicture
import MeterPanel.Proofs.CheckedDrawing

/-!
# What drawing the bars does

The bars can be drawn from any page of any canvas. Each of their pixels that
the memory still has is then decided by the level and the peak of its bar, so
that nothing of an earlier picture is left in it, and no other pixel changes.
The rows of a bar are counted from its top, wherever that is; a row that the
memory does not have is not drawn anywhere else.

## Main results

* `drawBars_drawBars` — bars replace earlier ones.
* `drawBars_of_row_ge` — below the last page nothing is drawn.
* `bars_on_any_canvas` — the pixels of the bars and all others.
-/

namespace MeterPanel

namespace Bar

/-- The pixel columns that belong to no bar: the left margin and the two
columns behind each bar. -/
def InGap (x : Nat) : Prop := x < 2 ∨ 12 ≤ (x - 2) % 14

theorem not_inArea_of_inGap {firstRow : UInt8} {extent : BarExtent} {x y : Nat} (h : InGap x) :
    ¬ InArea firstRow extent x y := by
  rintro ⟨bar, column, t, -, hx, -⟩
  have hcolumn : column.val < 12 := column.isLt
  unfold InGap at h
  omega

end Bar

namespace Canvas

/-- The canvas `after` shows bars from page `firstRow` down, over the picture
`before`. -/
structure ShowsBars (firstRow : UInt8) (levels : Bar.Levels) (peaks : Option Bar.Levels)
    (before after : Canvas) : Prop where
  bars : ∀ (bar : Fin Bar.channelCount) (column : Fin Bar.width) (t : Nat),
    let extent := BarExtent.ofPanelHeight before.height
    let v := extent.height.toNat - 1 - t
    t < extent.height.toNat → 8 * firstRow.toNat + t < 64 →
      after.pixel (UInt8.ofNat (2 + 14 * bar + column)) (UInt8.ofNat (8 * firstRow.toNat + t)) =
        (decide (v < (extent.pixels (levels.get bar)).toNat) ||
          peaks.any fun peaks => decide (v + 1 = (extent.pixels (peaks.get bar)).toNat))
  rest : ∀ x y : UInt8,
    ¬ Bar.InArea firstRow (.ofPanelHeight before.height) (x.toNat % 128) (y.toNat % 64) →
      after.pixel x y = before.pixel x y
  controlByte : after.byteAt 0 = before.byteAt 0
  height : after.height = before.height

section

variable (canvas : Canvas) (firstRow : UInt8) (levels : Bar.Levels) (peaks : Option Bar.Levels)

theorem showsBars_drawBars :
    ShowsBars firstRow levels peaks canvas (canvas.drawBars firstRow levels peaks) where
  bars := by
    intro bar column t extent v ht hend
    have hbar : bar.val < 9 := bar.isLt
    have hcolumn : column.val < 12 := column.isLt
    rw [pixel_ofNat _ (by omega) hend,
      lit_drawBars canvas firstRow levels peaks bar column.isLt ht hend, Bar.lights]
    cases peaks <;> rfl
  rest := by
    intro x y hrest
    rw [pixel_eq_lit, pixel_eq_lit]
    exact lit_drawBars_of_not_inArea canvas firstRow levels peaks (by omega) (by omega) hrest
  controlByte := (keeps_drawBars canvas firstRow levels peaks).controlByte
  height := (keeps_drawBars canvas firstRow levels peaks).height

/-- Bars replace the bars drawn before from the same page. -/
theorem drawBars_drawBars (others : Bar.Levels) (marks : Option Bar.Levels) :
    (canvas.drawBars firstRow levels peaks).drawBars firstRow others marks =
      canvas.drawBars firstRow others marks := by
  have hkeeps := keeps_drawBars canvas firstRow levels peaks
  have hagain := keeps_drawBars (canvas.drawBars firstRow levels peaks) firstRow others marks
  have honce := keeps_drawBars canvas firstRow others marks
  refine ext_of_lit ⟨?_, ?_⟩ fun x y hx hy => ?_
  · rw [honce.height, hagain.height, hkeeps.height]
  · rw [honce.controlByte, hagain.controlByte, hkeeps.controlByte]
  · by_cases harea : Bar.InArea firstRow (.ofPanelHeight canvas.height) x y
    · obtain ⟨bar, column, t, ht, rfl, rfl⟩ := harea
      rw [lit_drawBars _ firstRow others marks bar column.isLt (hkeeps.height.symm ▸ ht) hy,
        lit_drawBars canvas firstRow others marks bar column.isLt ht hy, hkeeps.height]
    · rw [lit_drawBars_of_not_inArea _ firstRow others marks hx hy (hkeeps.height.symm ▸ harea),
        lit_drawBars_of_not_inArea canvas firstRow levels peaks hx hy harea,
        lit_drawBars_of_not_inArea canvas firstRow others marks hx hy harea]

/-- Below the last page nothing is drawn. -/
theorem drawBars_of_row_ge (hrow : 8 ≤ firstRow.toNat) :
    canvas.drawBars firstRow levels peaks = canvas := by
  have hkeeps := keeps_drawBars canvas firstRow levels peaks
  refine (ext_of_lit hkeeps fun x y hx hy => ?_).symm
  refine (lit_drawBars_of_not_inArea canvas firstRow levels peaks hx hy ?_).symm
  rintro ⟨bar, column, t, -, -, hy'⟩
  omega

/-- The bars can be drawn on any canvas, and no check fails on the way. Their
pixels show the levels and the peaks; the gaps between them, all other pixels
and the control byte stay. Whatever bars there were from the same page are
gone, and pages that the memory does not have are dropped. -/
theorem bars_on_any_canvas :
    ∃ after,
      Checked.drawBars? canvas firstRow levels peaks = some after ∧
      canvas.drawBars? firstRow levels peaks = some after ∧
      canvas.drawBars firstRow levels peaks = after ∧
      ShowsBars firstRow levels peaks canvas after ∧
      (∀ x y : UInt8, Bar.InGap (x.toNat % 128) → after.pixel x y = canvas.pixel x y) ∧
      (∀ others marks,
        after.drawBars firstRow others marks = canvas.drawBars firstRow others marks) ∧
      (8 ≤ firstRow.toNat → after = canvas) := by
  have hsome : canvas.drawBars? firstRow levels peaks =
      some (canvas.drawBars firstRow levels peaks) := (Option.some_get _).symm
  have hshows := showsBars_drawBars canvas firstRow levels peaks
  refine ⟨canvas.drawBars firstRow levels peaks, ?_, hsome, rfl, hshows, fun x y hgap => ?_,
    drawBars_drawBars canvas firstRow levels peaks,
    drawBars_of_row_ge canvas firstRow levels peaks⟩
  · rw [Checked.drawBars?_eq, hsome]
  · exact hshows.rest x y (Bar.not_inArea_of_inGap hgap)

end

end Canvas

end MeterPanel
