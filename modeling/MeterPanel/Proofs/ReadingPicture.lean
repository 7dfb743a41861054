import MeterPanel.Proofs.BarPicture
import MeterPanel.Proofs.Requests
import MeterPanel.Proofs.TextLines

/-!
# The picture of a reading

An update draws the bars from the top of the panel and the status below them,
and then sends the picture. The bars end where the status row begins at the
latest, whatever the height of the panel, so the two never meet and each
pixel has one owner: a bar, a cell of the status row, or nobody.

## Main results

* `height_le_statusRow` — the bars end above the status row.
* `shows_withReading` — the pixels of a reading.
* `update_shows_reading` — the pixels after an update, and its one write.
-/

namespace MeterPanel

/-! ## Regions -/

namespace Panel

/-- The extent of a panel's bars. -/
def bars (panel : Panel) : BarExtent := .ofPanelHeight panel.height

/-- The pixels that belong to a bar. -/
def InBars (panel : Panel) (x y : Nat) : Prop :=
  ∃ (bar : Fin Bar.channelCount) (column : Fin Bar.width),
    x = 2 + 14 * bar + column ∧ y < panel.bars.height.toNat

/-- The pixels that belong to a cell of the status row. -/
def InStatusRow (panel : Panel) (x y : Nat) : Prop :=
  ∃ (cell : Fin Text.columnCount) (column : Fin Glyph.columnCount) (row : Fin 16),
    x = 4 + 6 * cell + column ∧ y = 16 * panel.statusRow.toNat + row

theorem toNat_statusRow_lt (panel : Panel) : panel.statusRow.toNat < 4 := by
  unfold statusRow
  split <;> decide

/-- The bars end above the status row. -/
theorem height_le_statusRow (panel : Panel) :
    panel.bars.height.toNat ≤ 16 * panel.statusRow.toNat := by
  have hheight := BarExtent.height_ofPanelHeight panel.height
  have hpages := BarExtent.pages_ofPanelHeight_le panel.height
  unfold BarExtent.maxPages at hpages
  unfold bars statusRow
  split
  · rename_i h
    rw [h]
    decide
  · show _ ≤ 16 * 3
    omega

theorem not_inBars_and_inStatusRow (panel : Panel) (x y : Nat) :
    ¬ (panel.InBars x y ∧ panel.InStatusRow x y) := by
  rintro ⟨⟨_, _, _, hbars⟩, ⟨_, _, _, _, hstatus⟩⟩
  have := panel.height_le_statusRow
  omega

end Panel

/-! ## What is shown -/

/-- The canvas `after` shows a reading on a panel, over the picture
`before`. -/
structure Shows (panel : Panel) (reading : Reading) (before after : Canvas) : Prop where
  bars : ∀ (bar : Fin Bar.channelCount) (column : Fin Bar.width) (y : Nat),
    y < panel.bars.height.toNat →
      let v := panel.bars.height.toNat - 1 - y
      after.pixel (UInt8.ofNat (2 + 14 * bar + column)) (UInt8.ofNat y) =
        (decide (v < (panel.bars.pixels (reading.levels.get bar)).toNat) ||
          decide (v + 1 = (panel.bars.pixels (reading.peaks.get bar)).toNat))
  status : ∀ (cell : Fin Text.columnCount) (column : Fin Glyph.columnCount) (row : Fin 16),
    after.pixel (UInt8.ofNat (4 + 6 * cell + column))
        (UInt8.ofNat (16 * panel.statusRow.toNat + row)) =
      match (reading.status.takeWhile (· ≠ 0))[cell.val]? with
      | some code => Cell.shows code false column row
      | none => false
  rest : ∀ x y : UInt8,
    ¬ panel.InBars (x.toNat % 128) (y.toNat % 64) →
    ¬ panel.InStatusRow (x.toNat % 128) (y.toNat % 64) →
      after.pixel x y = before.pixel x y
  apart : ∀ x y, ¬ (panel.InBars x y ∧ panel.InStatusRow x y)
  controlByte : after.byteAt 0 = before.byteAt 0
  height : after.height = before.height

namespace Canvas

/-- Bars from the top of a panel change no pixel but their own. -/
theorem lit_drawBars_of_not_inBars {canvas : Canvas} {panel : Panel}
    (hheight : canvas.height = panel.height) (levels : Bar.Levels) (peaks : Option Bar.Levels)
    {x y : Nat} (hx : x < 128) (hy : y < 64) (hbars : ¬ panel.InBars x y) :
    (canvas.drawBars 0 levels peaks).lit x y = canvas.lit x y := by
  apply lit_drawBars_of_not_inArea canvas 0 levels peaks hx hy
  rintro ⟨bar, column, t, ht, hx', hy'⟩
  rw [hheight] at ht
  rw [UInt8.toNat_zero, Nat.mul_zero, Nat.zero_add] at hy'
  exact hbars ⟨bar, column, hx', hy' ▸ ht⟩

/-- The canvas after a reading has been drawn on it. -/
def withReading (canvas : Canvas) (panel : Panel) (reading : Reading) : Canvas :=
  (canvas.drawBars 0 reading.levels (some reading.peaks)).drawLine
    reading.status 0 panel.statusRow true

section

variable (canvas : Canvas) (panel : Panel) (reading : Reading)

theorem lit_withReading_of_not_status {x y : Nat} (hx : x < 128) (hy : y < 64)
    (h : ¬ panel.InStatusRow x y) :
    (canvas.withReading panel reading).lit x y =
      (canvas.drawBars 0 reading.levels (some reading.peaks)).lit x y := by
  rw [withReading, lit_drawLine panel.toNat_statusRow_lt hx hy, if_neg]
  rintro ⟨hrow, hleft, _, hright⟩
  have hcell : (x - 4) / 6 < Text.columnCount := hright
  have hcolumn : (x - 4) % 6 < Glyph.columnCount := Nat.mod_lt _ (by decide)
  refine h ⟨⟨_, hcell⟩, ⟨_, hcolumn⟩, ⟨y % 16, Nat.mod_lt _ (by decide)⟩, ?_, ?_⟩
  · show x = 4 + 6 * ((x - 4) / 6) + (x - 4) % 6
    omega
  · show y = 16 * panel.statusRow.toNat + y % 16
    omega

theorem lit_withReading_of_bar (hheight : canvas.height = panel.height)
    (bar : Fin Bar.channelCount) (column : Fin Bar.width) {y : Nat}
    (hy : y < panel.bars.height.toNat) :
    (canvas.withReading panel reading).lit (2 + 14 * bar + column) y =
      Bar.lights panel.bars (reading.levels.get bar) (some (reading.peaks.get bar))
        (panel.bars.height.toNat - 1 - y) := by
  have hbar : bar.val < 9 := bar.isLt
  have hcolumn : column.val < 12 := column.isLt
  have hstatus := panel.height_le_statusRow
  have hrow := panel.toNat_statusRow_lt
  have hheight' : BarExtent.ofPanelHeight canvas.height = panel.bars := by
    rw [hheight]
    rfl
  have hlit := lit_drawBars canvas 0 reading.levels (some reading.peaks) bar column.isLt
    (t := y) (hheight' ▸ hy) (by rw [UInt8.toNat_zero]; omega)
  rw [lit_withReading_of_not_status canvas panel reading (by omega) (by omega)
    fun h => panel.not_inBars_and_inStatusRow _ _ ⟨⟨bar, column, rfl, hy⟩, h⟩]
  rw [hheight', UInt8.toNat_zero, Nat.mul_zero, Nat.zero_add] at hlit
  exact hlit

theorem lit_withReading_of_outside (hheight : canvas.height = panel.height) {x y : Nat}
    (hx : x < 128) (hy : y < 64) (hbars : ¬ panel.InBars x y) (hstatus : ¬ panel.InStatusRow x y) :
    (canvas.withReading panel reading).lit x y = canvas.lit x y := by
  rw [lit_withReading_of_not_status canvas panel reading hx hy hstatus,
    lit_drawBars_of_not_inBars hheight _ _ hx hy hbars]

theorem lit_withReading_of_status (cell : Fin Text.columnCount) (column : Fin Glyph.columnCount)
    (row : Fin 16) :
    (canvas.withReading panel reading).lit (4 + 6 * cell + column)
        (16 * panel.statusRow.toNat + row) =
      match (reading.status.takeWhile (· ≠ 0))[cell.val]? with
      | some code => Cell.shows code false column row
      | none => false := by
  have hshown : (Text.shown reading.status 0)[cell.val]?
      = (reading.status.takeWhile (· ≠ 0))[cell.val]? := by
    rw [Text.shown, List.getElem?_take, Nat.sub_zero, if_pos cell.isLt]
  rw [withReading, lit_drawLine_of_cell panel.toNat_statusRow_lt, UInt8.toNat_zero,
    if_pos (Nat.zero_le _), Nat.sub_zero, hshown]
  rfl

/-- Drawing a reading shows it. -/
theorem shows_withReading (hheight : canvas.height = panel.height) :
    Shows panel reading canvas (canvas.withReading panel reading) := by
  have hkeeps : Keeps canvas (canvas.withReading panel reading) :=
    (keeps_drawBars canvas 0 _ _).trans (keeps_drawLine _ _ 0 _ true)
  have hrow := panel.toNat_statusRow_lt
  have hbars := panel.height_le_statusRow
  refine
    { bars := ?_
      status := ?_
      rest := ?_
      apart := panel.not_inBars_and_inStatusRow
      controlByte := hkeeps.controlByte
      height := hkeeps.height }
  · intro bar column y hy v
    have hbar : bar.val < 9 := bar.isLt
    have hcolumn : column.val < 12 := column.isLt
    rw [pixel_ofNat _ (by omega) (by omega)]
    exact lit_withReading_of_bar canvas panel reading hheight bar column hy
  · intro cell column row
    have hcell : cell.val < 20 := cell.isLt
    have hcolumn : column.val < 6 := column.isLt
    rw [pixel_ofNat _ (by omega) (by omega)]
    exact lit_withReading_of_status canvas panel reading cell column row
  · intro x y hbars hstatus
    rw [pixel_eq_lit, pixel_eq_lit]
    exact lit_withReading_of_outside canvas panel reading hheight (by omega) (by omega)
      hbars hstatus

end

end Canvas

/-- An update leaves exactly the picture of its reading, whatever the bus
answers, and attempts one write: the finished picture. -/
theorem update_shows_reading {σ ε : Type} [Bus σ ε] (bus : RecordedBus σ ε) (panel : Panel)
    (bytes : Vector UInt8 1025) (ready : Bool) (reading : Reading) :
    let before : Canvas := ⟨bytes, panel.height⟩
    let after := ((Display.mk bus panel before ready).step (.update reading)).2
    Shows panel reading before after.canvas ∧
      ∃ refusal : Option ε,
        after.bus.attempts = bus.attempts ++ [⟨panel.address, after.canvas.frame, refusal⟩] := by
  intro before after
  have hstep := Display.step_eq (.update reading) (Display.mk bus panel before ready)
  have hcanvas : after.canvas = before.withReading panel reading :=
    congrArg (fun result => result.2.canvas) hstep
  refine ⟨?_, ?_⟩
  · rw [hcanvas]
    exact Canvas.shows_withReading before panel reading rfl
  · have hbus : after.bus =
        (Bus.writeAll panel.address [after.canvas.frame] bus).2 := by
      rw [hcanvas]
      exact congrArg (fun result => result.2.bus) hstep
    rw [hbus]
    exact ⟨_, bus.attempts_writeAll_single panel.address after.canvas.frame⟩

end MeterPanel
