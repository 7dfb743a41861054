import MeterPanel.Proofs.Highlights
import MeterPanel.Proofs.PrintedLine

/-!
# Drawing in the rows of a panel

A text screen draws text and selections in rows of cells. Three measures have
to agree for that: a panel has one row for every sixteen pixels of height, a
row ends at the twentieth cell, and a cell lies in two pages of memory, of
which a frame sends as many as the panel shows.

They do at any height. What is drawn in a row stays in its cells, so the bytes
that change belong to its two pages and stay clear of the panel's edges. Of a
row that the panel has, all that is in memory lies in the pages that are sent:
where the height leaves a page over it belongs to no row, and where it is more
than the memory holds the rows behind the end are not drawn. Nothing is sent by
drawing.

## Main results

* `Checked.drawInRow?_eq` — no check fails.
* `OnlyInRow.place_of_ne` — the place of a byte that changed.
* `OnlyInRow.changesRow` — what changes in a row of the panel is sent.
* `row_drawing_on_any_panel` — text and selections on a panel of any height.
-/

namespace MeterPanel

/-! ## Loops with checks -/

namespace Checked

/-- Inverts cells, each column a byte. -/
def invertCells? (canvas : Canvas) (row start stop : UInt8) : Option Canvas :=
  (List.range' start.toNat (min stop.toNat Text.columnCount - start.toNat)).foldlM
    (fun canvas column => do invertCell? canvas (← byte? column) row) canvas

/-- Draws in a row of text, if the panel has it. -/
def drawInRow? (rounds : Nat) (panel : Panel) (canvas : Canvas) :
    ScreenRequest → Option Canvas
  | .write row column text =>
      if row < panel.textRows then
        drawLine? rounds canvas (text.toList.map Font.codeOf) column row false
      else
        some canvas
  | .highlight row start stop =>
      if row < panel.textRows then invertCells? canvas row start stop else some canvas
  | _ => none

theorem invertCells?_eq (canvas : Canvas) (row start stop : UInt8) :
    invertCells? canvas row start stop = some (canvas.invertCells row start stop) := by
  unfold invertCells? Canvas.invertCells
  apply foldlM_eq
  intro column hmem canvas
  have hcolumn := (List.mem_range'_1.1 hmem).2
  have hstart := start.toNat_lt
  unfold Text.columnCount at hcolumn
  rw [byte?_bind (by omega), invertCell?_eq]

end Checked

namespace Canvas

/-! ## Rows of cells -/

/-- The canvas `after` is `before` but for pixels of the cells in a row. -/
structure OnlyInRow (row : UInt8) (before after : Canvas) : Prop extends Keeps before after where
  rest : ∀ x y, x < 128 → y < 64 → ¬ Text.InRow row x y → after.lit x y = before.lit x y

theorem onlyInRow_drawLine (canvas : Canvas) (codes : List UInt8) (x row : UInt8)
    (clearLine : Bool) : OnlyInRow row canvas (canvas.drawLine codes x row clearLine) where
  toKeeps := keeps_drawLine canvas codes x row clearLine
  rest := fun _ _ => lit_drawLine_of_not_inRow canvas codes x row clearLine

theorem onlyInRow_invertCells (canvas : Canvas) (row start stop : UInt8) :
    OnlyInRow row canvas (canvas.invertCells row start stop) where
  toKeeps := keeps_invertCells canvas row start stop
  rest := by
    intro x y hx hy hrest
    rw [Text.inRow_iff] at hrest
    rw [(turns_invertCells canvas row start stop).lit x y hx hy, decide_eq_false (by omega),
      Bool.xor_false]

theorem invertCells_of_start_ge (canvas : Canvas) (row : UInt8) {start : UInt8} (stop : UInt8)
    (h : Text.columnCount ≤ start.toNat) : canvas.invertCells row start stop = canvas := by
  have hnone : min stop.toNat Text.columnCount - start.toNat = 0 := by omega
  rw [invertCells, hnone, List.range'_zero, List.foldl_nil]

/-- A byte that changed has a pixel that changed. -/
theorem exists_lit_ne {a b : Canvas} {k : Nat} (hpos : 0 < k) (h : a.byteAt k ≠ b.byteAt k) :
    ∃ bit < 8, a.lit ((k - 1) % 128) (8 * ((k - 1) / 128) + bit) ≠
      b.lit ((k - 1) % 128) (8 * ((k - 1) / 128) + bit) := by
  refine Classical.byContradiction fun hnone => h (byteAt_eq_of_lit hpos fun bit hbit => ?_)
  exact Decidable.byContradiction fun hne => hnone ⟨bit, hbit, hne⟩

/-- A byte that changed lies in the two pages of the row, clear of the panel's
edges. -/
theorem OnlyInRow.place_of_ne {row : UInt8} {before after : Canvas}
    (h : OnlyInRow row before after) {k : Nat} (hne : after.byte? k ≠ before.byte? k) :
    ∃ page x, k = 128 * page + x + 1 ∧ (page = 2 * row.toNat ∨ page = 2 * row.toNat + 1) ∧
      4 ≤ x ∧ x < 124 ∧ page < 8 := by
  have hend : k < 1025 := by
    refine Decidable.byContradiction fun hbehind => hne ?_
    unfold byte?
    rw [Vector.getElem?_eq_none (by omega), Vector.getElem?_eq_none (by omega)]
  rw [byte?_eq_byteAt _ hend, byte?_eq_byteAt _ hend, Ne, Option.some_inj] at hne
  have hpos : 0 < k := by
    refine Nat.pos_of_ne_zero fun hzero => hne ?_
    rw [hzero]
    exact h.controlByte
  obtain ⟨bit, hbit, hpixel⟩ := exists_lit_ne hpos hne
  have hrow : Text.InRow row ((k - 1) % 128) (8 * ((k - 1) / 128) + bit) :=
    Classical.byContradiction fun hrest => hpixel (h.rest _ _ (by omega) (by omega) hrest)
  rw [Text.inRow_iff] at hrow
  exact ⟨(k - 1) / 128, (k - 1) % 128, by omega, by omega, by omega, by omega, by omega⟩

/-- The canvas `after` is `before` but for bytes of a row of cells, from a
column on: they lie in the two pages of the row, clear of the panel's edges,
and a frame sends them. Outside the rows and columns of the panel nothing
changes at all. -/
structure ChangesRow (panel : Panel) (row column : UInt8) (before after : Canvas) : Prop where
  height : after.height = before.height
  sent : ∀ k, after.byte? k ≠ before.byte? k → 0 < k ∧ k < before.frame.length
  place : ∀ k, after.byte? k ≠ before.byte? k →
    ∃ page x, k - 1 = 128 * page + x ∧ (page = 2 * row.toNat ∨ page = 2 * row.toNat + 1) ∧
      row < panel.textRows ∧ 4 ≤ x ∧ x < 124
  idle : panel.textRows ≤ row ∨ 20 ≤ column → after = before

theorem ChangesRow.refl (panel : Panel) (row column : UInt8) (canvas : Canvas) :
    ChangesRow panel row column canvas canvas where
  height := rfl
  sent := fun _ hne => absurd rfl hne
  place := fun _ hne => absurd rfl hne
  idle := fun _ => rfl

/-- What changes in a row that the panel has lies in the pages that a frame
sends. -/
theorem OnlyInRow.changesRow {panel : Panel} {row column : UInt8} {before after : Canvas}
    (h : OnlyInRow row before after) (hheight : before.height = panel.height)
    (hrow : row < panel.textRows)
    (hend : Text.columnCount ≤ column.toNat → after = before) :
    ChangesRow panel row column before after where
  height := h.height
  sent := by
    intro k hne
    obtain ⟨page, x, rfl, hpage, -, hright, hlast⟩ := h.place_of_ne hne
    have hrows : row.toNat < before.height.toNat / 16 := by
      rw [hheight]
      exact UInt8.lt_iff_toNat_lt.1 hrow
    -- the lower page of the last row ends where the frame does, or before
    rw [length_frame]
    omega
  place := by
    intro k hne
    obtain ⟨page, x, rfl, hpage, hleft, hright, -⟩ := h.place_of_ne hne
    exact ⟨page, x, rfl, hpage, hrow, hleft, hright⟩
  idle := by
    rintro (hbelow | hbehind)
    · exact absurd hrow (UInt8.not_lt.2 hbelow)
    · exact hend (UInt8.le_iff_toNat_le.1 hbehind)

end Canvas

/-! ## Text screens -/

namespace Display

variable {σ ε : Type} [Bus σ ε]

/-- A request draws in a row from a column on and does nothing else: no check
fails, the answer is that all went well, nothing is sent, and the picture
changes in that row only. -/
structure DrawsInRow (display : Display (RecordedBus σ ε)) (request : ScreenRequest)
    (row column : UInt8) : Prop where
  checked : ∀ rounds, Text.columnCount < rounds →
    Checked.drawInRow? rounds display.panel display.canvas request =
      some (display.step (.screen request)).2.canvas
  reply : (display.step (.screen request)).1 = .screen (.outcome (.ok ()))
  silent : display.attemptsOf (.screen request) = []
  rest : (display.step (.screen request)).2 =
    { display with canvas := (display.step (.screen request)).2.canvas }
  changes : display.canvas.ChangesRow display.panel row column
    (display.step (.screen request)).2.canvas

/-- A request that changes only one row, and only if the panel has it. -/
theorem drawsInRow_of_step {display : Display (RecordedBus σ ε)} {request : ScreenRequest}
    {row column : UInt8} {drawn : Canvas}
    (hstep : display.step (.screen request) = (.screen (.outcome (.ok ())),
      { display with canvas := if row < display.panel.textRows then drawn else display.canvas }))
    (hchecked : ∀ rounds, Text.columnCount < rounds →
      Checked.drawInRow? rounds display.panel display.canvas request =
        if row < display.panel.textRows then some drawn else some display.canvas)
    (hchanges : row < display.panel.textRows →
      display.canvas.ChangesRow display.panel row column drawn) :
    DrawsInRow display request row column := by
  have hbus : (display.step (.screen request)).2.bus = display.bus :=
    congrArg (fun result => result.2.bus) hstep
  have hcanvas : (display.step (.screen request)).2.canvas =
      if row < display.panel.textRows then drawn else display.canvas :=
    congrArg (fun result => result.2.canvas) hstep
  refine
    { checked := fun rounds h => ?_, reply := congrArg (fun result => result.1) hstep,
      silent := ?_, rest := by rw [hstep], changes := ?_ }
  · rw [hchecked rounds h, hcanvas]
    split <;> rfl
  · rw [attemptsOf, hbus, List.drop_length]
  · rw [hcanvas]
    split
    · rename_i hrow
      exact hchanges hrow
    · exact .refl display.panel row column display.canvas

/-- Drawing text and highlighting a selection, on a panel of any height and
over any picture: no check fails, nothing is sent, and what changes stays in
the cells of the row, within the part of the memory that a frame sends. -/
theorem row_drawing_on_any_panel (bus : RecordedBus σ ε) (address : UInt8) (rotation : Rotation)
    (canvas : Canvas) (ready : Bool) (row column stop : UInt8) (text : String) :
    let display : Display (RecordedBus σ ε) :=
      ⟨bus, ⟨address, canvas.height, rotation⟩, canvas, ready⟩
    canvas.frame.length = 1 + min (16 * canvas.height.toNat) 1024 ∧
      DrawsInRow display (.write row column text) row column ∧
      DrawsInRow display (.highlight row column stop) row column := by
  intro display
  let codes := text.toList.map Font.codeOf
  refine ⟨canvas.length_frame,
    drawsInRow_of_step (step_eq _ display) (fun rounds h => ?_) fun hrow => ?_,
    drawsInRow_of_step (step_eq _ display) (fun rounds _ => ?_) fun hrow => ?_⟩
  · rw [Checked.drawInRow?, Checked.drawLine?_eq h]
  · exact (canvas.onlyInRow_drawLine codes column row false).changesRow rfl hrow
      (canvas.drawLine_of_column_ge codes column row false)
  · rw [Checked.drawInRow?, Checked.invertCells?_eq]
  · exact (canvas.onlyInRow_invertCells row column stop).changesRow rfl hrow
      (canvas.invertCells_of_start_ge row stop)

end Display

end MeterPanel
