import MeterPanel.Proofs.SessionPictures

/-!
# Printed lines

Printing moves a column counter from cell to cell. The text moves it until the
text ends, at its first NUL or at the last column, and the blanks move it on
from there. Here both loops are done once more the way a machine does them:
the counter is a byte, and the next column has to fit into it. A loop may only
go on for a number of rounds given beforehand, so that one that does not end
has no result.

The counter stops at the last column, so no sum is too large and neither loop
goes on for more than twenty rounds, whatever the length of the text. In the
picture every cell of the row has one owner: the text, the blanks behind it or
what was there before.

## Main results

* `Checked.drawRun?_eq`, `Checked.blankFrom?_eq` — the rounds of the two loops.
* `getElem?_shown` — the characters of a text that a line shows.
* `showsLine_drawLine` — the cells of a row after drawing a line.
* `print_shows_line` — printing on any display.
-/

namespace MeterPanel

/-! ## Blanks, one by one -/

namespace Canvas

theorem blankFrom_of_full (canvas : Canvas) {x : UInt8} (row : UInt8)
    (h : Text.columnCount ≤ x.toNat) : canvas.blankFrom x row = canvas := by
  rw [blankFrom, Nat.sub_eq_zero_of_le h, List.range'_zero, List.foldl_nil]

theorem blankFrom_of_room (canvas : Canvas) {x : UInt8} (row : UInt8)
    (h : x.toNat < Text.columnCount) :
    canvas.blankFrom x row =
      (canvas.drawChar Text.blankCode x row .normal).blankFrom (x + 1) row := by
  have hroom : Text.columnCount - x.toNat = Text.columnCount - (x.toNat + 1) + 1 := by omega
  rw [blankFrom, hroom, List.range'_succ, List.foldl_cons, UInt8.ofNat_toNat, blankFrom,
    toNat_succ h]

end Canvas

/-! ## Loops with checks -/

namespace Checked

/-- The column behind a cell. -/
def nextColumn? (x : UInt8) : Option UInt8 := byte? (x.toNat + 1)

/-- Draws characters in so many rounds at most, and gives back the column
behind the last one drawn. -/
def drawRun? (rounds : Nat) (canvas : Canvas) (codes : List UInt8) (x row : UInt8) :
    Option (Canvas × UInt8) :=
  match rounds, codes with
  | 0, _ => none
  | _ + 1, [] => some (canvas, x)
  | rounds + 1, code :: rest =>
      if code = 0 ∨ Text.columnCount ≤ x.toNat then
        some (canvas, x)
      else do
        let drawn ← drawChar? canvas code x row .normal
        let next ← nextColumn? x
        drawRun? rounds drawn rest next row

/-- Blanks cells in so many rounds at most. -/
def blankFrom? (rounds : Nat) (canvas : Canvas) (x row : UInt8) : Option Canvas :=
  match rounds with
  | 0 => none
  | rounds + 1 =>
      if x.toNat < Text.columnCount then do
        let drawn ← drawChar? canvas Text.blankCode x row .normal
        let next ← nextColumn? x
        blankFrom? rounds drawn next row
      else
        some canvas

/-- Draws a line, each of its loops in so many rounds at most. -/
def drawLine? (rounds : Nat) (canvas : Canvas) (codes : List UInt8) (x row : UInt8)
    (clearLine : Bool) : Option Canvas := do
  let (drawn, stop) ← drawRun? rounds canvas codes x row
  if clearLine then blankFrom? rounds drawn stop row else return drawn

theorem nextColumn?_eq {x : UInt8} (h : x.toNat < Text.columnCount) :
    nextColumn? x = some (x + 1) := by
  have hroom : x.toNat < 20 := h
  rw [nextColumn?, byte?, if_pos (by omega), ← Canvas.toNat_succ h, UInt8.ofNat_toNat]

/-- The text is drawn in one round for each character shown, and one to
end. -/
theorem drawRun?_eq (row : UInt8) (rounds : Nat) :
    ∀ (canvas : Canvas) (codes : List UInt8) (x : UInt8),
      (Text.shown codes x.toNat).length < rounds →
        drawRun? rounds canvas codes x row = some (canvas.drawRun codes x row) := by
  induction rounds with
  | zero => intro canvas codes x h; omega
  | succ rounds ih =>
      intro canvas codes x h
      cases codes with
      | nil => rfl
      | cons code codes =>
          by_cases hstop : code = 0 ∨ Text.columnCount ≤ x.toNat
          · rw [drawRun?, if_pos hstop, Canvas.drawRun_of_stop canvas codes row hstop]
          · obtain ⟨hcode, hx⟩ := not_or.1 hstop
            rw [Nat.not_le] at hx
            rw [Text.shown_cons codes hcode hx, List.length_cons] at h
            rw [drawRun?, if_neg hstop, bind_of_eq (drawChar?_eq canvas code x row .normal),
              bind_of_eq (nextColumn?_eq hx), Canvas.drawRun_of_room canvas codes row hcode hx]
            refine ih _ codes (x + 1) ?_
            rw [Canvas.toNat_succ hx]
            omega

/-- The blanks are drawn in one round for each column left, and one to end. -/
theorem blankFrom?_eq (row : UInt8) (rounds : Nat) :
    ∀ (canvas : Canvas) (x : UInt8), Text.columnCount - x.toNat < rounds →
      blankFrom? rounds canvas x row = some (canvas.blankFrom x row) := by
  induction rounds with
  | zero => intro canvas x h; omega
  | succ rounds ih =>
      intro canvas x h
      by_cases hx : x.toNat < Text.columnCount
      · rw [blankFrom?, if_pos hx, bind_of_eq (drawChar?_eq canvas _ x row .normal),
          bind_of_eq (nextColumn?_eq hx), Canvas.blankFrom_of_room canvas row hx]
        refine ih _ (x + 1) ?_
        rw [Canvas.toNat_succ hx]
        omega
      · rw [blankFrom?, if_neg hx, Canvas.blankFrom_of_full canvas row (by omega)]

/-- More rounds than there are columns are enough for any line. -/
theorem drawLine?_eq {rounds : Nat} (h : Text.columnCount < rounds) (canvas : Canvas)
    (codes : List UInt8) (x row : UInt8) (clearLine : Bool) :
    drawLine? rounds canvas codes x row clearLine =
      some (canvas.drawLine codes x row clearLine) := by
  have hlength := Text.length_shown_le codes x.toNat
  have hrun := drawRun?_eq row rounds canvas codes x (by omega)
  rw [drawLine?, bind_of_eq hrun, Canvas.drawLine_eq]
  cases clearLine with
  | false => rfl
  | true => exact blankFrom?_eq row rounds _ _ (by omega)

end Checked

/-! ## The cells of a line -/

namespace Text

/-- How many characters a line from column `x` shows: those before the first
NUL, as far as there are columns. -/
def shownCount (codes : List UInt8) (x : Nat) : Nat :=
  min (codes.findIdx (· = 0)) (columnCount - x)

/-- The pixels of the cells in a row of text. -/
def InRow (row : UInt8) (x y : Nat) : Prop :=
  ∃ (cell : Fin columnCount) (column : Fin Glyph.columnCount) (r : Fin 16),
    x = 4 + 6 * cell + column ∧ y = 16 * row.toNat + r

theorem inRow_iff (row : UInt8) (x y : Nat) :
    InRow row x y ↔ y / 16 = row.toNat ∧ 4 ≤ x ∧ (x - 4) / 6 < 20 := by
  constructor
  · rintro ⟨cell, column, r, rfl, rfl⟩
    have hcell : cell.val < 20 := cell.isLt
    have hcolumn : column.val < 6 := column.isLt
    omega
  · rintro ⟨hy, hleft, hright⟩
    refine ⟨⟨(x - 4) / 6, hright⟩, ⟨(x - 4) % 6, Nat.mod_lt _ (by decide)⟩,
      ⟨y % 16, Nat.mod_lt _ (by decide)⟩, ?_, ?_⟩
    · dsimp only
      omega
    · dsimp only
      omega

/-- The characters shown are the first ones of the text. -/
theorem shown_eq_take (codes : List UInt8) (x : Nat) :
    shown codes x = codes.take (shownCount codes x) := by
  have hstop : (fun code : UInt8 => !decide (code ≠ 0)) = fun code => decide (code = 0) := by
    funext code
    simp
  rw [shown, List.takeWhile_eq_take_findIdx_not, hstop, List.take_take, Nat.min_comm]
  rfl

theorem length_shown (codes : List UInt8) (x : Nat) :
    (shown codes x).length = shownCount codes x := by
  have hend : codes.findIdx (· = 0) ≤ codes.length := List.findIdx_le_length
  rw [shown_eq_take, List.length_take]
  unfold shownCount
  omega

theorem getElem?_shown {codes : List UInt8} {x i : Nat} (h : i < shownCount codes x) :
    ∃ code, (shown codes x)[i]? = some code ∧ codes[i]? = some code := by
  have hlength : i < (shown codes x).length := by rwa [length_shown]
  refine ⟨(shown codes x)[i], List.getElem?_eq_getElem hlength, ?_⟩
  rw [← List.getElem?_eq_getElem hlength, shown_eq_take, List.getElem?_take_of_lt h]

theorem getElem?_shown_of_le {codes : List UInt8} {x i : Nat} (h : shownCount codes x ≤ i) :
    (shown codes x)[i]? = none :=
  List.getElem?_eq_none (by rwa [length_shown])

end Text

namespace Canvas

/-- A pixel of a cell in a row of text. -/
def cellPixel (canvas : Canvas) (row : UInt8) (cell : Fin Text.columnCount)
    (column : Fin Glyph.columnCount) (r : Fin 16) : Bool :=
  canvas.pixel (UInt8.ofNat (4 + 6 * cell + column)) (UInt8.ofNat (16 * row.toNat + r))

/-- The canvas `after` shows a line of text from column `x`, over the picture
`before`. -/
structure ShowsLine (codes : List UInt8) (x row : UInt8) (clearLine : Bool)
    (before after : Canvas) : Prop where
  text : row.toNat < 4 → ∀ cell : Fin Text.columnCount,
    x.toNat ≤ cell → cell < x.toNat + Text.shownCount codes x.toNat →
      ∃ code, codes[cell.val - x.toNat]? = some code ∧
        ∀ column r, after.cellPixel row cell column r = Cell.shows code false column r
  blanks : row.toNat < 4 → clearLine = true → ∀ cell : Fin Text.columnCount,
    x.toNat + Text.shownCount codes x.toNat ≤ cell →
      ∀ column r, after.cellPixel row cell column r = false
  kept : row.toNat < 4 → ∀ cell : Fin Text.columnCount,
    cell < x.toNat ∨ clearLine = false ∧ x.toNat + Text.shownCount codes x.toNat ≤ cell →
      ∀ column r, after.cellPixel row cell column r = before.cellPixel row cell column r
  rest : ∀ px py : UInt8, ¬ Text.InRow row (px.toNat % 128) (py.toNat % 64) →
    after.pixel px py = before.pixel px py
  controlByte : after.byteAt 0 = before.byteAt 0
  height : after.height = before.height

theorem cellPixel_eq_lit (canvas : Canvas) {row : UInt8} (hrow : row.toNat < 4)
    (cell : Fin Text.columnCount) (column : Fin Glyph.columnCount) (r : Fin 16) :
    canvas.cellPixel row cell column r =
      canvas.lit (4 + 6 * cell + column) (16 * row.toNat + r) := by
  have hcell : cell.val < 20 := cell.isLt
  have hcolumn : column.val < 6 := column.isLt
  exact pixel_ofNat canvas (by omega) (by omega)

section

variable (canvas : Canvas) (codes : List UInt8) (x row : UInt8) (clearLine : Bool)

/-- A pixel of a cell after drawing a line. -/
theorem cellPixel_drawLine (hrow : row.toNat < 4) (cell : Fin Text.columnCount)
    (column : Fin Glyph.columnCount) (r : Fin 16) :
    (canvas.drawLine codes x row clearLine).cellPixel row cell column r =
      if x.toNat ≤ cell then
        match (Text.shown codes x.toNat)[cell.val - x.toNat]? with
        | some code => Cell.shows code false column r
        | none => !clearLine && canvas.cellPixel row cell column r
      else
        canvas.cellPixel row cell column r := by
  rw [cellPixel_eq_lit _ hrow, cellPixel_eq_lit _ hrow]
  exact lit_drawLine_of_cell hrow canvas codes x clearLine cell column r

/-- A pixel outside the cells of the row stays as it was. -/
theorem lit_drawLine_of_not_inRow {px py : Nat} (hx : px < 128) (hy : py < 64)
    (h : ¬ Text.InRow row px py) :
    (canvas.drawLine codes x row clearLine).lit px py = canvas.lit px py := by
  by_cases hrow : row.toNat < 4
  · rw [lit_drawLine hrow hx hy, if_neg]
    rintro ⟨hpy, hleft, -, hright⟩
    exact h ((Text.inRow_iff row px py).2 ⟨hpy, hleft, hright⟩)
  · rw [drawLine_of_row_ge (by omega)]

theorem showsLine_drawLine :
    ShowsLine codes x row clearLine canvas (canvas.drawLine codes x row clearLine) where
  text := by
    intro hrow cell hleft hright
    obtain ⟨code, hshown, hcode⟩ :=
      Text.getElem?_shown (show cell.val - x.toNat < Text.shownCount codes x.toNat by omega)
    refine ⟨code, hcode, fun column r => ?_⟩
    rw [cellPixel_drawLine canvas codes x row clearLine hrow, if_pos hleft, hshown]
  blanks := by
    intro hrow hclear cell hright column r
    rw [cellPixel_drawLine canvas codes x row clearLine hrow, if_pos (by omega),
      Text.getElem?_shown_of_le (by omega), hclear]
    rfl
  kept := by
    intro hrow cell hother column r
    rw [cellPixel_drawLine canvas codes x row clearLine hrow]
    rcases hother with hleft | ⟨hclear, hright⟩
    · rw [if_neg (by omega)]
    · rw [if_pos (by omega), Text.getElem?_shown_of_le (by omega), hclear]
      rfl
  rest := by
    intro px py hrest
    rw [pixel_eq_lit, pixel_eq_lit]
    exact lit_drawLine_of_not_inRow canvas codes x row clearLine (by omega) (by omega) hrest
  controlByte := (keeps_drawLine canvas codes x row clearLine).controlByte
  height := (keeps_drawLine canvas codes x row clearLine).height

/-- From a column behind the last one nothing is drawn. -/
theorem drawLine_of_column_ge (h : Text.columnCount ≤ x.toNat) :
    canvas.drawLine codes x row clearLine = canvas := by
  have hend : 20 ≤ x.toNat := h
  by_cases hrow : row.toNat < 4
  · refine (ext_of_lit (keeps_drawLine canvas codes x row clearLine) fun px py hx hy => ?_).symm
    rw [lit_drawLine hrow hx hy, if_neg (by omega)]
  · exact drawLine_of_row_ge (by omega) canvas codes x clearLine

end

end Canvas

/-- Printing a line on any display: no check fails and both loops end, within
one round more than there are columns. The text is shown from its column on up
to its first NUL or the last column, the cells behind it are dark if the line
is cleared, and nothing else changes; outside the columns or the rows nothing
changes at all. -/
theorem Display.print_shows_line {σ ε : Type} [Bus σ ε] (display : Display σ)
    (codes : List UInt8) (x row : UInt8) (clearLine immediate : Bool) :
    let before := display.canvas
    let after := (display.step (.print codes x row clearLine immediate)).2.canvas
    (∀ rounds, Text.columnCount < rounds →
        Checked.drawLine? rounds before codes x row clearLine = some after) ∧
      Canvas.ShowsLine codes x row clearLine before after ∧
      (Text.columnCount ≤ x.toNat ∨ 4 ≤ row.toNat → after = before) := by
  intro before after
  have hafter : after = before.drawLine codes x row clearLine := canvas_step _ display
  rw [hafter]
  refine ⟨fun rounds h => Checked.drawLine?_eq h before codes x row clearLine,
    Canvas.showsLine_drawLine before codes x row clearLine, ?_⟩
  rintro (hcolumn | hrow)
  · exact Canvas.drawLine_of_column_ge before codes x row clearLine hcolumn
  · exact Canvas.drawLine_of_row_ge hrow before codes x clearLine

end MeterPanel
