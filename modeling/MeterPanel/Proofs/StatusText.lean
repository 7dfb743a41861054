import MeterPanel.Meter.Basic
import MeterPanel.Proofs.ReadingPicture
import MeterPanel.Proofs.SessionPictures

/-!
# Three ways to the status row

Text gets below the bars in three ways: as the status of a meter whose reading
is shown, as text written to the screen, and as codes that are printed. A
meter keeps twenty cells, and its row is blanked behind them; the other two
take the whole text and leave the rest of the row alone. On a dark row nothing
of this can be seen: a line stops at the edge anyway, the bars end above the
row, and no character but NUL has the code that ends a line.

## Main results

* `shown_take` — what a meter drops of a text is never shown.
* `shown_codesOf` — a line of text shows its characters, one cell each.
* `lit_drawLine_of_dark` — a line on a dark row.
* `same_text_on_every_path` — the three ways leave the same pixels.
-/

namespace MeterPanel

/-! ## Characters and their codes -/

namespace Font

/-- Only a NUL ends a line. -/
theorem codeOf_eq_zero {character : Char} : codeOf character = 0 ↔ character = '\x00' := by
  constructor
  · intro h
    unfold codeOf at h
    split at h
    · rename_i hascii
      have hcode : (UInt8.ofNat character.toNat).toNat = 0 := by rw [h, UInt8.toNat_zero]
      rw [UInt8.toNat_ofNat_of_lt' (by show character.toNat < 256; omega)] at hcode
      rw [← Char.ofNat_toNat character, hcode]
    · exact absurd h (by decide)
  · rintro rfl
    decide

end Font

namespace Text

/-- The codes of a text, one for each character. -/
def codesOf (text : String) : List UInt8 := text.toList.map Font.codeOf

/-- A text is shown no further than the right edge, so what lies behind it
can be dropped before. -/
theorem shown_take (codes : List UInt8) : shown (codes.take columnCount) 0 = shown codes 0 := by
  unfold shown
  rw [← List.take_takeWhile, Nat.sub_zero, List.take_take, Nat.min_self]

/-- A line of text shows its characters up to the first NUL, one cell each. -/
theorem shown_codesOf (text : String) :
    shown (codesOf text) 0 =
      ((text.toList.takeWhile (· ≠ '\x00')).take columnCount).map Font.codeOf := by
  have hstop : ((fun code : UInt8 => decide (code ≠ 0)) ∘ Font.codeOf) =
      fun character : Char => decide (character ≠ '\x00') := by
    funext character
    simp [Font.codeOf_eq_zero]
  rw [shown, codesOf, List.takeWhile_map, hstop, List.map_take, Nat.sub_zero]

/-- Whether a dark row of cells that shows a text is lit in column `x` and
row `y` of the panel: the text takes a cell for each character, from the left
edge to the right edge or the first NUL. -/
def lights (text : String) (x y : Nat) : Bool :=
  match (text.toList.takeWhile (· ≠ '\x00'))[(x - 4) / 6]? with
  | some character =>
      decide (4 ≤ x ∧ (x - 4) / 6 < columnCount) &&
        Cell.shows (Font.codeOf character) false (Cell.columnAt x) (y % 16)
  | none => false

end Text

/-! ## Lines on a dark row -/

namespace Canvas

/-- A row of text is dark. -/
def DarkIn (canvas : Canvas) (row : UInt8) : Prop :=
  ∀ x y : UInt8, y.toNat / 16 = row.toNat → canvas.pixel x y = false

theorem darkIn_blank (height row : UInt8) : (blank height).DarkIn row := by
  intro x y _
  have hpos := pixelIndex_pos x y
  have hindex : pixelIndex x y ≠ 0 := by omega
  simp [pixel, blank, hindex]

theorem DarkIn.lit {canvas : Canvas} {row : UInt8} (h : canvas.DarkIn row) {x y : Nat}
    (hx : x < 128) (hy : y < 64) (hrow : y / 16 = row.toNat) : canvas.lit x y = false := by
  rw [← pixel_ofNat canvas hx hy]
  apply h
  rw [UInt8.toNat_ofNat_of_lt' (by show y < 256; omega), hrow]

/-- A line from the left edge of a dark row. Whether the row is blanked behind
it makes no difference. -/
theorem lit_drawLine_of_dark {canvas : Canvas} {row : UInt8} (hrow : row.toNat < 4) {x y : Nat}
    (hx : x < 128) (hy : y / 16 = row.toNat) (hdark : canvas.lit x y = false)
    {codes : List UInt8} {text : String}
    (hcodes : Text.shown codes 0 = Text.shown (Text.codesOf text) 0) (clearLine : Bool) :
    (canvas.drawLine codes 0 row clearLine).lit x y = Text.lights text x y := by
  rw [lit_drawLine hrow hx (by omega), UInt8.toNat_zero, Nat.sub_zero, hcodes, Text.shown_codesOf,
    List.getElem?_map, List.getElem?_take, hdark, Bool.and_false, Text.lights]
  by_cases hcell : 4 ≤ x ∧ (x - 4) / 6 < Text.columnCount
  · have hline : y / 16 = row.toNat ∧ 4 ≤ x ∧ 0 ≤ (x - 4) / 6 ∧ (x - 4) / 6 < 20 :=
      ⟨hy, hcell.1, Nat.zero_le _, hcell.2⟩
    rw [if_pos hline, if_pos hcell.2]
    cases (text.toList.takeWhile (· ≠ '\x00'))[(x - 4) / 6]? with
    | none => rfl
    | some character => simp [hcell]
  · have hline : ¬ (y / 16 = row.toNat ∧ 4 ≤ x ∧ 0 ≤ (x - 4) / 6 ∧ (x - 4) / 6 < 20) :=
      fun h => hcell ⟨h.2.1, h.2.2.2⟩
    rw [if_neg hline]
    split
    · simp [hcell]
    · rfl

end Canvas

/-! ## The status row -/

namespace Panel

/-- A panel that can be set up has its status row. -/
theorem statusRow_lt_textRows {panel : Panel} (h : panel.Supported) :
    panel.statusRow < panel.textRows := by
  unfold statusRow textRows
  rcases h with h | h <;> rw [h] <;> decide

theorem not_inBars_of_statusRow {panel : Panel} {y : Nat}
    (hy : y / 16 = panel.statusRow.toNat) (x : Nat) : ¬ panel.InBars x y := by
  rintro ⟨_, _, _, hbars⟩
  have hbelow := panel.height_le_statusRow
  omega

end Panel

/-- The picture of a display is made for its panel, which is `height` pixels
tall, and the status row is dark. -/
structure Display.ClearBelowBars {σ : Type} (display : Display σ) (height : UInt8) : Prop where
  panel : display.panel.height = height
  canvas : display.canvas.height = height
  dark : display.canvas.DarkIn display.panel.statusRow

namespace Display

theorem clearBelowBars_new {σ : Type} (bus : σ) (panel : Panel) :
    (new bus panel).ClearBelowBars panel.height where
  panel := rfl
  canvas := rfl
  dark := Canvas.darkIn_blank panel.height panel.statusRow

section

variable {σ ε : Type} [Bus σ ε] {display : Display σ} {height : UInt8}

theorem ClearBelowBars.statusRow_eq {σ' : Type} {display' : Display σ'}
    (h : display.ClearBelowBars height) (h' : display'.ClearBelowBars height) :
    display.panel.statusRow = display'.panel.statusRow := by
  unfold Panel.statusRow
  rw [h.panel, h'.panel]

theorem ClearBelowBars.lit (h : display.ClearBelowBars height) {x y : Nat} (hx : x < 128)
    (hy : y / 16 = display.panel.statusRow.toNat) : display.canvas.lit x y = false := by
  have hrow := display.panel.toNat_statusRow_lt
  exact h.dark.lit hx (by omega) hy

/-- The row after a status has been shown with a reading. -/
theorem lit_update_setStatus (h : display.ClearBelowBars height) (meter : Meter) (text : String)
    {x y : Nat} (hx : x < 128) (hy : y / 16 = display.panel.statusRow.toNat) :
    (display.step (.update (meter.setStatus text).reading)).2.canvas.lit x y =
      Text.lights text x y := by
  have hcells : (meter.setStatus text).reading.status =
      (Text.codesOf text).take Text.columnCount := List.map_take
  have hrow := display.panel.toNat_statusRow_lt
  rw [canvas_step, DisplayRequest.paint]
  apply Canvas.lit_drawLine_of_dark hrow hx hy
  · rw [Canvas.lit_drawBars_of_not_inBars (h.canvas.trans h.panel.symm) _ _ hx (by omega)
      (Panel.not_inBars_of_statusRow hy x), h.lit hx hy]
  · rw [hcells, Text.shown_take]

/-- The row after a text has been written to the screen. -/
theorem lit_write (hheight : height = 32 ∨ height = 64) (h : display.ClearBelowBars height)
    (text : String) {x y : Nat} (hx : x < 128) (hy : y / 16 = display.panel.statusRow.toNat) :
    (display.step (.screen (.write display.panel.statusRow 0 text))).2.canvas.lit x y =
      Text.lights text x y := by
  have hsupported : display.panel.Supported := by
    unfold Panel.Supported
    rw [h.panel]
    exact hheight
  rw [canvas_step, DisplayRequest.paint, if_pos (Panel.statusRow_lt_textRows hsupported)]
  exact Canvas.lit_drawLine_of_dark display.panel.toNat_statusRow_lt hx hy (h.lit hx hy) rfl false

/-- The row after the codes of a text have been printed. -/
theorem lit_print (h : display.ClearBelowBars height) (text : String) {x y : Nat} (hx : x < 128)
    (hy : y / 16 = display.panel.statusRow.toNat) :
    (display.step (.print (Text.codesOf text) 0 display.panel.statusRow false false)).2.canvas.lit
        x y =
      Text.lights text x y := by
  rw [canvas_step, DisplayRequest.paint]
  exact Canvas.lit_drawLine_of_dark display.panel.toNat_statusRow_lt hx hy (h.lit hx hy) rfl false

end

/-- The three ways leave the same pixels on a dark status row: a status that
is shown with a reading, the same text written to the screen, and its codes
printed. They are the pixels of the whole text, up to the right edge or its
first NUL, whatever the meter has heard and whatever the buses answer. -/
theorem same_text_on_every_path {σ ε σ' ε' σ'' ε'' : Type} [Bus σ ε] [Bus σ' ε'] [Bus σ'' ε'']
    {one : Display σ} {two : Display σ'} {three : Display σ''} {height : UInt8}
    (hheight : height = 32 ∨ height = 64) (hone : one.ClearBelowBars height)
    (htwo : two.ClearBelowBars height) (hthree : three.ClearBelowBars height)
    (meter : Meter) (text : String) (x y : UInt8)
    (hy : y.toNat / 16 = one.panel.statusRow.toNat) :
    let updated := (one.step (.update (meter.setStatus text).reading)).2
    let written := (two.step (.screen (.write two.panel.statusRow 0 text))).2
    let printed := (three.step (.print (text.toList.map Font.codeOf) 0 three.panel.statusRow
      false false)).2
    updated.canvas.pixel x y = written.canvas.pixel x y ∧
      written.canvas.pixel x y = printed.canvas.pixel x y ∧
      printed.canvas.pixel x y = Text.lights text (x.toNat % 128) y.toNat := by
  intro updated written printed
  have hrow := one.panel.toNat_statusRow_lt
  have hx : x.toNat % 128 < 128 := Nat.mod_lt _ (by decide)
  have hwrap : y.toNat % 64 = y.toNat := Nat.mod_eq_of_lt (by omega)
  have hytwo : y.toNat / 16 = two.panel.statusRow.toNat := by rw [hy, hone.statusRow_eq htwo]
  have hythree : y.toNat / 16 = three.panel.statusRow.toNat := by
    rw [hy, hone.statusRow_eq hthree]
  have hupdated := lit_update_setStatus hone meter text hx hy
  have hwritten := lit_write hheight htwo text hx hytwo
  have hprinted := lit_print hthree text hx hythree
  simp only [Canvas.pixel_eq_lit, hwrap]
  exact ⟨hupdated.trans hwritten.symm, hwritten.trans hprinted.symm, hprinted⟩

/-- The twentieth character takes the last cell on each of the ways, on a bus
that refuses everything and on a panel that is mounted upside down. -/
theorem same_text_on_small_panels :
    let refusing : ScriptedBus BusFault := .fresh fun _ => some .nackAddress
    let willing : ScriptedBus BusFault := .fresh fun _ => none
    let turned : Panel := { Panel.standard with rotation := .inverted }
    let text := "5\u00b0C 0123456789ABCDE\u00b0F\x00 ok"
    let status := (Meter.silent .standard).setStatus text
    let updated := ((new refusing .standard).step (.update status.reading)).2
    let written := ((new willing turned).step (.screen (.write 1 0 text))).2
    let printed := ((new willing .standard).step
      (.print (text.toList.map Font.codeOf) 0 1 false false)).2
    updated.canvas.pixel 120 20 = written.canvas.pixel 120 20 ∧
      written.canvas.pixel 120 20 = printed.canvas.pixel 120 20 ∧
      printed.canvas.pixel 120 20 = true := by
  intro refusing willing turned text status updated written printed
  have hsame := same_text_on_every_path (.inl rfl) (clearBelowBars_new refusing .standard)
    (clearBelowBars_new willing turned) (clearBelowBars_new willing .standard)
    (.silent .standard) text 120 20 (by decide)
  have hlit : Text.lights text 120 20 = true := by decide
  exact ⟨hsame.1, hsame.2.1, hsame.2.2.trans hlit⟩

end Display

end MeterPanel
