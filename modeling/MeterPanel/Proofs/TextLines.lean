import MeterPanel.Proofs.TextCells
import MeterPanel.Text.Line

/-!
# The picture of a line of text

A line shows its characters up to the first NUL or the right edge, one cell
each, and with the row cleared every cell behind them is dark. Cells of one
row do not overlap, so a later cell leaves an earlier one as it is.

The proofs follow the run of characters: what the rest of the run draws lies
to the right of the character drawn first.

## Main results

* `lit_drawLine`, `lit_drawLine_of_cell` — the pixels after drawing a line.
* `drawLine_of_row_ge` — below the fourth row nothing is drawn.
-/

namespace MeterPanel

namespace Text

/-- The characters that a line from column `x` shows: those before the first
NUL, as far as there are columns. -/
def shown (codes : List UInt8) (x : Nat) : List UInt8 :=
  (codes.takeWhile (· ≠ 0)).take (columnCount - x)

theorem shown_nil (x : Nat) : shown [] x = [] := by simp [shown]

theorem shown_cons_of_stop {code : UInt8} {x : Nat} (codes : List UInt8)
    (h : code = 0 ∨ columnCount ≤ x) : shown (code :: codes) x = [] := by
  rcases h with rfl | hfull
  · simp [shown]
  · simp [shown, Nat.sub_eq_zero_of_le hfull]

theorem shown_cons {code : UInt8} {x : Nat} (codes : List UInt8)
    (hcode : code ≠ 0) (hx : x < columnCount) :
    shown (code :: codes) x = code :: shown codes (x + 1) := by
  have hroom : columnCount - x = columnCount - (x + 1) + 1 := by omega
  simp [shown, hcode, hroom]

theorem length_shown_le (codes : List UInt8) (x : Nat) :
    (shown codes x).length ≤ columnCount - x := by
  simp only [shown, List.length_take]
  omega

end Text

namespace Canvas

/-! ## Runs of characters -/

theorem drawRun_of_stop (canvas : Canvas) {code : UInt8} {c : UInt8} (codes : List UInt8)
    (row : UInt8) (h : code = 0 ∨ Text.columnCount ≤ c.toNat) :
    canvas.drawRun (code :: codes) c row = (canvas, c) := by
  rw [drawRun, if_pos h]

theorem drawRun_of_room (canvas : Canvas) {code : UInt8} {c : UInt8} (codes : List UInt8)
    (row : UInt8) (hcode : code ≠ 0) (hc : c.toNat < Text.columnCount) :
    canvas.drawRun (code :: codes) c row =
      (canvas.drawChar code c row .normal).drawRun codes (c + 1) row := by
  rw [drawRun, if_neg (not_or.2 ⟨hcode, by omega⟩)]

theorem toNat_succ {c : UInt8} (hc : c.toNat < Text.columnCount) :
    (c + 1).toNat = c.toNat + 1 := by
  have hc' : c.toNat < 20 := hc
  rw [UInt8.toNat_add, UInt8.toNat_one, Nat.mod_eq_of_lt (by omega)]

/-- A run ends behind the last character it shows. -/
theorem toNat_drawRun_snd (row : UInt8) (codes : List UInt8) :
    ∀ (canvas : Canvas) (c : UInt8),
      (canvas.drawRun codes c row).2.toNat = c.toNat + (Text.shown codes c.toNat).length := by
  induction codes with
  | nil =>
      intro canvas c
      rw [Text.shown_nil]
      rfl
  | cons code codes ih =>
      intro canvas c
      by_cases hstop : code = 0 ∨ Text.columnCount ≤ c.toNat
      · rw [drawRun_of_stop canvas codes row hstop, Text.shown_cons_of_stop codes hstop]
        rfl
      · obtain ⟨hcode, hc⟩ := not_or.1 hstop
        rw [Nat.not_le] at hc
        rw [drawRun_of_room canvas codes row hcode hc, ih, toNat_succ hc,
          Text.shown_cons codes hcode hc, List.length_cons]
        omega

/-- The pixels after a run: the cells of the characters shown, and all other
pixels as before. -/
theorem lit_drawRun {row : UInt8} (hrow : row.toNat < 4) {x y : Nat} (hx : x < 128)
    (hy : y < 64) (codes : List UInt8) :
    ∀ (canvas : Canvas) (c : UInt8),
      (canvas.drawRun codes c row).1.lit x y =
        if y / 16 = row.toNat ∧ 4 ≤ x ∧ c.toNat ≤ (x - 4) / 6 then
          match (Text.shown codes c.toNat)[(x - 4) / 6 - c.toNat]? with
          | some code => Cell.shows code false (Cell.columnAt x) (y % 16)
          | none => canvas.lit x y
        else
          canvas.lit x y := by
  induction codes with
  | nil =>
      intro canvas c
      simp [drawRun, Text.shown_nil]
  | cons code codes ih =>
      intro canvas c
      by_cases hstop : code = 0 ∨ Text.columnCount ≤ c.toNat
      · rw [drawRun_of_stop canvas codes row hstop, Text.shown_cons_of_stop codes hstop]
        simp
      · obtain ⟨hcode, hc⟩ := not_or.1 hstop
        rw [Nat.not_le] at hc
        have hc' : c.toNat < 20 := hc
        rw [drawRun_of_room canvas codes row hcode hc, ih, toNat_succ hc,
          Text.shown_cons codes hcode hc, lit_drawChar canvas code c row hc' hrow hx hy]
        -- the first cell, a later cell, or neither
        by_cases hrowy : y / 16 = row.toNat ∧ 4 ≤ x
        · obtain ⟨hyrow, hx4⟩ := hrowy
          rcases Nat.lt_trichotomy ((x - 4) / 6) c.toNat with hlt | heq | hgt
          · rw [if_neg (by omega), if_neg (by omega), if_neg (by omega)]
          · rw [if_neg (by omega), if_pos (by omega), if_pos (by omega)]
            simp [heq]
          · have hpred : (x - 4) / 6 - c.toNat = (x - 4) / 6 - (c.toNat + 1) + 1 := by omega
            rw [if_pos (by omega), if_neg (by omega), if_pos (by omega), hpred,
              List.getElem?_cons_succ]
        · rw [if_neg (by omega), if_neg (by omega), if_neg (by omega)]

theorem keeps_drawRun (row : UInt8) (codes : List UInt8) :
    ∀ (canvas : Canvas) (c : UInt8), Keeps canvas (canvas.drawRun codes c row).1 := by
  induction codes with
  | nil => intro canvas c; exact .refl canvas
  | cons code codes ih =>
      intro canvas c
      by_cases hstop : code = 0 ∨ Text.columnCount ≤ c.toNat
      · rw [drawRun_of_stop canvas codes row hstop]
        exact .refl canvas
      · obtain ⟨hcode, hc⟩ := not_or.1 hstop
        rw [drawRun_of_room canvas codes row hcode (by omega)]
        exact (keeps_drawChar canvas code c row .normal).trans (ih _ _)

theorem drawRun_of_row_ge {row : UInt8} (hrow : 4 ≤ row.toNat) (codes : List UInt8) :
    ∀ (canvas : Canvas) (c : UInt8), (canvas.drawRun codes c row).1 = canvas := by
  induction codes with
  | nil => intro canvas c; rfl
  | cons code codes ih =>
      intro canvas c
      by_cases hstop : code = 0 ∨ Text.columnCount ≤ c.toNat
      · rw [drawRun_of_stop canvas codes row hstop]
      · obtain ⟨hcode, hc⟩ := not_or.1 hstop
        rw [drawRun_of_room canvas codes row hcode (by omega), ih,
          drawChar_of_row_ge canvas code c row .normal hrow]

/-! ## Blanks -/

/-- Blanks in the given columns, one after the other. -/
private def blankCells (canvas : Canvas) (row : UInt8) (columns : List Nat) : Canvas :=
  columns.foldl (fun canvas column =>
    canvas.drawChar Text.blankCode (UInt8.ofNat column) row .normal) canvas

private theorem blankFrom_eq (canvas : Canvas) (c row : UInt8) :
    canvas.blankFrom c row =
      canvas.blankCells row (List.range' c.toNat (Text.columnCount - c.toNat)) := rfl

private theorem shows_blank (column : Fin Glyph.columnCount) (r : Nat) :
    Cell.shows Text.blankCode false column r = false := by
  have hdark : ∀ (column : Fin Glyph.columnCount) (row : Fin 8),
      (Font.glyph Text.blankCode).lit column row = false := by decide
  simp [Cell.shows, hdark]

private theorem lit_blankCells {row : UInt8} (hrow : row.toNat < 4) {x y : Nat} (hx : x < 128)
    (hy : y < 64) (columns : List Nat) :
    ∀ canvas : Canvas, (∀ c ∈ columns, c < 20) →
      (canvas.blankCells row columns).lit x y =
        if y / 16 = row.toNat ∧ 4 ≤ x ∧ (x - 4) / 6 ∈ columns then false
        else canvas.lit x y := by
  induction columns with
  | nil =>
      intro canvas _
      simp [blankCells]
  | cons c columns ih =>
      intro canvas hroom
      have hc : c < 20 := hroom c (List.mem_cons_self ..)
      have hcode : (UInt8.ofNat c).toNat = c :=
        UInt8.toNat_ofNat_of_lt' (by show c < 256; omega)
      rw [blankCells, List.foldl_cons]
      change (blankCells _ row columns).lit x y = _
      rw [ih _ fun c' h => hroom c' (List.mem_cons_of_mem _ h),
        lit_drawChar canvas Text.blankCode (UInt8.ofNat c) row (by omega) hrow hx hy,
        shows_blank, hcode]
      by_cases hlater : (x - 4) / 6 ∈ columns
      · by_cases hcell : y / 16 = row.toNat ∧ 4 ≤ x
        · simp [hlater, hcell]
        · rw [if_neg (by omega), if_neg (by omega), if_neg (by omega)]
      · rw [if_neg (by simp [hlater])]
        by_cases hcell : y / 16 = row.toNat ∧ 4 + 6 * c ≤ x ∧ x < 10 + 6 * c
        · rw [if_pos hcell, if_pos]
          refine ⟨hcell.1, by omega, ?_⟩
          rw [show (x - 4) / 6 = c by omega]
          exact List.mem_cons_self ..
        · rw [if_neg hcell, if_neg]
          rintro ⟨hyrow, hx4, hmem⟩
          rcases List.mem_cons.1 hmem with h | h
          · omega
          · exact hlater h

theorem lit_blankFrom {row : UInt8} (hrow : row.toNat < 4) {x y : Nat} (hx : x < 128)
    (hy : y < 64) (canvas : Canvas) (c : UInt8) :
    (canvas.blankFrom c row).lit x y =
      if y / 16 = row.toNat ∧ 4 ≤ x ∧ c.toNat ≤ (x - 4) / 6 ∧ (x - 4) / 6 < 20 then false
      else canvas.lit x y := by
  have hmem : ∀ column, column ∈ List.range' c.toNat (Text.columnCount - c.toNat) ↔
      c.toNat ≤ column ∧ column < 20 := by
    intro column
    rw [List.mem_range'_1]
    unfold Text.columnCount
    omega
  rw [blankFrom_eq, lit_blankCells hrow hx hy _ canvas fun c' h => ((hmem c').1 h).2]
  simp only [hmem]

theorem keeps_blankFrom (canvas : Canvas) (c row : UInt8) :
    Keeps canvas (canvas.blankFrom c row) :=
  keeps_foldl _ (fun canvas _ => keeps_drawChar canvas _ _ row .normal) _ canvas

private theorem blankCells_of_row_ge {row : UInt8} (hrow : 4 ≤ row.toNat) (columns : List Nat) :
    ∀ canvas : Canvas, canvas.blankCells row columns = canvas := by
  induction columns with
  | nil => intro canvas; rfl
  | cons c columns ih =>
      intro canvas
      apply (ih _).trans
      exact drawChar_of_row_ge canvas _ _ row .normal hrow

/-! ## Lines -/

theorem drawLine_eq (canvas : Canvas) (codes : List UInt8) (c row : UInt8) (clearLine : Bool) :
    canvas.drawLine codes c row clearLine =
      if clearLine then
        (canvas.drawRun codes c row).1.blankFrom (canvas.drawRun codes c row).2 row
      else
        (canvas.drawRun codes c row).1 := rfl

theorem keeps_drawLine (canvas : Canvas) (codes : List UInt8) (c row : UInt8)
    (clearLine : Bool) : Keeps canvas (canvas.drawLine codes c row clearLine) := by
  have hrun := keeps_drawRun row codes canvas c
  rw [drawLine_eq]
  cases clearLine with
  | false => exact hrun
  | true => exact hrun.trans (keeps_blankFrom _ _ row)

/-- The pixels after drawing a line: characters, then darkness if the row is
cleared, and no change anywhere else. -/
theorem lit_drawLine {row : UInt8} (hrow : row.toNat < 4) {x y : Nat} (hx : x < 128)
    (hy : y < 64) (canvas : Canvas) (codes : List UInt8) (c : UInt8) (clearLine : Bool) :
    (canvas.drawLine codes c row clearLine).lit x y =
      if y / 16 = row.toNat ∧ 4 ≤ x ∧ c.toNat ≤ (x - 4) / 6 ∧ (x - 4) / 6 < 20 then
        match (Text.shown codes c.toNat)[(x - 4) / 6 - c.toNat]? with
        | some code => Cell.shows code false (Cell.columnAt x) (y % 16)
        | none => !clearLine && canvas.lit x y
      else
        canvas.lit x y := by
  have hlength := Text.length_shown_le codes c.toNat
  have hstop := toNat_drawRun_snd row codes canvas c
  have hrun := lit_drawRun hrow hx hy codes canvas c
  unfold Text.columnCount at hlength
  rw [drawLine_eq]
  by_cases hright : y / 16 = row.toNat ∧ 4 ≤ x ∧ c.toNat ≤ (x - 4) / 6
  · rw [if_pos hright] at hrun
    rcases Nat.lt_or_ge ((x - 4) / 6 - c.toNat) (Text.shown codes c.toNat).length with hin | hout
    -- under a character, where the blanks begin further right
    · have hcolumn : y / 16 = row.toNat ∧ 4 ≤ x ∧ c.toNat ≤ (x - 4) / 6 ∧ (x - 4) / 6 < 20 := by
        omega
      rw [List.getElem?_eq_getElem hin] at hrun ⊢
      rw [if_pos hcolumn]
      cases clearLine with
      | false => exact hrun
      | true =>
          rw [if_pos rfl, lit_blankFrom hrow hx hy, if_neg (by omega)]
          exact hrun
    -- behind the characters
    · rw [List.getElem?_eq_none hout] at hrun ⊢
      cases clearLine with
      | false =>
          show _ = if _ then canvas.lit x y else canvas.lit x y
          rw [ite_self]
          exact hrun
      | true =>
          rw [if_pos rfl, lit_blankFrom hrow hx hy]
          by_cases hcolumn : (x - 4) / 6 < 20
          · rw [if_pos (by omega), if_pos (by omega)]
            rfl
          · rw [if_neg (by omega), if_neg (by omega)]
            exact hrun
  · have hcolumn :
        ¬ (y / 16 = row.toNat ∧ 4 ≤ x ∧ c.toNat ≤ (x - 4) / 6 ∧ (x - 4) / 6 < 20) := by
      omega
    rw [if_neg hright] at hrun
    rw [if_neg hcolumn]
    cases clearLine with
    | false => exact hrun
    | true =>
        rw [if_pos rfl, lit_blankFrom hrow hx hy, if_neg (by omega)]
        exact hrun

/-- The pixels of one cell after drawing a line. -/
theorem lit_drawLine_of_cell {row : UInt8} (hrow : row.toNat < 4) (canvas : Canvas)
    (codes : List UInt8) (c : UInt8) (clearLine : Bool) (cell : Fin Text.columnCount)
    (column : Fin Glyph.columnCount) (r : Fin 16) :
    (canvas.drawLine codes c row clearLine).lit (4 + 6 * cell + column) (16 * row.toNat + r) =
      if c.toNat ≤ cell then
        match (Text.shown codes c.toNat)[cell.val - c.toNat]? with
        | some code => Cell.shows code false column r
        | none => !clearLine && canvas.lit (4 + 6 * cell + column) (16 * row.toNat + r)
      else
        canvas.lit (4 + 6 * cell + column) (16 * row.toNat + r) := by
  have hcell : cell.val < 20 := cell.isLt
  have hcolumn : column.val < 6 := column.isLt
  have hcellAt : (4 + 6 * cell.val + column.val - 4) / 6 = cell.val := by omega
  have hcolumnAt : Cell.columnAt (4 + 6 * cell.val + column.val) = column := by
    apply Fin.ext
    show (4 + 6 * cell.val + column.val - 4) % 6 = column.val
    omega
  have hrowAt : (16 * row.toNat + r.val) % 16 = r.val := by omega
  rw [lit_drawLine hrow (by omega) (by omega), hcellAt, hcolumnAt, hrowAt]
  by_cases hright : c.toNat ≤ cell.val
  · rw [if_pos (by omega), if_pos hright]
  · rw [if_neg (by omega), if_neg hright]

/-- Below the fourth row nothing is drawn. -/
theorem drawLine_of_row_ge {row : UInt8} (hrow : 4 ≤ row.toNat) (canvas : Canvas)
    (codes : List UInt8) (c : UInt8) (clearLine : Bool) :
    canvas.drawLine codes c row clearLine = canvas := by
  rw [drawLine_eq, drawRun_of_row_ge hrow, blankFrom_eq, blankCells_of_row_ge hrow]
  split <;> rfl

end Canvas

end MeterPanel
