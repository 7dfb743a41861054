import MeterPanel.Proofs.SessionPictures

/-!
# Selected cells

Highlighting a selection turns pixels: those that were dark are lit, and those
that were lit are dark. Which pixels are turned depends on the selection alone
and not on the picture, so a list of turns is settled by parity: a pixel turned
an odd number of times is turned in the end, every other one is as it was.

The same law holds on three levels. A cell turns its columns, a selection its
cells and a session its selections, and `Turns.foldl` goes from each to the
next. A selection meets a pixel in one cell and a cell in one column at most,
so on these two levels the parity is that of being met at all.

## Main results

* `Turns.foldl` — a loop turns what an odd number of its rounds turn.
* `turns_invertCell`, `turns_invertCells` — the pixels of a cell and of a row.
* `turns_run` — the pixels of a session.
* `highlights_by_parity` — a session of selections, cell by cell.
-/

namespace MeterPanel

/-! ## Turning pixels -/

namespace Canvas

/-- The canvas `after` is `before` with the given pixels turned and all else
as it was. -/
structure Turns (pixels : Nat → Nat → Bool) (before after : Canvas) : Prop
    extends Keeps before after where
  lit : ∀ x y, x < 128 → y < 64 → after.lit x y = (before.lit x y ^^ pixels x y)

namespace Turns

variable {pixels others : Nat → Nat → Bool} {a b c : Canvas}

theorem refl (canvas : Canvas) : Turns (fun _ _ => false) canvas canvas where
  toKeeps := .refl canvas
  lit := by simp

theorem trans (hab : Turns pixels a b) (hbc : Turns others b c) :
    Turns (fun x y => pixels x y ^^ others x y) a c where
  toKeeps := hab.toKeeps.trans hbc.toKeeps
  lit := by
    intro x y hx hy
    rw [hbc.lit x y hx hy, hab.lit x y hx hy, Bool.xor_assoc]

theorem congr (h : Turns pixels a b) (heq : ∀ x y, x < 128 → y < 64 → pixels x y = others x y) :
    Turns others a b where
  toKeeps := h.toKeeps
  lit := by
    intro x y hx hy
    rw [h.lit x y hx hy, heq x y hx hy]

/-- What is turned determines the result. -/
theorem unique (hb : Turns pixels a b) (hc : Turns pixels a c) : b = c := by
  have hkeeps : Keeps b c :=
    ⟨hc.height.trans hb.height.symm, hc.controlByte.trans hb.controlByte.symm⟩
  refine ext_of_lit hkeeps fun x y hx hy => ?_
  rw [hb.lit x y hx hy, hc.lit x y hx hy]

private theorem xor_odd_succ (bit : Bool) (n : Nat) :
    (bit ^^ decide (n % 2 = 1)) = decide ((n + if bit then 1 else 0) % 2 = 1) := by
  cases bit with
  | false => simp
  | true =>
      rw [Bool.true_xor, ← decide_not, decide_eq_decide]
      show ¬ n % 2 = 1 ↔ (n + 1) % 2 = 1
      omega

/-- A loop turns the pixels that an odd number of its rounds turn. -/
theorem foldl {α : Type} {step : Canvas → α → Canvas} {turned : α → Nat → Nat → Bool}
    (rounds : List α)
    (hstep : ∀ round ∈ rounds, ∀ canvas, Turns (turned round) canvas (step canvas round)) :
    ∀ canvas, Turns (fun x y => decide ((rounds.countP fun round => turned round x y) % 2 = 1))
      canvas (rounds.foldl step canvas) := by
  induction rounds with
  | nil => intro canvas; exact refl canvas
  | cons round rounds ih =>
      intro canvas
      have hfirst := hstep round List.mem_cons_self canvas
      have hrest := ih (fun other hmem => hstep other (List.mem_cons_of_mem _ hmem))
        (step canvas round)
      refine (hfirst.trans hrest).congr fun x y _ _ => ?_
      rw [List.countP_cons, xor_odd_succ]

end Turns

/-! ## Cells -/

/-- Flipping the bits of a mask turns pixels of one byte. -/
theorem turns_toggle (canvas : Canvas) (index : Nat) (mask : UInt8) :
    Turns (fun x y => decide (index = 128 * (y / 8) + x + 1) && mask.toNat.testBit (y % 8))
      canvas (canvas.toggle index mask) where
  toKeeps := keeps_toggle canvas index mask
  lit := by
    intro x y hx hy
    unfold lit toggle
    rw [byteAt_update canvas index _ (by omega) (by omega)]
    by_cases hindex : index = 128 * (y / 8) + x + 1
    · rw [if_pos hindex, UInt8.toNat_xor, Nat.testBit_xor]
      simp [hindex]
    · simp [hindex]

/-- A number is met once in a range that holds it, and in no other. -/
private theorem odd_countP_range' (met : Prop) [Decidable met] (start length number : Nat) :
    decide (((List.range' start length).countP fun i => decide (met ∧ number = i)) % 2 = 1) =
      decide (met ∧ start ≤ number ∧ number < start + length) := by
  by_cases hmet : met
  · have hcount : ((List.range' start length).countP fun i => decide (met ∧ number = i)) =
        (List.range' start length).count number := by
      refine List.countP_congr fun i _ => ?_
      rw [decide_eq_true_eq, beq_iff_eq, and_iff_right hmet, eq_comm]
    rw [hcount, List.count_range_1', decide_eq_decide, and_iff_right hmet]
    split <;> simp [*]
  · simp [hmet]

end Canvas

namespace Cell

private theorem testBit_upperMask : ∀ b : Fin 8,
    (invertMask <<< drop).toUInt8.toNat.testBit b = decide (2 ≤ b.val) := by decide

private theorem testBit_lowerMask : ∀ b : Fin 8,
    (invertMask <<< drop >>> 8).toUInt8.toNat.testBit b = true := by decide

/-- Whether a pixel is turned when cell `c` of a row is inverted: it lies in
the cell, but neither in the gap column on the left nor in the two rows on
top. -/
def turns (row c x y : Nat) : Bool :=
  decide ((y / 16 = row ∧ 2 ≤ y % 16 ∧ 4 ≤ x ∧ (x - 4) % 6 ≠ 0) ∧ (x - 4) / 6 = c)

end Cell

namespace Canvas

/-- One column of an inverted cell on the grid. -/
private theorem turns_column (canvas : Canvas) {c i : Nat} (row : Nat) (hc : c < 20) (hi : i < 6) :
    let index := 256 * row + 6 * c + 5 + i
    let mask := Cell.invertMask <<< Cell.drop
    Turns (fun x y => decide ((y / 16 = row ∧ 2 ≤ y % 16 ∧ 4 + 6 * c ≤ x) ∧ x - 4 - 6 * c = i))
      canvas ((canvas.toggle index mask.toUInt8).toggle (index + 128) (mask >>> 8).toUInt8) := by
  intro index mask
  refine ((turns_toggle canvas index _).trans (turns_toggle _ (index + 128) _)).congr
    fun x y hx hy => ?_
  have hupper : index = 128 * (y / 8) + x + 1 ↔ y / 8 = 2 * row ∧ x = 4 + 6 * c + i := by
    omega
  have hlower : index + 128 = 128 * (y / 8) + x + 1 ↔
      y / 8 = 2 * row + 1 ∧ x = 4 + 6 * c + i := by
    omega
  have hbit : y % 8 < 8 := Nat.mod_lt _ (by decide)
  rw [Cell.testBit_upperMask ⟨y % 8, hbit⟩, Cell.testBit_lowerMask ⟨y % 8, hbit⟩, Bool.and_true]
  simp only [hupper, hlower]
  -- a pixel of the column lies in its upper half, in its lower one or in neither
  by_cases hhigh : y / 8 = 2 * row ∧ x = 4 + 6 * c + i
  · have hlow : ¬ (y / 8 = 2 * row + 1 ∧ x = 4 + 6 * c + i) := by omega
    rw [decide_eq_true hhigh, decide_eq_false hlow, Bool.true_and, Bool.xor_false,
      decide_eq_decide]
    omega
  · rw [decide_eq_false hhigh, Bool.false_and, Bool.false_xor, decide_eq_decide]
    omega

/-- Inverting a cell turns its glyph rows but for the gap column. -/
theorem turns_invertCell (canvas : Canvas) (c row : UInt8) (hc : c.toNat < 20) :
    Turns (Cell.turns row.toNat c.toNat) canvas (canvas.invertCell c row) := by
  have hoffset : Cell.offset c row .normal = 256 * row.toNat + 6 * c.toNat + 5 := by
    show row.toNat * (2 * 128) + c.toNat * 6 + 5 = _
    omega
  have hcolumns := Turns.foldl (List.range' 1 5)
    (fun i hmem canvas => turns_column canvas row.toNat hc (List.mem_range'_1.1 hmem).2) canvas
  simp only [← hoffset] at hcolumns
  refine Turns.congr hcolumns fun x y hx hy => ?_
  rw [odd_countP_range', Cell.turns, decide_eq_decide]
  omega

/-- Inverting a part of a row turns its cells within the row. -/
theorem turns_invertCells (canvas : Canvas) (row start stop : UInt8) :
    Turns (fun x y =>
        decide ((y / 16 = row.toNat ∧ 2 ≤ y % 16 ∧ 4 ≤ x ∧ (x - 4) % 6 ≠ 0) ∧
          start.toNat ≤ (x - 4) / 6 ∧ (x - 4) / 6 < min stop.toNat 20))
      canvas (canvas.invertCells row start stop) := by
  let columns := List.range' start.toNat (min stop.toNat 20 - start.toNat)
  have hcell : ∀ column ∈ columns, ∀ canvas : Canvas,
      Turns (Cell.turns row.toNat column) canvas (canvas.invertCell (UInt8.ofNat column) row) := by
    intro column hmem canvas
    have hcolumn : column < 20 := by
      have hrange := List.mem_range'_1.1 hmem
      omega
    have hcode : (UInt8.ofNat column).toNat = column :=
      UInt8.toNat_ofNat_of_lt' (by show column < 256; omega)
    have hturns := turns_invertCell canvas (UInt8.ofNat column) row (by omega)
    rwa [hcode] at hturns
  refine (Turns.foldl columns hcell canvas).congr fun x y _ _ => ?_
  unfold Cell.turns
  rw [odd_countP_range', decide_eq_decide]
  omega

end Canvas

/-! ## Selections -/

/-- A part of a row of text: its cells from column `start` up to, not
including, column `stop`. -/
structure Selection where
  row : UInt8
  start : UInt8
  stop : UInt8
  deriving DecidableEq

namespace Selection

/-- The request to invert a selection. -/
def request (selection : Selection) : DisplayRequest :=
  .screen (.highlight selection.row selection.start selection.stop)

/-- Whether a selection covers the cell in column `c` of row `r`. -/
def covers (selection : Selection) (r c : Nat) : Bool :=
  decide (selection.row.toNat = r ∧ selection.start.toNat ≤ c ∧ c < selection.stop.toNat)

/-- Whether the cell in column `c` of row `r` is covered an odd number of
times. -/
def oddlyCovered (selections : List Selection) (r c : Nat) : Bool :=
  decide ((selections.countP fun selection => selection.covers r c) % 2 = 1)

theorem oddlyCovered_of_perm {selections others : List Selection} (h : others.Perm selections)
    (r c : Nat) : oddlyCovered others r c = oddlyCovered selections r c := by
  unfold oddlyCovered
  rw [h.countP_eq]

/-- Two ranges that meet cover what their union covers. -/
theorem oddlyCovered_adjacent (row : UInt8) {start middle stop : UInt8} (hleft : start ≤ middle)
    (hright : middle ≤ stop) (r c : Nat) :
    oddlyCovered [⟨row, start, middle⟩, ⟨row, middle, stop⟩] r c =
      oddlyCovered [⟨row, start, stop⟩] r c := by
  have hleft' := UInt8.le_iff_toNat_le.1 hleft
  have hright' := UInt8.le_iff_toNat_le.1 hright
  unfold oddlyCovered covers
  rw [decide_eq_decide]
  simp only [List.countP_cons, List.countP_nil, decide_eq_true_eq]
  split <;> split <;> split <;> omega

end Selection

namespace Panel

/-- The pixels that selections can turn: those in a cell of a row that the
panel has, but neither in the gap column on its left nor in the two rows on
its top. -/
def InSelectable (panel : Panel) (x y : Nat) : Prop :=
  ∃ (r : Fin 4) (c : Fin Text.columnCount) (column row : Nat),
    r.val < panel.textRows.toNat ∧ 1 ≤ column ∧ column < 6 ∧ 2 ≤ row ∧ row < 16 ∧
      x = 4 + 6 * c + column ∧ y = 16 * r + row

/-- Whether a pixel of the panel is one that selections can turn. -/
def selectable (panel : Panel) (x y : Nat) : Bool :=
  decide (y / 16 < panel.textRows.toNat ∧ 2 ≤ y % 16 ∧ 4 ≤ x ∧ (x - 4) % 6 ≠ 0 ∧
    (x - 4) / 6 < 20)

theorem selectable_iff (panel : Panel) {x y : Nat} (hy : y < 64) :
    panel.selectable x y = true ↔ panel.InSelectable x y := by
  rw [selectable, decide_eq_true_eq]
  constructor
  · rintro ⟨hr, hrow, hleft, hcolumn, hc⟩
    refine ⟨⟨y / 16, by omega⟩, ⟨(x - 4) / 6, hc⟩, (x - 4) % 6, y % 16, hr, ?_⟩
    dsimp only
    omega
  · rintro ⟨r, c, column, row, hr, hcolumn, hcolumn', hrow, hrow', rfl, rfl⟩
    have hc : c.val < 20 := c.isLt
    omega

end Panel

open Canvas (Turns)

namespace Display

variable {σ ε : Type} [Bus σ ε]

/-- One selection turns the pixels of the cells it covers. -/
theorem turns_paint (panel : Panel) (selection : Selection) (canvas : Canvas) :
    Turns (fun x y => panel.selectable x y && selection.covers (y / 16) ((x - 4) / 6))
      canvas (selection.request.paint panel canvas) := by
  unfold Selection.request DisplayRequest.paint
  by_cases hrow : selection.row < panel.textRows
  · simp only [if_pos hrow]
    refine (Canvas.turns_invertCells canvas _ _ _).congr fun x y _ _ => ?_
    have hrow' := UInt8.lt_iff_toNat_lt.1 hrow
    rw [Panel.selectable, Selection.covers, ← Bool.decide_and, decide_eq_decide]
    omega
  · simp only [if_neg hrow]
    refine (Turns.refl canvas).congr fun x y _ _ => ?_
    have hrow' := mt UInt8.lt_iff_toNat_lt.2 hrow
    rw [Panel.selectable, Selection.covers, ← Bool.decide_and, eq_comm, decide_eq_false_iff_not]
    omega

/-- A session of selections turns the pixels of the cells that are covered an
odd number of times. -/
theorem turns_run (display : Display σ) (selections : List Selection) :
    Turns (fun x y => display.panel.selectable x y &&
        Selection.oddlyCovered selections (y / 16) ((x - 4) / 6))
      display.canvas (display.run (selections.map Selection.request)).canvas := by
  rw [canvas_run, List.foldl_map]
  refine (Turns.foldl selections (fun selection _ canvas =>
    turns_paint display.panel selection canvas) display.canvas).congr fun x y _ _ => ?_
  unfold Selection.oddlyCovered
  cases display.panel.selectable x y <;> simp

/-- The canvas `after` is `before` with the cells turned that the selections
cover an odd number of times, and nothing else changed. -/
structure Highlighted (panel : Panel) (selections : List Selection) (before after : Canvas) :
    Prop where
  cells : ∀ (r : Fin 4) (c : Fin Text.columnCount) (column row : Nat),
    r.val < panel.textRows.toNat → 1 ≤ column → column < 6 → 2 ≤ row → row < 16 →
      let x := UInt8.ofNat (4 + 6 * c + column)
      let y := UInt8.ofNat (16 * r + row)
      after.pixel x y = (before.pixel x y ^^ Selection.oddlyCovered selections r c)
  rest : ∀ x y : UInt8, ¬ panel.InSelectable (x.toNat % 128) (y.toNat % 64) →
    after.pixel x y = before.pixel x y
  controlByte : after.byteAt 0 = before.byteAt 0
  height : after.height = before.height

theorem highlighted_of_turns {panel : Panel} {selections : List Selection} {before after : Canvas}
    (h : Turns (fun x y => panel.selectable x y &&
      Selection.oddlyCovered selections (y / 16) ((x - 4) / 6)) before after) :
    Highlighted panel selections before after where
  cells := by
    intro r c column row hr hcolumn hcolumn' hrow hrow' x y
    have hc : c.val < 20 := c.isLt
    have hselectable : panel.selectable (4 + 6 * c + column) (16 * r + row) = true :=
      (panel.selectable_iff (by omega)).2
        ⟨r, c, column, row, hr, hcolumn, hcolumn', hrow, hrow', rfl, rfl⟩
    rw [Canvas.pixel_ofNat after (by omega) (by omega),
      Canvas.pixel_ofNat before (by omega) (by omega), h.lit _ _ (by omega) (by omega),
      hselectable, Bool.true_and,
      show (16 * r.val + row) / 16 = r.val by omega,
      show (4 + 6 * c.val + column - 4) / 6 = c.val by omega]
  rest := by
    intro x y hrest
    have hnot : panel.selectable (x.toNat % 128) (y.toNat % 64) = false :=
      Bool.eq_false_iff.2 fun hselectable =>
        hrest ((panel.selectable_iff (Nat.mod_lt _ (by decide))).1 hselectable)
    rw [Canvas.pixel_eq_lit, Canvas.pixel_eq_lit, h.lit _ _ (by omega) (by omega), hnot,
      Bool.false_and, Bool.xor_false]
  controlByte := h.controlByte
  height := h.height

/-- Only the parities matter. -/
theorem canvas_run_congr (display : Display σ) {selections others : List Selection}
    (h : ∀ r c, Selection.oddlyCovered others r c = Selection.oddlyCovered selections r c) :
    (display.run (others.map Selection.request)).canvas =
      (display.run (selections.map Selection.request)).canvas := by
  refine ((turns_run display others).congr fun x y _ _ => ?_).unique (turns_run display selections)
  rw [h]

/-- A second time restores the picture. -/
theorem canvas_run_run (display : Display σ) (selections : List Selection) :
    ((display.run (selections.map Selection.request)).run
      (selections.map Selection.request)).canvas = display.canvas := by
  have hfirst := turns_run display selections
  have hsecond := turns_run (display.run (selections.map Selection.request)) selections
  rw [panel_run] at hsecond
  refine ((hfirst.trans hsecond).congr fun x y _ _ => ?_).unique (Turns.refl display.canvas)
  rw [Bool.xor_self]

/-- A session of selections, on any picture: a cell of a row that the panel
has is turned if an odd number of them covers it, and nothing else changes. So
their order does not matter, a second time restores the picture, and two
ranges that meet do what their union does. -/
theorem highlights_by_parity (display : Display σ) (selections : List Selection) :
    let after := display.run (selections.map Selection.request)
    Highlighted display.panel selections display.canvas after.canvas ∧
      (∀ others : List Selection, others.Perm selections →
        (display.run (others.map Selection.request)).canvas = after.canvas) ∧
      (after.run (selections.map Selection.request)).canvas = display.canvas ∧
      ∀ row start middle stop : UInt8, start ≤ middle → middle ≤ stop →
        (after.run [Selection.request ⟨row, start, middle⟩,
            Selection.request ⟨row, middle, stop⟩]).canvas =
          (after.run [Selection.request ⟨row, start, stop⟩]).canvas := by
  intro after
  refine ⟨highlighted_of_turns (turns_run display selections), fun others hperm => ?_,
    canvas_run_run display selections, fun row start middle stop hleft hright => ?_⟩
  · exact canvas_run_congr display (Selection.oddlyCovered_of_perm hperm)
  · exact canvas_run_congr after (Selection.oddlyCovered_adjacent row hleft hright)

end Display

end MeterPanel
