import MeterPanel.Proofs.FrameSafety

/-!
# Inverted characters

There are two ways to an inverted character. It can be drawn inverted, where
the mask is applied to each column before the column is moved down and stored,
or it can be drawn as usual and its cell inverted in the memory, where the mask
is moved down and split first. Moving down and splitting let the mask pass
through, so the two ways store the same bytes. The bytes of a cell are all
different, at any position, so inverting meets each of them once, and what
falls behind the end is dropped on both ways.

## Main results

* `column_not` — the two ways for one column.
* `byteAt_invertCell` — a byte of an inverted cell.
* `invertCell_drawChar`, `invertCell_invertCell` — inverting a character, and
  inverting twice.
* `invert_any_cell` — the laws together.
-/

namespace MeterPanel

namespace Cell

/-- The pixels of a column that inverting flips: none in the gap column, and
all below the two top rows in every other one. -/
def flips (column : Fin Glyph.columnCount) : UInt16 :=
  if 0 < column.val then invertMask <<< drop else 0

/-- A column in the other style is the column with its pixels flipped. -/
theorem column_not (code : UInt8) (column : Fin Glyph.columnCount) (inverted : Bool) :
    Cell.column code column (!inverted) = Cell.column code column inverted ^^^ flips column := by
  unfold Cell.column flips
  by_cases hgap : 0 < column.val
  · simp only [hgap, and_true, if_true]
    cases inverted with
    | false => exact UInt16.shiftLeft_xor
    | true =>
        simp only [Bool.not_true, Bool.false_eq_true, if_false, if_true]
        rw [UInt16.shiftLeft_xor, UInt16.xor_assoc, UInt16.xor_self, UInt16.xor_zero]
  · simp [hgap]

theorem flips_of_pos {column : Fin Glyph.columnCount} (h : 0 < column.val) :
    flips column = invertMask <<< drop :=
  if_pos h

theorem half_flips_of_eq_zero {column : Fin Glyph.columnCount} (h : column.val = 0)
    (part : Fin 2) : half (flips column) part = 0 := by
  rw [flips, if_neg (by omega)]
  revert part
  decide

theorem half_xor (a b : UInt16) (part : Fin 2) :
    half (a ^^^ b) part = half a part ^^^ half b part := by
  unfold half
  split
  · exact UInt16.toUInt8_xor a b
  · rw [UInt16.shiftRight_xor, UInt16.toUInt8_xor]

/-- The changes that invert a cell: both halves of every column but the
first. -/
def invertChanges (x y : UInt8) : List ByteChange :=
  (List.range' 1 (Glyph.columnCount - 1)).flatMap fun column =>
    (List.finRange 2).map fun part : Fin 2 =>
      ⟨offset x y .normal + column + 128 * part,
        fun byte => byte ^^^ half (invertMask <<< drop) part⟩

theorem mem_invertChanges {x y : UInt8} {c : ByteChange} :
    c ∈ invertChanges x y ↔
      ∃ (column : Fin Glyph.columnCount) (part : Fin 2), 0 < column.val ∧
        ⟨index x y .normal column 0 part, fun byte => byte ^^^ half (flips column) part⟩ = c := by
  have hindex : ∀ (column : Fin Glyph.columnCount) (part : Fin 2),
      index x y .normal column 0 part = offset x y .normal + column + 128 * part := by
    intro column part
    show offset x y .normal + 1 * column.val + 0 + 128 * part.val = _
    omega
  simp only [invertChanges, List.mem_flatMap, List.mem_map, List.mem_finRange, true_and,
    List.mem_range'_1]
  constructor
  · rintro ⟨column, ⟨hgap, hcolumn⟩, part, rfl⟩
    let number : Fin Glyph.columnCount := ⟨column, hcolumn⟩
    have hnumber : 0 < number.val := hgap
    refine ⟨number, part, hnumber, ?_⟩
    rw [hindex, flips_of_pos hnumber]
  · rintro ⟨column, part, hgap, rfl⟩
    refine ⟨column, ⟨hgap, column.isLt⟩, part, ?_⟩
    rw [hindex, flips_of_pos hgap]

/-- No byte is met twice. -/
theorem pairwise_invertChanges (x y : UInt8) :
    (invertChanges x y).Pairwise fun c d => c.index ≠ d.index := by
  rw [invertChanges, List.pairwise_flatMap]
  refine ⟨fun column _ => ?_, ?_⟩
  · rw [List.pairwise_map]
    refine (List.nodup_finRange 2).imp fun {part part'} hne hindex => hne (Fin.ext ?_)
    dsimp only at hindex
    omega
  · refine List.Pairwise.imp_of_mem (fun {column column'} hmem hmem' hlt => ?_)
      List.pairwise_lt_range'
    have hcolumn := (List.mem_range'_1.1 hmem).2
    have hcolumn' := (List.mem_range'_1.1 hmem').2
    unfold Glyph.columnCount at hcolumn hcolumn'
    intro c hc d hd
    obtain ⟨part, -, rfl⟩ := List.mem_map.1 hc
    obtain ⟨part', -, rfl⟩ := List.mem_map.1 hd
    dsimp only
    omega

end Cell

namespace Canvas

theorem invertCell_eq_updateAll (canvas : Canvas) (x y : UInt8) :
    canvas.invertCell x y = canvas.updateAll (Cell.invertChanges x y) := by
  have hcolumn : ∀ (canvas : Canvas) (index : Nat) (mask : UInt16),
      (canvas.toggle index mask.toUInt8).toggle (index + width) (mask >>> 8).toUInt8 =
        canvas.updateAll ((List.finRange 2).map fun part : Fin 2 =>
          ⟨index + 128 * part, fun byte => byte ^^^ Cell.half mask part⟩) :=
    fun _ _ _ => rfl
  simp only [invertCell, hcolumn]
  rw [Cell.invertChanges, foldl_updateAll]

section

variable (canvas : Canvas) (code x y : UInt8)

/-- A byte of a cell, within the memory, has the flips of its half of its
column. -/
theorem byteAt_invertCell (column : Fin Glyph.columnCount) (part : Fin 2)
    (hend : Cell.index x y .normal column 0 part < 1025) :
    (canvas.invertCell x y).byteAt (Cell.index x y .normal column 0 part) =
      canvas.byteAt (Cell.index x y .normal column 0 part) ^^^
        Cell.half (Cell.flips column) part := by
  rw [invertCell_eq_updateAll]
  by_cases hgap : 0 < column.val
  · have hpos : 0 < Cell.index x y .normal column 0 part := by
      unfold Cell.index Cell.offset Cell.lead
      omega
    exact byteAt_updateAll_of_mem hpos hend canvas (Cell.pairwise_invertChanges x y)
      (Cell.mem_invertChanges.2 ⟨column, part, hgap, rfl⟩)
  · rw [Cell.half_flips_of_eq_zero (by omega), UInt8.xor_zero]
    refine byteAt_updateAll_of_ne hend ?_ canvas
    intro c hmem hindex
    obtain ⟨column', part', hgap', rfl⟩ := Cell.mem_invertChanges.1 hmem
    obtain ⟨rfl, -, -⟩ := Cell.index_inj (by decide) (by decide) hindex
    exact hgap hgap'

/-- A byte outside the cell stays as it was. -/
theorem byteAt_invertCell_of_ne {k : Nat} (hend : k < 1025)
    (h : ∀ column part, Cell.index x y .normal column 0 part ≠ k) :
    (canvas.invertCell x y).byteAt k = canvas.byteAt k := by
  rw [invertCell_eq_updateAll]
  refine byteAt_updateAll_of_ne hend ?_ canvas
  intro c hmem
  obtain ⟨column, part, -, rfl⟩ := Cell.mem_invertChanges.1 hmem
  exact h column part

/-- Inverting the cell of a character shows the character in the other
style. -/
theorem invertCell_drawChar (inverted : Bool) :
    (canvas.drawChar code x y ⟨inverted, false⟩).invertCell x y =
      canvas.drawChar code x y ⟨!inverted, false⟩ := by
  have hdrawn := keeps_drawChar canvas code x y ⟨inverted, false⟩
  have hinverted := keeps_invertCell (canvas.drawChar code x y ⟨inverted, false⟩) x y
  have hother := keeps_drawChar canvas code x y ⟨!inverted, false⟩
  refine ext_of_byteAt ?_ fun k hk => ?_
  · rw [hinverted.height, hdrawn.height, hother.height]
  · by_cases hcell : ∃ column part, Cell.index x y .normal column 0 part = k
    · obtain ⟨column, part, rfl⟩ := hcell
      have hbyte : ∀ style : Bool,
          (canvas.drawChar code x y ⟨style, false⟩).byteAt (Cell.index x y .normal column 0 part) =
            Cell.half (Cell.column code column style) part := fun style =>
        byteAt_drawChar canvas code x y ⟨style, false⟩ column part (Nat.zero_lt_one) hk
      rw [byteAt_invertCell _ x y column part hk, hbyte, hbyte, Cell.column_not, Cell.half_xor]
    · have hne : ∀ column copy part, copy < 1 → Cell.index x y .normal column copy part ≠ k := by
        intro column copy part hcopy hindex
        obtain rfl : copy = 0 := by omega
        exact hcell ⟨column, part, hindex⟩
      rw [byteAt_invertCell_of_ne _ x y hk fun column part => hne column 0 part Nat.zero_lt_one,
        byteAt_drawChar_of_ne canvas code x y ⟨inverted, false⟩ hk hne,
        byteAt_drawChar_of_ne canvas code x y ⟨!inverted, false⟩ hk hne]

/-- Inverting a cell twice restores the canvas. -/
theorem invertCell_invertCell : (canvas.invertCell x y).invertCell x y = canvas := by
  have honce := keeps_invertCell canvas x y
  have htwice := keeps_invertCell (canvas.invertCell x y) x y
  refine ext_of_byteAt (htwice.height.trans honce.height) fun k hk => ?_
  by_cases hcell : ∃ column part, Cell.index x y .normal column 0 part = k
  · obtain ⟨column, part, rfl⟩ := hcell
    rw [byteAt_invertCell _ x y column part hk, byteAt_invertCell canvas x y column part hk,
      UInt8.xor_assoc, UInt8.xor_self, UInt8.xor_zero]
  · have hne : ∀ column part, Cell.index x y .normal column 0 part ≠ k :=
      fun column part hindex => hcell ⟨column, part, hindex⟩
    rw [byteAt_invertCell_of_ne _ x y hk hne, byteAt_invertCell_of_ne canvas x y hk hne]

/-- At any position, on any picture: a character drawn as usual and then
inverted is the character drawn inverted, byte for byte, and the other way
round. Inverting twice restores the picture, whatever it was. -/
theorem invert_any_cell :
    let usual : TextStyle := .normal
    let inverse : TextStyle := { usual with inverted := true }
    (canvas.drawChar code x y usual).invertCell x y = canvas.drawChar code x y inverse ∧
      (canvas.drawChar code x y inverse).invertCell x y = canvas.drawChar code x y usual ∧
      (canvas.invertCell x y).invertCell x y = canvas :=
  ⟨invertCell_drawChar canvas code x y false, invertCell_drawChar canvas code x y true,
    invertCell_invertCell canvas x y⟩

end

end Canvas

end MeterPanel
