import MeterPanel.Proofs.ByteChanges
import MeterPanel.Proofs.GlyphColumns

/-!
# The picture of a character

A character is stored column by column, every column in two halves one page
apart and, when wide, twice side by side. All of these stores go to different
bytes, so each byte of the cell holds its half of its column, wherever the
cell lies; a store past the end of the memory is dropped.

On the grid of twenty columns and four rows a cell is a rectangle of 6 by 16
pixels that stays clear of the panel's edges, and the bytes become pixels.

## Main results

* `byteAt_drawChar` — a byte of the cell.
* `lit_drawChar` — the pixels after drawing a character on the grid.
* `drawChar_of_row_ge` — below the fourth row nothing is drawn.
-/

namespace MeterPanel

namespace TextStyle

/-- How often a column is shown, side by side. -/
def copies (style : TextStyle) : Nat := if style.wide then 2 else 1

end TextStyle

namespace Cell

/-- The upper (0) or lower (1) eight pixels of a column. -/
def half (bits : UInt16) (part : Fin 2) : UInt8 :=
  if part = 0 then bits.toUInt8 else (bits >>> 8).toUInt8

theorem testBit_half (bits : UInt16) (part : Fin 2) {b : Nat} (hb : b < 8) :
    (half bits part).toNat.testBit b = bits.toNat.testBit (8 * part + b) := by
  unfold half
  split
  · rename_i h
    subst h
    rw [UInt16.toNat_toUInt8, Nat.testBit_mod_two_pow]
    simp [hb]
  · rename_i h
    have hpart : part.val = 1 := by omega
    rw [UInt16.toNat_toUInt8, Nat.testBit_mod_two_pow, UInt16.toNat_shiftRight,
      Nat.testBit_shiftRight, hpart]
    simp [hb]

/-- Byte index of a half of a column, in one of its copies. -/
def index (x y : UInt8) (style : TextStyle) (column : Fin Glyph.columnCount) (copy : Nat)
    (part : Fin 2) : Nat :=
  offset x y style + style.copies * column + copy + 128 * part

/-- The stores that draw a column: its halves, once for each copy. -/
def columnStores (code x y : UInt8) (style : TextStyle) (column : Fin Glyph.columnCount) :
    List (Nat × UInt8) :=
  (List.range style.copies).flatMap fun copy =>
    (List.finRange 2).map fun part =>
      (index x y style column copy part, half (Cell.column code column style.inverted) part)

/-- The stores that draw a character. -/
def charStores (code x y : UInt8) (style : TextStyle) : List (Nat × UInt8) :=
  (List.finRange Glyph.columnCount).flatMap (columnStores code x y style)

theorem mem_charStores {code x y : UInt8} {style : TextStyle} {store : Nat × UInt8} :
    store ∈ charStores code x y style ↔
      ∃ column copy part, copy < style.copies ∧
        (index x y style column copy part,
          half (Cell.column code column style.inverted) part) = store := by
  simp only [charStores, columnStores, List.mem_flatMap, List.mem_finRange, true_and,
    List.mem_range, List.mem_map]
  constructor
  · rintro ⟨column, copy, hcopy, part, hstore⟩
    exact ⟨column, copy, part, hcopy, hstore⟩
  · rintro ⟨column, copy, part, hcopy, hstore⟩
    exact ⟨column, copy, hcopy, part, hstore⟩

/-- Different halves, copies and columns lie in different bytes. -/
theorem index_inj {x y : UInt8} {style : TextStyle} {column column' : Fin Glyph.columnCount}
    {copy copy' : Nat} {part part' : Fin 2} (hcopy : copy < style.copies)
    (hcopy' : copy' < style.copies)
    (h : index x y style column copy part = index x y style column' copy' part') :
    column = column' ∧ copy = copy' ∧ part = part' := by
  have hcolumn : column.val < 6 := column.isLt
  have hcolumn' : column'.val < 6 := column'.isLt
  unfold index TextStyle.copies at *
  split at h <;> simp_all <;> omega

/-- The glyph column that a pixel column of the grid belongs to. -/
def columnAt (x : Nat) : Fin Glyph.columnCount := ⟨(x - 4) % 6, Nat.mod_lt _ (by decide)⟩

end Cell

namespace Canvas

theorem putColumn_eq_storeAll (canvas : Canvas) (index : Nat) (bits : UInt16) :
    canvas.putColumn index bits =
      canvas.storeAll ((List.finRange 2).map fun part : Fin 2 =>
        (index + 128 * part.val, Cell.half bits part)) := rfl

theorem drawChar_eq_storeAll (canvas : Canvas) (code x y : UInt8) (style : TextStyle) :
    canvas.drawChar code x y style = canvas.storeAll (Cell.charStores code x y style) := by
  rw [Cell.charStores, ← foldl_storeAll, drawChar, Fin.foldl_eq_finRange_foldl]
  congr 1
  funext canvas column
  rw [Cell.columnStores, ← foldl_storeAll]
  simp only [putColumn_eq_storeAll, Cell.index, TextStyle.copies]
  cases style.wide <;> simp [List.range_succ]

/-- A byte of a cell holds its half of its column, as long as it is within
the memory. -/
theorem byteAt_drawChar (canvas : Canvas) (code x y : UInt8) (style : TextStyle)
    (column : Fin Glyph.columnCount) {copy : Nat} (part : Fin 2) (hcopy : copy < style.copies)
    (hend : Cell.index x y style column copy part < 1025) :
    (canvas.drawChar code x y style).byteAt (Cell.index x y style column copy part) =
      Cell.half (Cell.column code column style.inverted) part := by
  have hpos : 0 < Cell.index x y style column copy part := by
    unfold Cell.index Cell.offset Cell.lead
    omega
  rw [drawChar_eq_storeAll]
  apply byteAt_storeAll hpos hend canvas
  · exact Cell.mem_charStores.2 ⟨column, copy, part, hcopy, rfl⟩
  · intro store hmem hindex
    obtain ⟨column', copy', part', hcopy', rfl⟩ := Cell.mem_charStores.1 hmem
    obtain ⟨rfl, rfl, rfl⟩ := Cell.index_inj hcopy' hcopy hindex
    rfl

/-- A byte outside the cell stays as it was. -/
theorem byteAt_drawChar_of_ne (canvas : Canvas) (code x y : UInt8) (style : TextStyle) {k : Nat}
    (hend : k < 1025)
    (h : ∀ column copy part, copy < style.copies → Cell.index x y style column copy part ≠ k) :
    (canvas.drawChar code x y style).byteAt k = canvas.byteAt k := by
  rw [drawChar_eq_storeAll]
  refine byteAt_storeAll_of_ne hend ?_ canvas
  intro store hmem
  obtain ⟨column, copy, part, hcopy, rfl⟩ := Cell.mem_charStores.1 hmem
  exact h column copy part hcopy

theorem keeps_drawChar (canvas : Canvas) (code x y : UInt8) (style : TextStyle) :
    Keeps canvas (canvas.drawChar code x y style) := by
  rw [drawChar_eq_storeAll]
  exact keeps_updateAll _ canvas

/-! ## Characters on the grid -/

/-- The pixels of a normal character on the grid: its cell shows the
character, all other pixels stay. -/
theorem lit_drawChar (canvas : Canvas) (code c row : UInt8) (hc : c.toNat < 20)
    (hrow : row.toNat < 4) {x y : Nat} (hx : x < 128) (hy : y < 64) :
    (canvas.drawChar code c row .normal).lit x y =
      if y / 16 = row.toNat ∧ 4 + 6 * c.toNat ≤ x ∧ x < 10 + 6 * c.toNat then
        Cell.shows code false (Cell.columnAt x) (y % 16)
      else
        canvas.lit x y := by
  have hoffset : Cell.offset c row .normal = 256 * row.toNat + 6 * c.toNat + 5 := by
    show row.toNat * (2 * 128) + c.toNat * 6 + 5 = _
    omega
  by_cases hcell : y / 16 = row.toNat ∧ 4 + 6 * c.toNat ≤ x ∧ x < 10 + 6 * c.toNat
  · rw [if_pos hcell]
    obtain ⟨hy16, hleft, hright⟩ := hcell
    have hcolumn : (Cell.columnAt x).val = x - 4 - 6 * c.toNat := by
      show (x - 4) % 6 = _
      omega
    have hpart : (Fin.ofNat 2 (y / 8)).val = y / 8 - 2 * row.toNat := by
      show y / 8 % 2 = _
      omega
    have hindex : Cell.index c row .normal (Cell.columnAt x) 0 (Fin.ofNat 2 (y / 8))
        = 128 * (y / 8) + x + 1 := by
      unfold Cell.index
      rw [hoffset, hcolumn, hpart]
      show _ + 1 * _ + 0 + _ = _
      omega
    have hbyte := byteAt_drawChar canvas code c row .normal (Cell.columnAt x)
      (Fin.ofNat 2 (y / 8)) (show 0 < TextStyle.copies .normal by decide) (by omega)
    rw [hindex] at hbyte
    rw [lit, hbyte, Cell.testBit_half _ _ (by omega),
      show 8 * (Fin.ofNat 2 (y / 8)).val + y % 8 = y % 16 by omega]
    exact Cell.testBit_column code false _ (by omega)
  · rw [if_neg hcell]
    refine lit_congr (byteAt_drawChar_of_ne canvas code c row .normal (by omega) ?_)
    intro column copy part hcopy hindex
    have hcopy' : copy < 1 := hcopy
    have hcolumn : column.val < 6 := column.isLt
    have hsum : Cell.offset c row .normal + 1 * column.val + copy + 128 * part.val
        = 128 * (y / 8) + x + 1 := hindex
    omega

/-- Below the fourth row nothing is drawn. -/
theorem drawChar_of_row_ge (canvas : Canvas) (code x y : UInt8) (style : TextStyle)
    (hy : 4 ≤ y.toNat) : canvas.drawChar code x y style = canvas := by
  apply ext_of_byteAt (keeps_drawChar canvas code x y style).height
  intro k hk
  apply byteAt_drawChar_of_ne canvas code x y style hk
  intro column copy part _ hindex
  unfold Cell.index Cell.offset Cell.lead Canvas.width at hindex
  omega

end Canvas

end MeterPanel
