import MeterPanel.Drawing

/-!
# Drawing with checked arithmetic

The definitions of drawing count with numbers of any size and drop what falls
outside the memory. Here every step is done once more the way a machine does
it: sums and products have to fit into words of 32 bits, or of 8 bits where
they are bytes, differences must not be negative, shifts must be smaller than
the width, and tables and memory are read at an index that has to be there.
A single pixel is changed without any clipping, even in the control byte.

No check ever fails, and the result is what the unchecked definitions give.

## Main results

* `drawChar?_eq`, `invertCell?_eq`, `drawBars?_eq` — the single operations.
* `draw?_eq` — one step of drawing.
* `frame?_eq` — what is sent.
-/

namespace MeterPanel.Checked

/-! ## Machine arithmetic -/

/-- A number as a word. -/
def word? (n : Nat) : Option Nat := if n < 2 ^ 32 then some n else none

/-- A number as a byte. -/
def byte? (n : Nat) : Option UInt8 := if n < 256 then some (UInt8.ofNat n) else none

/-- A difference that is not negative. -/
def minus? (a b : Nat) : Option Nat := if b ≤ a then some (a - b) else none

/-- An amount by which a value of so many bits can be shifted. -/
def shift? (width amount : Nat) : Option Nat := if amount < width then some amount else none

variable {α : Type}

theorem bind_of_eq {β : Type} {value? : Option β} {value : β} (h : value? = some value)
    (f : β → Option α) : (value? >>= f) = f value := by
  rw [h]
  rfl

theorem word?_bind {n : Nat} (h : n < 2 ^ 32) (f : Nat → Option α) : (word? n >>= f) = f n :=
  bind_of_eq (if_pos h) f

theorem byte?_bind {n : Nat} (h : n < 256) (f : UInt8 → Option α) :
    (byte? n >>= f) = f (UInt8.ofNat n) :=
  bind_of_eq (if_pos h) f

theorem minus?_bind {a b : Nat} (h : b ≤ a) (f : Nat → Option α) :
    (minus? a b >>= f) = f (a - b) :=
  bind_of_eq (if_pos h) f

theorem shift?_bind {width amount : Nat} (h : amount < width) (f : Nat → Option α) :
    (shift? width amount >>= f) = f amount :=
  bind_of_eq (if_pos h) f

/-- A loop whose rounds all succeed. -/
theorem foldlM_eq {β : Type} {step : α → β → Option α} {next : α → β → α} (rounds : List β) :
    ∀ a : α, (∀ b ∈ rounds, ∀ a, step a b = some (next a b)) →
      rounds.foldlM step a = some (rounds.foldl next a) := by
  induction rounds with
  | nil => intro a _; rfl
  | cons b rounds ih =>
      intro a h
      rw [List.foldlM_cons, h b List.mem_cons_self a]
      exact ih (next a b) fun b hb => h b (List.mem_cons_of_mem _ hb)

/-! ## Pixels -/

/-- Byte index and bit of a pixel, taken apart by masks. -/
def locate? (x y : UInt8) : Option (Nat × UInt8) := do
  let column := x &&& 0x7F
  let row := y &&& 0x3F
  let page ← word? ((row &&& 0xF8).toNat <<< 4)
  let before ← word? (page + column.toNat)
  let index ← word? (before + 1)
  let amount ← shift? 8 (row &&& 7).toNat
  return (index, 1 <<< UInt8.ofNat amount)

private theorem mask_column (n : Nat) : n &&& 0x7F = n % 128 := Nat.and_two_pow_sub_one_eq_mod n 7

private theorem mask_page : ∀ n < 256, ((n &&& 0x3F) &&& 0xF8) <<< 4 = n % 64 / 8 * 128 := by
  decide +kernel

private theorem mask_row : ∀ n < 256, (n &&& 0x3F) &&& 7 = n % 8 := by
  decide +kernel

theorem locate?_eq (x y : UInt8) :
    locate? x y = some (Canvas.pixelIndex x y, Canvas.pixelMask y) := by
  have hcolumn : (x &&& 0x7F).toNat = x.toNat % 128 := by
    rw [UInt8.toNat_and]
    exact mask_column x.toNat
  have hpage : ((y &&& 0x3F) &&& 0xF8).toNat <<< 4 = y.toNat % 64 / 8 * 128 := by
    rw [UInt8.toNat_and, UInt8.toNat_and]
    exact mask_page y.toNat y.toNat_lt
  have hrow : ((y &&& 0x3F) &&& 7).toNat = (y % 8).toNat := by
    rw [UInt8.toNat_and, UInt8.toNat_and, UInt8.toNat_mod]
    exact mask_row y.toNat y.toNat_lt
  have hbit : (y % 8).toNat < 8 := by
    rw [UInt8.toNat_mod]
    exact Nat.mod_lt _ (by decide)
  dsimp only [locate?]
  rw [hpage, hcolumn, hrow, word?_bind (by omega), word?_bind (by omega), word?_bind (by omega),
    shift?_bind hbit, UInt8.ofNat_toNat]
  rfl

/-- Changes the byte at an index, which has to be there. Nothing protects the
control byte. -/
def change? (canvas : Canvas) (index : Nat) (change : UInt8 → UInt8) : Option Canvas :=
  if h : index < 1025 then
    some { canvas with bytes := canvas.bytes.set index (change canvas.bytes[index]) h }
  else
    none

theorem change?_eq (canvas : Canvas) {index : Nat} (hpos : 0 < index) (hend : index < 1025)
    (change : UInt8 → UInt8) :
    change? canvas index change = some (canvas.update index change) := by
  rw [change?, dif_pos hend, Canvas.update, dif_pos ⟨hpos, hend⟩]

def setPixel? (canvas : Canvas) (x y : UInt8) : Option Canvas := do
  let (index, mask) ← locate? x y
  change? canvas index fun byte => byte ||| mask

def clearPixel? (canvas : Canvas) (x y : UInt8) : Option Canvas := do
  let (index, mask) ← locate? x y
  change? canvas index fun byte => byte &&& ~~~mask

theorem setPixel?_eq (canvas : Canvas) (x y : UInt8) :
    setPixel? canvas x y = some (canvas.setPixel x y) := by
  rw [setPixel?, bind_of_eq (locate?_eq x y)]
  exact change?_eq canvas (Canvas.pixelIndex_pos x y) (Canvas.pixelIndex_lt x y) _

theorem clearPixel?_eq (canvas : Canvas) (x y : UInt8) :
    clearPixel? canvas x y = some (canvas.clearPixel x y) := by
  rw [clearPixel?, bind_of_eq (locate?_eq x y)]
  exact change?_eq canvas (Canvas.pixelIndex_pos x y) (Canvas.pixelIndex_lt x y) _

/-! ## Cells -/

/-- Place of a character code in the font. -/
def glyphIndex? (code : UInt8) : Option Nat :=
  if Font.firstCode ≤ code ∧ code ≤ Font.placeholder then
    minus? code.toNat Font.firstCode.toNat
  else if code = 0xFF then
    minus? Font.placeholder.toNat Font.firstCode.toNat
  else
    some 0

/-- One column of a character's cell, looked up by number. -/
def column? (code : UInt8) (number : Nat) (inverted : Bool) : Option UInt16 := do
  let glyph ← glyphIndex? code
  let columns ← Font.tallColumns[glyph]?
  let bits ← columns[number]?
  let shown := if inverted ∧ 0 < number then bits ^^^ Cell.invertMask else bits
  return shown <<< Cell.drop

/-- Byte index of the upper half of a cell's first column. -/
def cellOffset? (x y : UInt8) (style : TextStyle) : Option Nat := do
  let page ← word? (y.toNat * Canvas.width)
  let row ← word? (page * 2)
  let left ← word? (x.toNat * style.cellWidth)
  let column ← word? (left + Cell.lead)
  word? (row + column)

/-- Stores both halves of a column. -/
def putColumn? (canvas : Canvas) (index : Nat) (bits : UInt16) : Option Canvas := do
  let below ← word? (index + Canvas.width)
  return (canvas.put index bits.toUInt8).put below (bits >>> 8).toUInt8

def drawChar? (canvas : Canvas) (code x y : UInt8) (style : TextStyle) : Option Canvas := do
  let base ← cellOffset? x y style
  (List.finRange Glyph.columnCount).foldlM (fun canvas number => do
    let bits ← column? code number.val style.inverted
    if style.wide then
      let along ← word? (number.val * 2)
      let index ← word? (base + along)
      let next ← word? (index + 1)
      putColumn? (← putColumn? canvas index bits) next bits
    else
      let index ← word? (base + number.val)
      putColumn? canvas index bits) canvas

def invertCell? (canvas : Canvas) (x y : UInt8) : Option Canvas := do
  let mask := Cell.invertMask <<< Cell.drop
  let base ← cellOffset? x y .normal
  (List.range' 1 (Glyph.columnCount - 1)).foldlM (fun canvas number => do
    let index ← word? (base + number)
    let below ← word? (index + Canvas.width)
    return (canvas.toggle index mask.toUInt8).toggle below (mask >>> 8).toUInt8) canvas

theorem glyphIndex?_eq (code : UInt8) : glyphIndex? code = some (Font.index code).val := by
  unfold glyphIndex? Font.index
  by_cases hfont : Font.firstCode ≤ code ∧ code ≤ Font.placeholder
  · rw [if_pos hfont, dif_pos hfont, minus?, if_pos (UInt8.le_iff_toNat_le.1 hfont.1)]
  · rw [if_neg hfont, dif_neg hfont]
    by_cases hblock : code = 0xFF
    · rw [if_pos hblock, if_pos hblock]
      rfl
    · rw [if_neg hblock, if_neg hblock]

theorem column?_eq (code : UInt8) (number : Fin Glyph.columnCount) (inverted : Bool) :
    column? code number.val inverted = some (Cell.column code number inverted) := by
  unfold column?
  rw [bind_of_eq (glyphIndex?_eq code),
    bind_of_eq (Vector.getElem?_eq_getElem (Font.index code).isLt),
    bind_of_eq (Vector.getElem?_eq_getElem number.isLt)]
  rfl

theorem cellOffset_le (x y : UInt8) (style : TextStyle) : Cell.offset x y style < 70000 := by
  have hx := x.toNat_lt
  have hy := y.toNat_lt
  unfold Cell.offset TextStyle.cellWidth Canvas.width Glyph.columnCount Cell.lead
  cases style.wide <;> simp <;> omega

theorem cellOffset?_eq (x y : UInt8) (style : TextStyle) :
    cellOffset? x y style = some (Cell.offset x y style) := by
  have hoffset := cellOffset_le x y style
  unfold Cell.offset at hoffset ⊢
  have hpage : y.toNat * Canvas.width * 2 = y.toNat * (2 * Canvas.width) := by
    rw [Nat.mul_assoc, Nat.mul_comm 2]
  unfold cellOffset?
  rw [word?_bind (by omega), word?_bind (by omega), word?_bind (by omega), word?_bind (by omega),
    hpage, word?, if_pos (by omega), Nat.add_assoc]

theorem putColumn?_eq (canvas : Canvas) {index : Nat} (h : index < 80000) (bits : UInt16) :
    putColumn? canvas index bits = some (canvas.putColumn index bits) := by
  unfold putColumn? Canvas.width
  rw [word?_bind (by omega)]
  rfl

theorem drawChar?_eq (canvas : Canvas) (code x y : UInt8) (style : TextStyle) :
    drawChar? canvas code x y style = some (canvas.drawChar code x y style) := by
  have hoffset := cellOffset_le x y style
  unfold drawChar?
  rw [bind_of_eq (cellOffset?_eq x y style), Canvas.drawChar, Fin.foldl_eq_finRange_foldl]
  apply foldlM_eq
  intro number _ canvas
  have hnumber : number.val < 6 := number.isLt
  rw [bind_of_eq (column?_eq code number style.inverted)]
  by_cases hwide : style.wide = true
  · rw [if_pos hwide, if_pos hwide, word?_bind (by omega), word?_bind (by omega),
      word?_bind (by omega), putColumn?_eq canvas (by omega), Nat.mul_comm number.val]
    exact putColumn?_eq _ (by omega) _
  · rw [if_neg hwide, if_neg hwide, word?_bind (by omega)]
    exact putColumn?_eq canvas (by omega) _

theorem invertCell?_eq (canvas : Canvas) (x y : UInt8) :
    invertCell? canvas x y = some (canvas.invertCell x y) := by
  have hoffset := cellOffset_le x y .normal
  unfold invertCell? Canvas.invertCell
  dsimp only
  rw [bind_of_eq (cellOffset?_eq x y .normal)]
  apply foldlM_eq
  intro number hmem canvas
  have hnumber : number < 6 := by
    have := (List.mem_range'_1.1 hmem).2
    unfold Glyph.columnCount at this
    omega
  unfold Canvas.width
  rw [word?_bind (by omega), word?_bind (by omega)]
  rfl

/-! ## Bars -/

/-- The bars of a panel, their height a byte. A panel that is too low has bars
without pages. -/
def extent? (panelHeight : UInt8) : Option BarExtent := do
  let pages := min (panelHeight.toNat / Canvas.pageHeight - BarExtent.reservedPages)
    BarExtent.maxPages
  let height ← byte? (pages * Canvas.pageHeight)
  return ⟨UInt8.ofNat pages, height⟩

/-- A number of pixels that leaves a part of a page has that part shifted into
place. -/
def place? (pixels : Nat) : Option Unit :=
  if pixels % 8 = 0 then
    some ()
  else do
    let amount ← minus? 8 (pixels % 8)
    let _ ← shift? 8 amount
    return ()

/-- The page bytes of a bar. -/
def stack? (extent : BarExtent) (level : Binary32) (peak : Option Binary32) :
    Option (List UInt8) := do
  place? (extent.pixels level).toNat
  place? ((peak.map extent.pixels).getD 0).toNat
  Bar.stack? extent level peak

/-- Byte index of a page of a bar, if the bar has such a page. -/
def barOffset? (firstRow : UInt8) (extent : BarExtent) (bar column page : Nat) :
    Option (Option Nat) :=
  match minus? extent.pages.toNat 1 >>= fun top => minus? top page with
  | none => some none
  | some fromTop => do
      let row ← word? (firstRow.toNat * Canvas.width)
      let lead ← word? (row + Bar.margin)
      let down ← word? (fromTop * Canvas.width)
      let top ← word? (lead + down)
      let left ← word? (bar * (Bar.width + Bar.spacing))
      let corner ← word? (top + left)
      let before ← word? (corner + column)
      let index ← word? (before + 1)
      return some index

def putStack? (canvas : Canvas) (firstRow : UInt8) (extent : BarExtent) (bar : Nat)
    (stack : List UInt8) : Option Canvas :=
  (List.range Bar.width).foldlM (fun canvas column =>
    stack.zipIdx.foldlM (fun canvas (byte, page) => do
      match ← barOffset? firstRow extent bar column page with
      | some index => return canvas.put index byte
      | none => return canvas) canvas) canvas

/-- The peak of a bar, looked up by number if peaks are given. -/
def peak? (peaks : Option Bar.Levels) (bar : Nat) : Option (Option Binary32) :=
  match peaks with
  | none => some none
  | some peaks => peaks[bar]?.map some

def drawBars? (canvas : Canvas) (firstRow : UInt8) (levels : Bar.Levels)
    (peaks : Option Bar.Levels) : Option Canvas := do
  let extent ← extent? canvas.height
  (List.finRange Bar.channelCount).foldlM (fun drawn (bar : Fin Bar.channelCount) => do
    let peak ← peak? peaks bar.val
    let stack ← stack? extent (levels.get bar) peak
    putStack? drawn firstRow extent bar.val stack) canvas

theorem extent?_eq (panelHeight : UInt8) :
    extent? panelHeight = some (.ofPanelHeight panelHeight) := by
  unfold extent? BarExtent.ofPanelHeight Canvas.pageHeight BarExtent.reservedPages
    BarExtent.maxPages
  dsimp only
  rw [byte?_bind (by omega)]
  rfl

theorem place?_eq (pixels : Nat) : place? pixels = some () := by
  unfold place?
  by_cases hrest : pixels % 8 = 0
  · rw [if_pos hrest]
  · rw [if_neg hrest, minus?_bind (by omega), shift?_bind (by omega)]
    rfl

theorem stack?_eq (extent : BarExtent) (level : Binary32) (peak : Option Binary32) :
    stack? extent level peak = Bar.stack? extent level peak := by
  unfold stack?
  rw [bind_of_eq (place?_eq _), bind_of_eq (place?_eq _)]

theorem barOffset?_eq (firstRow : UInt8) (extent : BarExtent) {bar column : Nat}
    (hbar : bar < 9) (hcolumn : column < 12) (page : Nat) :
    barOffset? firstRow extent bar column page =
      some (Bar.offset? firstRow extent bar column page) := by
  have hrow := firstRow.toNat_lt
  have hpages := extent.pages.toNat_lt
  unfold barOffset? Bar.offset? Canvas.width Bar.margin Bar.width Bar.spacing
  by_cases hpage : page < extent.pages.toNat
  · have htop : (minus? extent.pages.toNat 1 >>= fun top => minus? top page) =
        some (extent.pages.toNat - 1 - page) := by
      rw [minus?_bind (by omega)]
      exact if_pos (by omega)
    dsimp only
    rw [htop, if_pos hpage]
    dsimp only
    rw [word?_bind (by omega), word?_bind (by omega), word?_bind (by omega),
      word?_bind (by omega), word?_bind (by omega), word?_bind (by omega),
      word?_bind (by omega), word?_bind (by omega)]
    refine congrArg (fun index => some (some index)) ?_
    omega
  · have htop : (minus? extent.pages.toNat 1 >>= fun top => minus? top page) = none := by
      by_cases hzero : 1 ≤ extent.pages.toNat
      · rw [minus?_bind hzero]
        exact if_neg (by omega)
      · rw [minus?, if_neg hzero]
        rfl
    dsimp only
    rw [htop, if_neg hpage]

theorem putStack?_eq (canvas : Canvas) (firstRow : UInt8) (extent : BarExtent) {bar : Nat}
    (hbar : bar < 9) (stack : List UInt8) :
    putStack? canvas firstRow extent bar stack =
      some (canvas.putStack firstRow extent bar stack) := by
  unfold putStack? Canvas.putStack
  apply foldlM_eq
  intro column hcolumn canvas
  apply foldlM_eq
  intro ⟨byte, page⟩ _ canvas
  dsimp only
  rw [bind_of_eq (barOffset?_eq firstRow extent hbar (List.mem_range.1 hcolumn) page)]
  cases Bar.offset? firstRow extent bar column page <;> rfl

theorem peak?_eq (peaks : Option Bar.Levels) (bar : Fin Bar.channelCount) :
    peak? peaks bar.val = some (peaks.map fun p => p.get bar) := by
  cases peaks with
  | none => rfl
  | some peaks =>
      show peaks[bar.val]?.map some = _
      rw [Vector.getElem?_eq_getElem bar.isLt]
      rfl

theorem drawBars?_eq (canvas : Canvas) (firstRow : UInt8) (levels : Bar.Levels)
    (peaks : Option Bar.Levels) :
    drawBars? canvas firstRow levels peaks = canvas.drawBars? firstRow levels peaks := by
  unfold drawBars? Canvas.drawBars?
  rw [bind_of_eq (extent?_eq canvas.height)]
  congr 1
  funext drawn bar
  rw [bind_of_eq (peak?_eq peaks bar), stack?_eq]
  unfold Canvas.drawBar?
  cases Bar.stack? (.ofPanelHeight canvas.height) (levels.get bar)
      (peaks.map fun p => p.get bar) with
  | none => rfl
  | some stack => exact putStack?_eq drawn firstRow _ bar.isLt stack

/-! ## Steps and frames -/

/-- The canvas after one step. -/
def draw? (canvas : Canvas) : Drawing → Option Canvas
  | .setPixel x y => setPixel? canvas x y
  | .clearPixel x y => clearPixel? canvas x y
  | .clear => some canvas.clear
  | .char code x y style => drawChar? canvas code x y style
  | .invertCell x y => invertCell? canvas x y
  | .bars firstRow levels peaks => drawBars? canvas firstRow levels peaks

/-- The canvas after all steps. -/
def drawAll? (canvas : Canvas) (steps : List Drawing) : Option Canvas :=
  steps.foldlM draw? canvas

/-- One picture as it is sent, a slice that has to lie within the memory. -/
def frame? (canvas : Canvas) : Option (List UInt8) := do
  let area ← word? (Canvas.width * canvas.height.toNat)
  let stop ← word? (1 + min (area / Canvas.pageHeight) (Canvas.size - 1))
  if stop ≤ canvas.bytes.toList.length then
    return canvas.bytes.toList.take stop
  else
    none

/-- No step fails a check. -/
theorem draw?_eq (canvas : Canvas) (step : Drawing) : draw? canvas step = canvas.draw? step := by
  cases step with
  | setPixel x y => exact setPixel?_eq canvas x y
  | clearPixel x y => exact clearPixel?_eq canvas x y
  | clear => rfl
  | char code x y style => exact drawChar?_eq canvas code x y style
  | invertCell x y => exact invertCell?_eq canvas x y
  | bars firstRow levels peaks => exact drawBars?_eq canvas firstRow levels peaks

theorem drawAll?_eq (canvas : Canvas) (steps : List Drawing) :
    drawAll? canvas steps = canvas.drawAll? steps := by
  have hdraw : draw? = Canvas.draw? := funext fun canvas => funext (draw?_eq canvas)
  rw [drawAll?, Canvas.drawAll?, hdraw]

theorem frame?_eq (canvas : Canvas) : frame? canvas = some canvas.frame := by
  have hheight := canvas.height.toNat_lt
  have hstop : 1 + min (Canvas.width * canvas.height.toNat / Canvas.pageHeight)
      (Canvas.size - 1) ≤ canvas.bytes.toList.length := by
    rw [Vector.length_toList]
    unfold Canvas.size Canvas.width Canvas.maxHeight Canvas.pageHeight
    omega
  unfold frame?
  rw [word?_bind (by unfold Canvas.width; omega),
    word?_bind (by rw [Vector.length_toList] at hstop; omega), if_pos hstop]
  rfl

end MeterPanel.Checked
