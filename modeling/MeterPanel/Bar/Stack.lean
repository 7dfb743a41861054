import MeterPanel.Bar.Extent

/-!
# The pages of one bar

A bar is built as a stack of page bytes, the lowest page first. Bit 0 of a
page is its topmost row, so the part of a page that a level only half fills
takes the high bits. A peak lights one row more: the topmost of as many rows
as the peak has pixels.

There is room for six pages. An extent made by hand may ask for more, and
then there is no stack.

## Main results

* `fill?_isSome_iff`, `mark?_isSome_iff` — both steps succeed up to 48 pixels
  and not beyond.
* `stack?_isSome_iff` — when a bar has a stack.
* `stack?_isSome_ofPanelHeight` — the bars of a panel always have one.
-/

namespace MeterPanel.Bar

open BarExtent (maxPages)

/-- Room for the pages of one bar, the lowest first. -/
abbrev Pages := Vector UInt8 maxPages

/-- Changes one page, if there is room for it. -/
def changePage? (pages : Pages) (page : Nat) (change : UInt8 → UInt8) : Option Pages :=
  if h : page < maxPages then some (pages.set page (change pages[page])) else none

/-- Lights the given number of rows from the bottom. -/
def fill? (pixels : Nat) : Option Pages :=
  let full := pixels / 8
  let rest := pixels % 8
  if full ≤ maxPages then
    let pages : Pages := Vector.ofFn fun page => if page.val < full then 0xFF else 0
    if rest = 0 then
      some pages
    else
      changePage? pages full fun _ => 0xFF <<< UInt8.ofNat (8 - rest)
  else
    none

/-- Lights the row at the top of the given number of rows. A whole number of
pages has that row at the top of its last page. -/
def mark? (pages : Pages) (pixels : Nat) : Option Pages :=
  if pixels = 0 then
    some pages
  else if pixels % 8 = 0 then
    changePage? pages (pixels / 8 - 1) fun byte => byte ||| 1
  else
    changePage? pages (pixels / 8) fun byte => byte ||| 1 <<< UInt8.ofNat (8 - pixels % 8)

/-- The page bytes of a bar, the lowest page first, with a mark for the peak
if one is given. -/
def stack? (extent : BarExtent) (level : Binary32) (peak : Option Binary32) :
    Option (List UInt8) := do
  let filled ← fill? (extent.pixels level).toNat
  let marked ← match peak with
    | none => some filled
    | some peak => mark? filled (extent.pixels peak).toNat
  if extent.pages.toNat ≤ maxPages then
    some (marked.toList.take extent.pages.toNat)
  else
    none

/-! ## When there is a stack -/

theorem changePage?_isSome_iff (pages : Pages) (page : Nat) (change : UInt8 → UInt8) :
    (changePage? pages page change).isSome ↔ page < maxPages := by
  unfold changePage?
  split <;> simp [*]

/-- Six pages hold 48 rows. -/
theorem fill?_isSome_iff (pixels : Nat) : (fill? pixels).isSome ↔ pixels ≤ 48 := by
  unfold fill?
  dsimp only
  split
  · split
    · simp only [Option.isSome_some, true_iff]
      simp only [maxPages] at *
      omega
    · rw [changePage?_isSome_iff]
      simp only [maxPages] at *
      omega
  · simp only [Option.isSome_none, Bool.false_eq_true, false_iff]
    simp only [maxPages] at *
    omega

/-- A mark fits where 48 rows fit. -/
theorem mark?_isSome_iff (pages : Pages) (pixels : Nat) :
    (mark? pages pixels).isSome ↔ pixels ≤ 48 := by
  unfold mark?
  split
  · simp only [Option.isSome_some, true_iff]
    omega
  · split
    · rw [changePage?_isSome_iff]
      simp only [maxPages]
      omega
    · rw [changePage?_isSome_iff]
      simp only [maxPages]
      omega

/-- A bar has a stack exactly when its pages, its level and its peak all fit
into six pages. -/
theorem stack?_isSome_iff (extent : BarExtent) (level : Binary32)
    (peak : Option Binary32) :
    (stack? extent level peak).isSome ↔
      extent.pages.toNat ≤ maxPages ∧ (extent.pixels level).toNat ≤ 48 ∧
        ∀ p ∈ peak, (extent.pixels p).toNat ≤ 48 := by
  unfold stack?
  rw [← fill?_isSome_iff]
  cases hfill : fill? (extent.pixels level).toNat with
  | none => simp
  | some filled =>
      cases peak with
      | none =>
          by_cases hpages : extent.pages.toNat ≤ maxPages <;> simp [hpages]
      | some peak =>
          have hmark := mark?_isSome_iff filled (extent.pixels peak).toNat
          cases hmarked : mark? filled (extent.pixels peak).toNat with
          | none =>
              rw [hmarked] at hmark
              simp at hmark
              simp [hmarked, hmark]
          | some marked =>
              rw [hmarked] at hmark
              simp at hmark
              by_cases hpages : extent.pages.toNat ≤ maxPages <;>
                simp [hmarked, hmark, hpages]

/-- On a panel of any height every bar has a stack. -/
theorem stack?_isSome_ofPanelHeight (panelHeight : UInt8) (level : Binary32)
    (peak : Option Binary32) :
    (stack? (.ofPanelHeight panelHeight) level peak).isSome := by
  have hpages := BarExtent.pages_ofPanelHeight_le panelHeight
  have hheight := BarExtent.height_ofPanelHeight panelHeight
  have hpixels : ∀ l, ((BarExtent.ofPanelHeight panelHeight).pixels l).toNat ≤ 48 := by
    intro l
    have hle := UInt8.le_iff_toNat_le.1
      (BarExtent.pixels_le (BarExtent.ofPanelHeight panelHeight) l)
    simp only [maxPages] at hpages
    omega
  exact (stack?_isSome_iff _ level peak).2
    ⟨hpages, hpixels level, fun p _ => hpixels p⟩

end MeterPanel.Bar
