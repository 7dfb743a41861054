import MeterPanel.Proofs.CheckedDrawing

/-!
# The rows of a bar's stack

Bit `b` of page `k` is the pixel at height `8k + (7 - b)` above the foot of
the bar. In these heights a fill and a mark have one rule each, whether they
end inside a page or on its edge: a fill of `n` lights the heights below `n`,
a mark of `n` lights height `n - 1`.

An extent made by hand need not fit its bar into the room for a stack. Then
there is no stack, and in no other case: too many pages, a fill or a mark of
more than 48 pixels are all that can go wrong. A height that is not that of
the pages does no harm, pages above the extent are left out.

## Main results

* `testBit_of_fill?`, `testBit_of_mark?` — the rows of a fill and of a mark.
* `testBit_of_stack?` — the rows of a whole stack.
* `stack_of_any_extent` — when there is a stack, and what it shows.
-/

namespace MeterPanel.Bar

open BarExtent (maxPages)

/-- The height above the foot of the bar of bit `b` in page `page`. -/
def rise (page b : Nat) : Nat := 8 * page + (7 - b)

theorem getElem_of_changePage? {pages changed : Pages} {page : Nat} {change : UInt8 → UInt8}
    (h : changePage? pages page change = some changed) (k : Nat) (hk : k < maxPages) :
    changed[k] = if page = k then change pages[k] else pages[k] := by
  unfold changePage? at h
  split at h
  · rw [Option.some.injEq] at h
    subst h
    rw [Vector.getElem_set]
    split <;> simp_all
  · cases h

/-! ## The byte of a page that is not full -/

private theorem shift_amount {rest : Nat} (hpos : 0 < rest) :
    (UInt8.ofNat (8 - rest)).toNat % 8 = 8 - rest := by
  rw [UInt8.toNat_ofNat_of_lt' (by show 8 - rest < 256; omega), Nat.mod_eq_of_lt (by omega)]

private theorem testBit_full {b : Nat} (hb : b < 8) : (0xFF : UInt8).toNat.testBit b = true := by
  rw [show (0xFF : UInt8).toNat = 2 ^ 8 - 1 from rfl, Nat.testBit_two_pow_sub_one]
  simp [hb]

private theorem testBit_partial {rest b : Nat} (hpos : 0 < rest) (hb : b < 8) :
    ((0xFF : UInt8) <<< UInt8.ofNat (8 - rest)).toNat.testBit b = decide (7 - b < rest) := by
  rw [UInt8.toNat_shiftLeft, shift_amount hpos, Nat.testBit_mod_two_pow,
    Nat.testBit_shiftLeft]
  by_cases hin : 8 - rest ≤ b
  · rw [testBit_full (by omega)]
    simp [hb, hin]
    omega
  · simp [hin]
    omega

private theorem testBit_single {rest b : Nat} (hpos : 0 < rest) (hrest : rest < 8) (hb : b < 8) :
    ((1 : UInt8) <<< UInt8.ofNat (8 - rest)).toNat.testBit b = decide (7 - b + 1 = rest) := by
  rw [UInt8.toNat_shiftLeft, shift_amount hpos, Nat.testBit_mod_two_pow, UInt8.toNat_one,
    Nat.one_shiftLeft, Nat.testBit_two_pow]
  simp only [hb, decide_true, Bool.true_and, decide_eq_decide]
  omega

private theorem testBit_one (b : Nat) : (1 : UInt8).toNat.testBit b = decide (b = 0) := by
  rw [UInt8.toNat_one, show (1 : Nat) = 2 ^ 0 from rfl, Nat.testBit_two_pow]
  simp [eq_comm]

/-! ## Fill and mark -/

/-- A fill lights the heights below its number of pixels. -/
theorem testBit_of_fill? {pixels : Nat} {pages : Pages} (h : fill? pixels = some pages)
    {page b : Nat} (hpage : page < maxPages) (hb : b < 8) :
    pages[page].toNat.testBit b = decide (rise page b < pixels) := by
  have hwhole : (if page < pixels / 8 then (0xFF : UInt8) else 0).toNat.testBit b
      = decide (page < pixels / 8) := by
    split
    · rw [testBit_full hb]
      simp [*]
    · simp [*]
  unfold fill? at h
  dsimp only at h
  split at h
  · split at h
    · rename_i hrest
      rw [Option.some.injEq] at h
      subst h
      rw [Vector.getElem_ofFn]
      apply hwhole.trans
      unfold rise
      rw [decide_eq_decide]
      omega
    · rename_i hrest
      rw [getElem_of_changePage? h page hpage, Vector.getElem_ofFn]
      unfold rise
      -- the page that is partly filled, or one that is full or dark
      by_cases htop : pixels / 8 = page
      · rw [if_pos htop, testBit_partial (by omega) hb, decide_eq_decide]
        omega
      · rw [if_neg htop]
        apply hwhole.trans
        rw [decide_eq_decide]
        omega
  · cases h

/-- A mark of `n` pixels adds height `n - 1`. -/
theorem testBit_of_mark? {pixels : Nat} {pages marked : Pages}
    (h : mark? pages pixels = some marked) {page b : Nat} (hpage : page < maxPages)
    (hb : b < 8) :
    marked[page].toNat.testBit b =
      (pages[page].toNat.testBit b || decide (rise page b + 1 = pixels)) := by
  have hjoin : ∀ mask : UInt8, (pages[page] ||| mask).toNat.testBit b
      = (pages[page].toNat.testBit b || mask.toNat.testBit b) := by
    intro mask
    rw [UInt8.toNat_or, Nat.testBit_or]
  unfold mark? at h
  unfold rise
  split at h
  · rename_i hzero
    rw [Option.some.injEq] at h
    rw [← h, hzero]
    simp
  · split at h
    · rename_i hpos hwhole
      rw [getElem_of_changePage? h page hpage]
      by_cases htop : pixels / 8 - 1 = page
      · rw [if_pos htop, hjoin, testBit_one b]
        congr 1
        rw [decide_eq_decide]
        omega
      · have hother : ¬ 8 * page + (7 - b) + 1 = pixels := by omega
        simp [htop, hother]
    · rename_i hpos hpart
      rw [getElem_of_changePage? h page hpage]
      by_cases htop : pixels / 8 = page
      · rw [if_pos htop, hjoin, testBit_single (by omega) (by omega) hb]
        congr 1
        rw [decide_eq_decide]
        omega
      · have hother : ¬ 8 * page + (7 - b) + 1 = pixels := by omega
        simp [htop, hother]

/-! ## Stacks -/

/-- Whether a bar lights the pixel at a height above its foot: the level lies
above it, or it is the topmost pixel of the peak. -/
def lights (extent : BarExtent) (level : Binary32) (peak : Option Binary32) (height : Nat) :
    Bool :=
  decide (height < (extent.pixels level).toNat) ||
    peak.any fun p => decide (height + 1 = (extent.pixels p).toNat)

/-- How a stack comes about. -/
theorem stack?_eq_some {extent : BarExtent} {level : Binary32} {peak : Option Binary32}
    {stack : List UInt8} (h : stack? extent level peak = some stack) :
    ∃ filled marked, fill? (extent.pixels level).toNat = some filled ∧
      (match peak with
        | none => some filled
        | some p => mark? filled (extent.pixels p).toNat) = some marked ∧
      extent.pages.toNat ≤ maxPages ∧ stack = marked.toList.take extent.pages.toNat := by
  unfold stack? at h
  cases hfill : fill? (extent.pixels level).toNat with
  | none =>
      rw [hfill] at h
      cases h
  | some filled =>
      rw [hfill] at h
      cases hmark : (match peak with
          | none => some filled
          | some p => mark? filled (extent.pixels p).toNat) with
      | none => cases peak <;> simp_all
      | some marked =>
          by_cases hroom : extent.pages.toNat ≤ maxPages
          · cases peak <;> simp_all
          · cases peak <;> simp_all

theorem length_of_stack? {extent : BarExtent} {level : Binary32} {peak : Option Binary32}
    {stack : List UInt8} (h : stack? extent level peak = some stack) :
    stack.length = extent.pages.toNat := by
  obtain ⟨filled, marked, _, _, hroom, rfl⟩ := stack?_eq_some h
  rw [List.length_take, Vector.length_toList]
  omega

/-- The rows of a stack: what the level fills and what the peak marks. -/
theorem testBit_of_stack? {extent : BarExtent} {level : Binary32} {peak : Option Binary32}
    {stack : List UInt8} (h : stack? extent level peak = some stack)
    {page b : Nat} (hpage : page < stack.length) (hb : b < 8) :
    stack[page].toNat.testBit b = lights extent level peak (rise page b) := by
  have hlength := length_of_stack? h
  obtain ⟨filled, marked, hfill, hmark, hroom, rfl⟩ := stack?_eq_some h
  have hpage' : page < maxPages := by omega
  rw [List.getElem_take, Vector.getElem_toList, lights]
  cases peak with
  | none =>
      rw [Option.some.injEq] at hmark
      subst hmark
      rw [testBit_of_fill? hfill hpage' hb]
      simp
  | some p =>
      rw [testBit_of_mark? hmark hpage' hb, testBit_of_fill? hfill hpage' hb]
      simp

/-- A stack shows a level and a peak: it has a byte for each page of the
extent, and a pixel is lit when it lies below the level or is the topmost
pixel of the peak. -/
structure ShowsStack (extent : BarExtent) (level : Binary32) (peak : Option Binary32)
    (stack : List UInt8) : Prop where
  length : stack.length = extent.pages.toNat
  rows : ∀ page b, page < extent.pages.toNat → b < 8 →
    let v := 8 * page + (7 - b)
    ∃ byte, stack[page]? = some byte ∧
      (byte.toNat.testBit b = true ↔
        v < (extent.pixels level).toNat ∨ ∃ p ∈ peak, v + 1 = (extent.pixels p).toNat)

theorem showsStack_of_stack? {extent : BarExtent} {level : Binary32} {peak : Option Binary32}
    {stack : List UInt8} (h : stack? extent level peak = some stack) :
    ShowsStack extent level peak stack where
  length := length_of_stack? h
  rows := by
    intro page b hpage hb v
    have hroom : page < stack.length := by rwa [length_of_stack? h]
    refine ⟨stack[page], List.getElem?_eq_getElem hroom, ?_⟩
    rw [testBit_of_stack? h hroom hb, lights, Bool.or_eq_true, decide_eq_true_eq,
      Option.any_eq_true]
    simp only [decide_eq_true_eq, Option.mem_def]
    rfl

/-- A bar has a stack exactly when the pages, the level and the peak fit into
the room for it, whatever the extent; no other check can fail. The stack then
shows the level and the peak. On a panel of any height there always is
one. -/
theorem stack_of_any_extent (extent : BarExtent) (level : Binary32) (peak : Option Binary32) :
    Checked.stack? extent level peak = stack? extent level peak ∧
      ((stack? extent level peak).isSome ↔
        extent.pages.toNat ≤ 6 ∧ (extent.pixels level).toNat ≤ 48 ∧
          ∀ p ∈ peak, (extent.pixels p).toNat ≤ 48) ∧
      (∀ stack, stack? extent level peak = some stack → ShowsStack extent level peak stack) ∧
      ∀ panelHeight, (stack? (.ofPanelHeight panelHeight) level peak).isSome :=
  ⟨Checked.stack?_eq extent level peak, stack?_isSome_iff extent level peak,
    fun _ h => showsStack_of_stack? h,
    fun panelHeight => stack?_isSome_ofPanelHeight panelHeight level peak⟩

end MeterPanel.Bar
