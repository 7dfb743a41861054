import MeterPanel.Bar.Drawing
import MeterPanel.Proofs.BarStacks
import MeterPanel.Proofs.ByteChanges

/-!
# The picture of the bars

The bars are one list of stores, one for each bar, column and page. No two of
them go to the same byte, because the bars of one page all fit into it. So
every byte of a bar holds its page of its stack, and read from the top row
down the stack shows height `h - 1 - t` in row `t`.

## Main results

* `lit_drawBars` — the pixels of a bar.
* `lit_drawBars_of_not_inArea` — all other pixels stay.
-/

namespace MeterPanel

namespace Bar

/-- The page bytes of a bar on a panel of the given height. -/
def stack (panelHeight : UInt8) (level : Binary32) (peak : Option Binary32) : List UInt8 :=
  (stack? (.ofPanelHeight panelHeight) level peak).get
    (stack?_isSome_ofPanelHeight panelHeight level peak)

theorem stack?_eq (panelHeight : UInt8) (level : Binary32) (peak : Option Binary32) :
    stack? (.ofPanelHeight panelHeight) level peak = some (stack panelHeight level peak) :=
  (Option.some_get _).symm

theorem length_stack (panelHeight : UInt8) (level : Binary32) (peak : Option Binary32) :
    (stack panelHeight level peak).length
      = (BarExtent.ofPanelHeight panelHeight).pages.toNat :=
  length_of_stack? (stack?_eq panelHeight level peak)

/-- Byte index of a page of a bar in one of its columns. -/
def index (firstRow : UInt8) (extent : BarExtent) (bar column page : Nat) : Nat :=
  1 + (firstRow.toNat + (extent.pages.toNat - 1 - page)) * 128 + 2 + bar * 14 + column

/-- The pixels of bars of the given extent, from page `firstRow` down. -/
def InArea (firstRow : UInt8) (extent : BarExtent) (x y : Nat) : Prop :=
  ∃ (bar : Fin channelCount) (column : Fin width) (t : Nat), t < extent.height.toNat ∧
    x = 2 + 14 * bar + column ∧ y = 8 * firstRow.toNat + t

theorem offset?_of_lt {firstRow : UInt8} {extent : BarExtent} {page : Nat}
    (h : page < extent.pages.toNat) (bar column : Nat) :
    offset? firstRow extent bar column page
      = some (index firstRow extent bar column page) := by
  unfold offset?
  exact if_pos h

theorem index_inj {firstRow : UInt8} {extent : BarExtent} {bar bar' column column' page page' : Nat}
    (hbar : bar < 9) (hbar' : bar' < 9) (hcolumn : column < 12) (hcolumn' : column' < 12)
    (hpage : page < extent.pages.toNat) (hpage' : page' < extent.pages.toNat)
    (h : index firstRow extent bar column page = index firstRow extent bar' column' page') :
    bar = bar' ∧ column = column' ∧ page = page' := by
  unfold index at h
  have hrow : extent.pages.toNat - 1 - page = extent.pages.toNat - 1 - page' := by omega
  have hbar : bar = bar' := by omega
  exact ⟨hbar, by omega, by omega⟩

/-- The stores that draw one bar. -/
def stackStores (firstRow : UInt8) (extent : BarExtent) (bar : Nat) (stack : List UInt8) :
    List (Nat × UInt8) :=
  (List.range width).flatMap fun column =>
    stack.zipIdx.flatMap fun (byte, page) =>
      match offset? firstRow extent bar column page with
      | some index => [(index, byte)]
      | none => []

/-- The stores that draw all bars of a panel. -/
def allStores (panelHeight firstRow : UInt8) (levels : Levels) (peaks : Option Levels) :
    List (Nat × UInt8) :=
  (List.finRange channelCount).flatMap fun bar : Fin channelCount =>
    stackStores firstRow (.ofPanelHeight panelHeight) bar
      (stack panelHeight (levels.get bar) (peaks.map fun p => p.get bar))

theorem mem_stackStores {firstRow : UInt8} {extent : BarExtent} {bar : Nat} {stack : List UInt8}
    (hlength : stack.length = extent.pages.toNat) {store : Nat × UInt8} :
    store ∈ stackStores firstRow extent bar stack ↔
      ∃ column page, ∃ hpage : page < stack.length, column < width ∧
        (index firstRow extent bar column page, stack[page]) = store := by
  simp only [stackStores, List.mem_flatMap, List.mem_range]
  constructor
  · rintro ⟨column, hcolumn, ⟨byte, page⟩, hmem, hstore⟩
    obtain ⟨hpage, hbyte⟩ := List.mem_zipIdx' hmem
    rw [offset?_of_lt (hlength ▸ hpage)] at hstore
    exact ⟨column, page, hpage, hcolumn, by simpa [hbyte, eq_comm] using hstore⟩
  · rintro ⟨column, page, hpage, hcolumn, rfl⟩
    refine ⟨column, hcolumn, (stack[page], page), ?_, ?_⟩
    · rw [List.mk_mem_zipIdx_iff_getElem?]
      exact List.getElem?_eq_getElem hpage
    · dsimp only
      rw [offset?_of_lt (hlength ▸ hpage)]
      simp

end Bar

namespace Canvas

theorem putStack_eq_storeAll (canvas : Canvas) (firstRow : UInt8) (extent : BarExtent)
    (bar : Nat) (stack : List UInt8) :
    canvas.putStack firstRow extent bar stack =
      canvas.storeAll (Bar.stackStores firstRow extent bar stack) := by
  rw [Bar.stackStores, ← foldl_storeAll, putStack]
  congr 1
  funext canvas column
  rw [← foldl_storeAll]
  congr 1
  funext canvas ⟨byte, page⟩
  dsimp only
  cases Bar.offset? firstRow extent bar column page <;> rfl

theorem drawBar?_eq (canvas : Canvas) (panelHeight firstRow : UInt8) (levels : Bar.Levels)
    (peaks : Option Bar.Levels) (bar : Fin Bar.channelCount) :
    canvas.drawBar? firstRow (.ofPanelHeight panelHeight) levels peaks bar =
      some (canvas.storeAll (Bar.stackStores firstRow (.ofPanelHeight panelHeight) bar
        (Bar.stack panelHeight (levels.get bar) (peaks.map fun p => p.get bar)))) := by
  rw [drawBar?, Bar.stack?_eq, Option.map_some, putStack_eq_storeAll]

theorem drawBars?_eq_storeAll (canvas : Canvas) (firstRow : UInt8) (levels : Bar.Levels)
    (peaks : Option Bar.Levels) :
    canvas.drawBars? firstRow levels peaks =
      some (canvas.storeAll (Bar.allStores canvas.height firstRow levels peaks)) := by
  have hround : (fun (drawn : Canvas) bar =>
        drawn.drawBar? firstRow (.ofPanelHeight canvas.height) levels peaks bar) =
      fun drawn bar => pure (drawn.storeAll (Bar.stackStores firstRow
        (.ofPanelHeight canvas.height) bar
        (Bar.stack canvas.height (levels.get bar) (peaks.map fun p => p.get bar)))) :=
    funext fun drawn => funext fun bar => drawBar?_eq drawn _ firstRow levels peaks bar
  rw [drawBars?, hround, List.foldlM_pure, foldl_storeAll]
  rfl

theorem drawBars_eq_storeAll (canvas : Canvas) (firstRow : UInt8) (levels : Bar.Levels)
    (peaks : Option Bar.Levels) :
    canvas.drawBars firstRow levels peaks =
      canvas.storeAll (Bar.allStores canvas.height firstRow levels peaks) := by
  simp only [drawBars, drawBars?_eq_storeAll, Option.get_some]

theorem keeps_drawBars (canvas : Canvas) (firstRow : UInt8) (levels : Bar.Levels)
    (peaks : Option Bar.Levels) : Keeps canvas (canvas.drawBars firstRow levels peaks) := by
  rw [drawBars_eq_storeAll]
  exact keeps_updateAll _ canvas

end Canvas

namespace Bar

theorem mem_allStores {panelHeight firstRow : UInt8} {levels : Levels} {peaks : Option Levels}
    {store : Nat × UInt8} :
    store ∈ allStores panelHeight firstRow levels peaks ↔
      ∃ (bar : Fin channelCount) (column page : Nat),
        ∃ hpage : page < (stack panelHeight (levels.get bar) (peaks.map fun p => p.get bar)).length,
          column < width ∧
          (index firstRow (.ofPanelHeight panelHeight) bar column page,
            (stack panelHeight (levels.get bar) (peaks.map fun p => p.get bar))[page]) = store := by
  simp only [allStores, List.mem_flatMap, List.mem_finRange, true_and,
    mem_stackStores (length_stack panelHeight _ _)]

end Bar

namespace Canvas

variable (canvas : Canvas) (firstRow : UInt8) (levels : Bar.Levels) (peaks : Option Bar.Levels)

/-- A byte of a bar holds its page of the bar's stack, as long as it is
within the memory. -/
theorem byteAt_drawBars (bar : Fin Bar.channelCount) {column page : Nat}
    (hcolumn : column < Bar.width)
    (hpage : page
      < (Bar.stack canvas.height (levels.get bar) (peaks.map fun p => p.get bar)).length)
    (hend : Bar.index firstRow (.ofPanelHeight canvas.height) bar column page < 1025) :
    (canvas.drawBars firstRow levels peaks).byteAt
        (Bar.index firstRow (.ofPanelHeight canvas.height) bar column page) =
      (Bar.stack canvas.height (levels.get bar) (peaks.map fun p => p.get bar))[page] := by
  have hpos : 0 < Bar.index firstRow (.ofPanelHeight canvas.height) bar column page := by
    unfold Bar.index
    omega
  rw [drawBars_eq_storeAll]
  apply byteAt_storeAll hpos hend canvas
  · exact Bar.mem_allStores.2 ⟨bar, column, page, hpage, hcolumn, rfl⟩
  · intro store hmem hindex
    obtain ⟨bar', column', page', hpage', hcolumn', rfl⟩ := Bar.mem_allStores.1 hmem
    have hpages := Bar.length_stack canvas.height (levels.get bar) (peaks.map fun p => p.get bar)
    have hpages' := Bar.length_stack canvas.height levels[bar'] (peaks.map fun p => p[bar'])
    obtain ⟨hbar, rfl, rfl⟩ := Bar.index_inj bar'.isLt bar.isLt hcolumn' hcolumn
      (hpages' ▸ hpage') (hpages ▸ hpage) hindex
    obtain rfl := Fin.ext hbar
    rfl

/-- The pixels of a bar, row `t` from its top. -/
theorem lit_drawBars (bar : Fin Bar.channelCount) {column t : Nat} (hcolumn : column < Bar.width)
    (ht : t < (BarExtent.ofPanelHeight canvas.height).height.toNat)
    (hend : 8 * firstRow.toNat + t < 64) :
    (canvas.drawBars firstRow levels peaks).lit (2 + 14 * bar + column)
        (8 * firstRow.toNat + t) =
      Bar.lights (.ofPanelHeight canvas.height) (levels.get bar) (peaks.map fun p => p.get bar)
        ((BarExtent.ofPanelHeight canvas.height).height.toNat - 1 - t) := by
  have hheight := BarExtent.height_ofPanelHeight canvas.height
  have hlength := Bar.length_stack canvas.height (levels.get bar) (peaks.map fun p => p.get bar)
  have hbar : bar.val < 9 := bar.isLt
  have hcolumn' : column < 12 := hcolumn
  generalize hpages : (BarExtent.ofPanelHeight canvas.height).pages.toNat = pages at *
  have hpage : pages - 1 - t / 8
      < (Bar.stack canvas.height (levels.get bar) (peaks.map fun p => p.get bar)).length := by
    omega
  have hindex : Bar.index firstRow (.ofPanelHeight canvas.height) bar column (pages - 1 - t / 8)
      = 128 * ((8 * firstRow.toNat + t) / 8) + (2 + 14 * bar + column) + 1 := by
    unfold Bar.index
    omega
  have hbyte : (canvas.drawBars firstRow levels peaks).byteAt
      (128 * ((8 * firstRow.toNat + t) / 8) + (2 + 14 * bar + column) + 1) = _ :=
    hindex ▸ byteAt_drawBars canvas firstRow levels peaks bar hcolumn hpage (by omega)
  have hrise : Bar.rise (pages - 1 - t / 8) ((8 * firstRow.toNat + t) % 8) = 8 * pages - 1 - t := by
    unfold Bar.rise
    omega
  rw [lit, hbyte, hheight, ← hrise]
  exact Bar.testBit_of_stack? (Bar.stack?_eq canvas.height (levels.get bar) _) hpage (by omega)

/-- A pixel that lies in no bar stays as it was. -/
theorem lit_drawBars_of_not_inArea {x y : Nat} (hx : x < 128) (hy : y < 64)
    (h : ¬ Bar.InArea firstRow (.ofPanelHeight canvas.height) x y) :
    (canvas.drawBars firstRow levels peaks).lit x y = canvas.lit x y := by
  apply lit_congr
  rw [drawBars_eq_storeAll]
  refine byteAt_storeAll_of_ne (by omega) ?_ canvas
  intro store hmem hindex
  obtain ⟨bar, column, page, hpage, hcolumn, rfl⟩ := Bar.mem_allStores.1 hmem
  rw [Bar.length_stack] at hpage
  have hheight := BarExtent.height_ofPanelHeight canvas.height
  have hbar : bar.val < 9 := bar.isLt
  have hcolumn' : column < 12 := hcolumn
  have hsum : Bar.index firstRow (.ofPanelHeight canvas.height) bar column page
      = 128 * (y / 8) + x + 1 := hindex
  unfold Bar.index at hsum
  refine h ⟨bar, ⟨column, hcolumn⟩, y - 8 * firstRow.toNat, ?_, ?_, ?_⟩
  · omega
  · show x = 2 + 14 * bar + column
    omega
  · omega

end Canvas

end MeterPanel
