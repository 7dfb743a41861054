import MeterPanel.Canvas.Basic

/-!
# Runs of byte changes

Everything that is drawn comes down to a list of changes, each of one byte.
A byte after the list depends only on the changes that carry its own index,
taken in their order. Two cases are enough for drawing: a byte that no change
meets stays as it was, and a byte that is only stored into, always with the
same value, holds that value.

`lit` reads the memory as a picture of 128 by 64 pixels in plain coordinates.

## Main results

* `byteAt_updateAll` — a byte after a list of changes.
* `byteAt_updateAll_of_mem` — a byte that one change alone meets.
* `byteAt_storeAll` — a byte after a list of stores that agree on it.
* `keeps_updateAll` — no change reaches the height or the control byte.
* `pixel_eq_lit` — a pixel is read at its wrapped coordinates.
* `byteAt_eq_of_lit` — the pixels of a byte determine it.
* `ext_of_byteAt`, `ext_of_lit` — height and bytes determine a canvas, and so
  do height, control byte and pixels.
-/

namespace MeterPanel

/-- Eight bits determine a byte. -/
theorem byte_eq_of_testBit {a b : UInt8}
    (h : ∀ bit < 8, a.toNat.testBit bit = b.toNat.testBit bit) : a = b := by
  refine UInt8.toNat_inj.1 (Nat.eq_of_testBit_eq fun bit => ?_)
  by_cases hbit : bit < 8
  · exact h bit hbit
  · have hhigh : ∀ byte : UInt8, byte.toNat.testBit bit = false := fun byte =>
      Nat.testBit_lt_two_pow (Nat.lt_of_lt_of_le byte.toNat_lt
        (Nat.pow_le_pow_right (by decide) (by omega)))
    rw [hhigh, hhigh]

/-- A change of the byte at an index. -/
structure ByteChange where
  index : Nat
  change : UInt8 → UInt8

namespace Canvas

/-! ## Single bytes -/

/-- The byte at an index, and zero behind the end. -/
def byteAt (canvas : Canvas) (k : Nat) : UInt8 := (canvas.byte? k).getD 0

theorem byteAt_eq_getElem (canvas : Canvas) {k : Nat} (h : k < 1025) :
    canvas.byteAt k = canvas.bytes[k] := by
  simp [byteAt, byte?, h]

theorem byte?_eq_byteAt (canvas : Canvas) {k : Nat} (h : k < 1025) :
    canvas.byte? k = some (canvas.byteAt k) := by
  rw [byteAt_eq_getElem canvas h]
  exact Vector.getElem?_eq_getElem h

theorem byteAt_update (canvas : Canvas) (index : Nat) (change : UInt8 → UInt8) {k : Nat}
    (hpos : 0 < k) (hend : k < 1025) :
    (canvas.update index change).byteAt k =
      if index = k then change (canvas.byteAt k) else canvas.byteAt k := by
  have hbyte : canvas.byte? k = some canvas.bytes[k] := by simp [byte?, hend]
  unfold byteAt
  rw [byte?_update]
  by_cases h : index = k
  · simp [h, hpos, hbyte]
  · simp [h]

/-- Height and bytes determine a canvas. -/
theorem ext_of_byteAt {a b : Canvas} (hheight : a.height = b.height)
    (hbytes : ∀ k, k < 1025 → a.byteAt k = b.byteAt k) : a = b := by
  have hvector : a.bytes = b.bytes := by
    refine Vector.ext fun k hk => ?_
    have h := hbytes k hk
    rwa [byteAt_eq_getElem _ hk, byteAt_eq_getElem _ hk] at h
  cases a
  cases b
  simp_all

/-! ## What drawing keeps -/

/-- The canvas `after` has the height and the control byte of `before`. -/
structure Keeps (before after : Canvas) : Prop where
  height : after.height = before.height
  controlByte : after.byteAt 0 = before.byteAt 0

theorem Keeps.refl (canvas : Canvas) : Keeps canvas canvas := ⟨rfl, rfl⟩

theorem Keeps.trans {a b c : Canvas} (hab : Keeps a b) (hbc : Keeps b c) : Keeps a c :=
  ⟨hbc.height.trans hab.height, hbc.controlByte.trans hab.controlByte⟩

theorem keeps_update (canvas : Canvas) (index : Nat) (change : UInt8 → UInt8) :
    Keeps canvas (canvas.update index change) := by
  refine ⟨height_update canvas index change, ?_⟩
  unfold byteAt
  rw [byte?_update, if_neg (by omega)]

theorem keeps_foldl {α : Type} (step : Canvas → α → Canvas)
    (hstep : ∀ canvas round, Keeps canvas (step canvas round)) (rounds : List α) :
    ∀ canvas : Canvas, Keeps canvas (rounds.foldl step canvas) := by
  induction rounds with
  | nil => intro canvas; exact .refl canvas
  | cons round rounds ih =>
      intro canvas
      exact (hstep canvas round).trans (ih _)

/-! ## Lists of changes -/

/-- Carries out changes one after the other. -/
def updateAll (canvas : Canvas) (changes : List ByteChange) : Canvas :=
  changes.foldl (fun canvas c => canvas.update c.index c.change) canvas

/-- Stores bytes, each at its index, one after the other. -/
def storeAll (canvas : Canvas) (stores : List (Nat × UInt8)) : Canvas :=
  canvas.updateAll (stores.map fun store => ⟨store.1, fun _ => store.2⟩)

theorem updateAll_cons (canvas : Canvas) (c : ByteChange) (changes : List ByteChange) :
    canvas.updateAll (c :: changes) = (canvas.update c.index c.change).updateAll changes := rfl

theorem storeAll_cons (canvas : Canvas) (index : Nat) (byte : UInt8)
    (stores : List (Nat × UInt8)) :
    canvas.storeAll ((index, byte) :: stores) = (canvas.put index byte).storeAll stores := rfl

/-- A loop that carries out a list of changes in each round carries out all of
them. -/
theorem foldl_updateAll {α : Type} (changes : α → List ByteChange) (rounds : List α)
    (canvas : Canvas) :
    rounds.foldl (fun canvas round => canvas.updateAll (changes round)) canvas =
      canvas.updateAll (rounds.flatMap changes) :=
  List.foldl_flatMap.symm

/-- A loop that stores a list of bytes in each round stores all of them. -/
theorem foldl_storeAll {α : Type} (stores : α → List (Nat × UInt8)) (rounds : List α)
    (canvas : Canvas) :
    rounds.foldl (fun canvas round => canvas.storeAll (stores round)) canvas =
      canvas.storeAll (rounds.flatMap stores) := by
  unfold storeAll
  rw [foldl_updateAll, List.map_flatMap]

theorem keeps_updateAll (changes : List ByteChange) (canvas : Canvas) :
    Keeps canvas (canvas.updateAll changes) :=
  keeps_foldl (fun canvas (c : ByteChange) => canvas.update c.index c.change)
    (fun canvas c => keeps_update canvas c.index c.change) changes canvas

/-- A byte after a list of changes: what the changes that carry its index
make of it. -/
theorem byteAt_updateAll (changes : List ByteChange) {k : Nat} (hpos : 0 < k) (hend : k < 1025) :
    ∀ canvas : Canvas,
      (canvas.updateAll changes).byteAt k =
        (changes.filter fun c => c.index = k).foldl (fun byte c => c.change byte)
          (canvas.byteAt k) := by
  induction changes with
  | nil => intro canvas; rfl
  | cons c changes ih =>
      intro canvas
      rw [updateAll_cons, ih, byteAt_update _ _ _ hpos hend]
      by_cases h : c.index = k <;> simp [h]

theorem byteAt_updateAll_of_ne {changes : List ByteChange} {k : Nat} (hend : k < 1025)
    (h : ∀ c ∈ changes, c.index ≠ k) (canvas : Canvas) :
    (canvas.updateAll changes).byteAt k = canvas.byteAt k := by
  rcases Nat.eq_zero_or_pos k with rfl | hpos
  · exact (keeps_updateAll changes canvas).controlByte
  · have hnone : (changes.filter fun c => c.index = k) = [] := by
      simpa [List.filter_eq_nil_iff] using h
    rw [byteAt_updateAll changes hpos hend, hnone, List.foldl_nil]

/-- A byte that is met by one change alone is changed by it. -/
theorem byteAt_updateAll_of_mem {changes : List ByteChange} {c : ByteChange} (hpos : 0 < c.index)
    (hend : c.index < 1025) :
    ∀ canvas : Canvas, changes.Pairwise (fun c d => c.index ≠ d.index) → c ∈ changes →
      (canvas.updateAll changes).byteAt c.index = c.change (canvas.byteAt c.index) := by
  induction changes with
  | nil => intro canvas _ hmem; cases hmem
  | cons d changes ih =>
      intro canvas hapart hmem
      obtain ⟨hfirst, hrest⟩ := List.pairwise_cons.1 hapart
      rw [updateAll_cons]
      rcases List.mem_cons.1 hmem with rfl | hlater
      · rw [byteAt_updateAll_of_ne hend fun e he => (hfirst e he).symm,
          byteAt_update _ _ _ hpos hend, if_pos rfl]
      · rw [ih _ hrest hlater, byteAt_update _ _ _ hpos hend, if_neg (hfirst c hlater)]

theorem byteAt_storeAll_of_ne {stores : List (Nat × UInt8)} {k : Nat} (hend : k < 1025)
    (h : ∀ store ∈ stores, store.1 ≠ k) (canvas : Canvas) :
    (canvas.storeAll stores).byteAt k = canvas.byteAt k := by
  refine byteAt_updateAll_of_ne hend ?_ canvas
  intro c hc
  obtain ⟨store, hstore, rfl⟩ := List.mem_map.1 hc
  exact h store hstore

/-- A byte that some store meets, all of them with one value, holds that
value. -/
theorem byteAt_storeAll {stores : List (Nat × UInt8)} {k : Nat} {byte : UInt8}
    (hpos : 0 < k) (hend : k < 1025) :
    ∀ canvas : Canvas, (k, byte) ∈ stores → (∀ store ∈ stores, store.1 = k → store.2 = byte) →
      (canvas.storeAll stores).byteAt k = byte := by
  induction stores with
  | nil => intro canvas hmem; cases hmem
  | cons store stores ih =>
      intro canvas hmem hagree
      have hrest : ∀ s ∈ stores, s.1 = k → s.2 = byte :=
        fun s hs => hagree s (List.mem_cons_of_mem _ hs)
      rw [show store = (store.1, store.2) from rfl, storeAll_cons]
      -- a later store decides; without one it is the first that meets the byte
      by_cases hlater : ∃ s ∈ stores, s.1 = k
      · obtain ⟨s, hs, hindex⟩ := hlater
        refine ih _ ?_ hrest
        rw [← hindex, ← hrest s hs hindex]
        exact hs
      · have hne : ∀ s ∈ stores, s.1 ≠ k := fun s hs hindex => hlater ⟨s, hs, hindex⟩
        have hfirst : store = (k, byte) := by
          rcases List.mem_cons.1 hmem with h | h
          · exact h.symm
          · exact absurd rfl (hne _ h)
        rw [byteAt_storeAll_of_ne hend hne, put, byteAt_update _ _ _ hpos hend, hfirst]
        simp

/-! ## The picture -/

/-- Whether the pixel in column `x` and row `y` is on, for coordinates on the
panel. -/
def lit (canvas : Canvas) (x y : Nat) : Bool :=
  (canvas.byteAt (128 * (y / 8) + x + 1)).toNat.testBit (y % 8)

/-- A pixel is read at its wrapped coordinates. -/
theorem pixel_eq_lit (canvas : Canvas) (x y : UInt8) :
    canvas.pixel x y = canvas.lit (x.toNat % 128) (y.toNat % 64) := by
  have hindex : 128 * (y.toNat % 64 / 8) + x.toNat % 128 + 1 = pixelIndex x y := by
    unfold pixelIndex
    omega
  have hbit : y.toNat % 64 % 8 = y.toNat % 8 := by omega
  rw [lit, hindex, hbit, byteAt_eq_getElem _ (pixelIndex_lt x y)]
  rfl

theorem pixel_ofNat (canvas : Canvas) {x y : Nat} (hx : x < 128) (hy : y < 64) :
    canvas.pixel (UInt8.ofNat x) (UInt8.ofNat y) = canvas.lit x y := by
  rw [pixel_eq_lit, UInt8.toNat_ofNat_of_lt' (by show x < 256; omega),
    UInt8.toNat_ofNat_of_lt' (by show y < 256; omega), Nat.mod_eq_of_lt hx, Nat.mod_eq_of_lt hy]

theorem lit_congr {a b : Canvas} {x y : Nat}
    (h : a.byteAt (128 * (y / 8) + x + 1) = b.byteAt (128 * (y / 8) + x + 1)) :
    a.lit x y = b.lit x y := by
  unfold lit
  rw [h]

/-- A byte of the picture shows eight pixels, and they determine it. -/
theorem byteAt_eq_of_lit {a b : Canvas} {k : Nat} (hpos : 0 < k)
    (hlit : ∀ bit < 8, a.lit ((k - 1) % 128) (8 * ((k - 1) / 128) + bit) =
      b.lit ((k - 1) % 128) (8 * ((k - 1) / 128) + bit)) : a.byteAt k = b.byteAt k := by
  refine byte_eq_of_testBit fun bit hbit => ?_
  have hpixel := hlit bit hbit
  unfold lit at hpixel
  rwa [show 128 * ((8 * ((k - 1) / 128) + bit) / 8) + (k - 1) % 128 + 1 = k by omega,
    show (8 * ((k - 1) / 128) + bit) % 8 = bit by omega] at hpixel

/-- Height, control byte and pixels determine a canvas. -/
theorem ext_of_lit {a b : Canvas} (hkeeps : Keeps a b)
    (hlit : ∀ x y, x < 128 → y < 64 → a.lit x y = b.lit x y) : a = b := by
  refine ext_of_byteAt hkeeps.height.symm fun k hk => ?_
  rcases Nat.eq_zero_or_pos k with rfl | hpos
  · exact hkeeps.controlByte.symm
  · exact byteAt_eq_of_lit hpos fun bit hbit => hlit _ _ (by omega) (by omega)

end Canvas

end MeterPanel
