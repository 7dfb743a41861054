import MeterPanel.Proofs.FrameSafety

/-!
# The memory as a store of pixels

Setting, clearing and reading single pixels treats the packed bytes as a store
of 128 by 64 bits. A coordinate is any pair of bytes; columns wrap at 128 and
rows at 64, so several coordinates name one pixel. Each pixel has a bit of its
own, and each bit of the eight pages is a pixel.

So a pixel remembers the last step that concerned it, whatever was done to
others in the meantime, and the pixels tell the whole memory but for the
control byte, the rows below a low panel included.

## Main results

* `shares_bit_iff` — different pixels have different bits.
* `pixel_update` — changing one bit changes one pixel.
* `pixel_draw?` — what one step does to every pixel.
* `remembers_drawAll?` — what any list of steps does.
* `data_eq_iff` — the pixels determine the bytes.
* `pixel_store` — all of it, on any canvas.
-/

namespace MeterPanel

/-! ## Steps -/

/-- Coordinates that name one pixel. -/
def SamePixel (x y x' y' : UInt8) : Prop :=
  x.toNat % 128 = x'.toNat % 128 ∧ y.toNat % 64 = y'.toNat % 64

instance (x y x' y' : UInt8) : Decidable (SamePixel x y x' y') :=
  inferInstanceAs (Decidable (_ ∧ _))

/-- One step that draws single pixels, or clears all of them. -/
inductive PixelStep where
  | set (x y : UInt8)
  | unset (x y : UInt8)
  | clear

namespace PixelStep

/-- The step as a step of drawing. -/
def drawing : PixelStep → Drawing
  | .set x y => .setPixel x y
  | .unset x y => .clearPixel x y
  | .clear => .clear

/-- The value that a step gives to a pixel, if it concerns the pixel. -/
def value? (x y : UInt8) : PixelStep → Option Bool
  | .set x' y' => if SamePixel x' y' x y then some true else none
  | .unset x' y' => if SamePixel x' y' x y then some false else none
  | .clear => some false

end PixelStep

namespace Canvas

/-! ## Places of pixels -/

theorem pixel_eq_testBit (canvas : Canvas) (x y : UInt8) :
    canvas.pixel x y = (canvas.byteAt (pixelIndex x y)).toNat.testBit (y.toNat % 8) := by
  rw [byteAt_eq_getElem _ (pixelIndex_lt x y)]
  rfl

/-- A pixel is named by its byte and its bit. -/
theorem samePixel_iff (x y x' y' : UInt8) :
    SamePixel x y x' y' ↔
      pixelIndex x y = pixelIndex x' y' ∧ y.toNat % 8 = y'.toNat % 8 := by
  unfold SamePixel pixelIndex
  omega

theorem testBit_pixelMask (y : UInt8) {b : Nat} (hb : b < 8) :
    (pixelMask y).toNat.testBit b = decide (y.toNat % 8 = b) := by
  have hmask : (pixelMask y).toNat = 2 ^ (y.toNat % 8) % 2 ^ 8 := by
    rw [pixelMask, UInt8.toNat_shiftLeft, UInt8.toNat_mod]
    show 1 <<< (y.toNat % 8 % 8) % 2 ^ 8 = _
    rw [Nat.mod_mod, Nat.one_shiftLeft]
  rw [hmask, Nat.testBit_mod_two_pow, Nat.testBit_two_pow, decide_eq_true hb, Bool.true_and]

theorem testBit_not_pixelMask (y : UInt8) {b : Nat} (hb : b < 8) :
    (~~~pixelMask y).toNat.testBit b = !decide (y.toNat % 8 = b) := by
  have hnot : (~~~pixelMask y).toNat = 2 ^ 8 - ((pixelMask y).toNat + 1) := by
    rw [UInt8.toNat_not]
    show 2 ^ 8 - 1 - _ = _
    omega
  rw [hnot, Nat.testBit_two_pow_sub_succ (pixelMask y).toNat_lt, testBit_pixelMask y hb,
    decide_eq_true hb, Bool.true_and]

/-- The mask of a pixel meets a byte in the pixel's bit or not at all. -/
theorem and_pixelMask_ne_zero (byte y : UInt8) :
    byte &&& pixelMask y ≠ 0 ↔ byte.toNat.testBit (y.toNat % 8) = true := by
  have hbit : y.toNat % 8 < 8 := Nat.mod_lt _ (by decide)
  constructor
  · intro hmeets
    refine Decidable.byContradiction fun hdark => hmeets (byte_eq_of_testBit fun b hb => ?_)
    rw [UInt8.toNat_and, Nat.testBit_and, testBit_pixelMask y hb]
    by_cases hsame : y.toNat % 8 = b
    · subst hsame
      simp [hdark]
    · simp [hsame]
  · intro hlit hzero
    have hshared : (byte &&& pixelMask y).toNat.testBit (y.toNat % 8) = true := by
      rw [UInt8.toNat_and, Nat.testBit_and, hlit, testBit_pixelMask y hbit, Bool.true_and,
        decide_eq_true_eq]
    rw [hzero] at hshared
    simp at hshared

/-- A pixel is read by its mask. -/
theorem pixel_eq_masked (canvas : Canvas) (x y : UInt8) :
    canvas.pixel x y = decide (canvas.byteAt (pixelIndex x y) &&& pixelMask y ≠ 0) := by
  rw [Bool.eq_iff_iff, decide_eq_true_eq, and_pixelMask_ne_zero, pixel_eq_testBit]

/-- Two coordinates share a bit only where they name one pixel. -/
theorem shares_bit_iff (x y x' y' : UInt8) :
    (pixelIndex x y = pixelIndex x' y' ∧ pixelMask y &&& pixelMask y' ≠ 0) ↔
      SamePixel x y x' y' := by
  rw [samePixel_iff, and_pixelMask_ne_zero, testBit_pixelMask y (Nat.mod_lt _ (by decide)),
    decide_eq_true_eq]

/-! ## One step -/

/-- A change of one bit of one byte changes one pixel. -/
theorem pixel_update (canvas : Canvas) (x y : UInt8) (value : Bool) {change : UInt8 → UInt8}
    (hchange : ∀ byte b, b < 8 → (change byte).toNat.testBit b =
      if y.toNat % 8 = b then value else byte.toNat.testBit b) (x' y' : UInt8) :
    (canvas.update (pixelIndex x y) change).pixel x' y' =
      if SamePixel x y x' y' then value else canvas.pixel x' y' := by
  have hbit : y'.toNat % 8 < 8 := Nat.mod_lt _ (by decide)
  rw [pixel_eq_testBit, pixel_eq_testBit,
    byteAt_update _ _ _ (pixelIndex_pos x' y') (pixelIndex_lt x' y')]
  by_cases hindex : pixelIndex x y = pixelIndex x' y'
  · rw [if_pos hindex, hchange _ _ hbit]
    simp [samePixel_iff, hindex]
  · simp [samePixel_iff, hindex]

theorem pixel_clear (canvas : Canvas) (x y : UInt8) : canvas.clear.pixel x y = false := by
  have hpos := pixelIndex_pos x y
  rw [pixel_eq_testBit, byteAt_eq_getElem _ (pixelIndex_lt x y)]
  unfold clear
  rw [Vector.getElem_mapFinIdx, if_neg (by omega)]
  exact Nat.zero_testBit _

/-- One step gives a pixel the value it has for it, if it has one. -/
theorem pixel_draw? (canvas : Canvas) (step : PixelStep) :
    ∃ after, canvas.draw? step.drawing = some after ∧ Keeps canvas after ∧
      ∀ x y, after.pixel x y = (step.value? x y).getD (canvas.pixel x y) := by
  obtain ⟨after, hafter, hkeeps⟩ := keeps_draw? canvas step.drawing
  refine ⟨after, hafter, hkeeps, fun x' y' => ?_⟩
  cases step with
  | set x y =>
      obtain rfl : canvas.setPixel x y = after := Option.some.inj hafter
      rw [setPixel, pixel_update canvas x y true, PixelStep.value?]
      · split <;> rfl
      · intro byte b hb
        rw [UInt8.toNat_or, Nat.testBit_or, testBit_pixelMask y hb]
        split <;> simp [*]
  | unset x y =>
      obtain rfl : canvas.clearPixel x y = after := Option.some.inj hafter
      rw [clearPixel, pixel_update canvas x y false, PixelStep.value?]
      · split <;> rfl
      · intro byte b hb
        rw [UInt8.toNat_and, Nat.testBit_and, testBit_not_pixelMask y hb]
        split <;> simp [*]
  | clear =>
      obtain rfl : canvas.clear = after := Option.some.inj hafter
      exact pixel_clear canvas x' y'

/-! ## Many steps -/

/-- The canvas `after` remembers the steps: a pixel has the value of the last
step that concerned it, and the value from before where none did. -/
structure Remembers (steps : List PixelStep) (before after : Canvas) : Prop
    extends Keeps before after where
  given : ∀ (x y : UInt8) (earlier later : List PixelStep) (step : PixelStep) (value : Bool),
    steps = earlier ++ step :: later → step.value? x y = some value →
      (∀ other ∈ later, other.value? x y = none) → after.pixel x y = value
  untouched : ∀ x y : UInt8, (∀ step ∈ steps, step.value? x y = none) →
    after.pixel x y = before.pixel x y

theorem Remembers.nil (canvas : Canvas) : Remembers [] canvas canvas where
  toKeeps := .refl canvas
  given := by simp
  untouched := by simp

/-- The first step decides only where no later one does. -/
theorem Remembers.cons {step : PixelStep} {steps : List PixelStep} {before next after : Canvas}
    (hkeeps : Keeps before next)
    (hstep : ∀ x y, next.pixel x y = (step.value? x y).getD (before.pixel x y))
    (hrest : Remembers steps next after) : Remembers (step :: steps) before after where
  toKeeps := hkeeps.trans hrest.toKeeps
  given := by
    intro x y earlier later decider value hsplit hvalue hlater
    cases earlier with
    | nil =>
        obtain ⟨rfl, rfl⟩ := List.cons.inj hsplit
        rw [hrest.untouched x y hlater, hstep, hvalue]
        rfl
    | cons first earlier =>
        exact hrest.given x y earlier later decider value (List.cons.inj hsplit).2 hvalue hlater
  untouched := by
    intro x y hnone
    obtain ⟨hfirst, hothers⟩ := List.forall_mem_cons.1 hnone
    rw [hrest.untouched x y hothers, hstep, hfirst]
    rfl

theorem remembers_drawAll? (steps : List PixelStep) :
    ∀ canvas : Canvas, ∃ after,
      canvas.drawAll? (steps.map PixelStep.drawing) = some after ∧
        Remembers steps canvas after := by
  induction steps with
  | nil => intro canvas; exact ⟨canvas, rfl, .nil canvas⟩
  | cons step steps ih =>
      intro canvas
      obtain ⟨next, hnext, hkeeps, hstep⟩ := pixel_draw? canvas step
      obtain ⟨after, hafter, hrest⟩ := ih next
      refine ⟨after, ?_, .cons hkeeps hstep hrest⟩
      rw [drawAll?, List.map_cons, List.foldlM_cons, hnext]
      exact hafter

/-! ## All pixels and all bytes -/

theorem data_eq_map (canvas : Canvas) :
    canvas.data = (List.range 1024).map fun k => canvas.byteAt (k + 1) := by
  refine List.ext_getElem ?_ fun k hdata hrange => ?_
  · rw [data, List.length_drop, Vector.length_toList, List.length_map, List.length_range]
  · have hk : 1 + k < 1025 := by
      rw [data, List.length_drop, Vector.length_toList] at hdata
      omega
    rw [List.getElem_map, List.getElem_range, byteAt_eq_getElem _ (by omega)]
    simp only [data, List.getElem_drop, Vector.getElem_toList, Nat.add_comm 1 k]

/-- The pixels determine the picture bytes, shown or not. -/
theorem data_eq_iff (a b : Canvas) :
    a.data = b.data ↔ ∀ x y, a.pixel x y = b.pixel x y := by
  rw [data_eq_map, data_eq_map, List.map_inj_left]
  constructor
  · intro hbytes x y
    have hpos := pixelIndex_pos x y
    have hlt := pixelIndex_lt x y
    have hbyte := hbytes (pixelIndex x y - 1) (List.mem_range.2 (by omega))
    rw [Nat.sub_add_cancel hpos] at hbyte
    rw [pixel_eq_testBit, pixel_eq_testBit, hbyte]
  · intro hpixels k hk
    have hk := List.mem_range.1 hk
    refine byteAt_eq_of_lit (Nat.succ_pos k) fun bit hbit => ?_
    rw [← pixel_ofNat a (by omega) (by omega), ← pixel_ofNat b (by omega) (by omega)]
    exact hpixels _ _

/-- The memory is a store of 128 by 64 pixels. On any canvas, any list of steps
leaves each pixel with the value of the last step that concerned it, if any
did. The pixels determine the bytes; different pixels have different bits; and
every bit is a pixel. -/
theorem pixel_store (canvas : Canvas) (steps : List PixelStep) :
    (∃ after, Checked.drawAll? canvas (steps.map PixelStep.drawing) = some after ∧
      canvas.drawAll? (steps.map PixelStep.drawing) = some after ∧
      Remembers steps canvas after) ∧
    (∀ other : Canvas, canvas.data = other.data ↔
      ∀ x y, canvas.pixel x y = other.pixel x y) ∧
    (∀ x y, canvas.pixel x y =
      decide (canvas.byteAt (pixelIndex x y) &&& pixelMask y ≠ 0)) ∧
    (∀ x y x' y' : UInt8,
      (pixelIndex x y = pixelIndex x' y' ∧ pixelMask y &&& pixelMask y' ≠ 0) ↔
        SamePixel x y x' y') ∧
    ∀ k b, k < 1024 → b < 8 →
      ∃ byte, canvas.data[k]? = some byte ∧
        byte.toNat.testBit b =
          canvas.pixel (UInt8.ofNat (k % 128)) (UInt8.ofNat (8 * (k / 128) + b)) := by
  obtain ⟨after, hafter, hremembers⟩ := remembers_drawAll? steps canvas
  refine ⟨⟨after, ?_, hafter, hremembers⟩, data_eq_iff canvas, pixel_eq_masked canvas,
    shares_bit_iff, fun k b hk hb => ?_⟩
  · rw [Checked.drawAll?_eq, hafter]
  · refine ⟨canvas.byteAt (k + 1), ?_, testBit_frame canvas hk hb⟩
    rw [data_eq_map, List.getElem?_map, List.getElem?_range hk]
    rfl

end Canvas

end MeterPanel
