import MeterPanel.Proofs.BarPicture
import MeterPanel.Proofs.CheckedDrawing
import MeterPanel.Proofs.TextCells

/-!
# Frames stay well formed

Whatever is drawn, in whatever order, the height and the control byte stay as
they were on the blank canvas. So a frame always announces picture data, has
the length of the panel's pages and carries the pixels in page order.

## Main results

* `keeps_draw?` — every step succeeds and keeps height and control byte.
* `getElem?_frame` — the bytes of a frame are those of the memory.
* `testBit_frame` — the bits of a frame are the pixels.
* `frame_after_drawing` — the three together, after any list of steps.
-/

namespace MeterPanel.Canvas

/-! ## Every step -/

theorem keeps_clear (canvas : Canvas) : Keeps canvas canvas.clear := by
  refine ⟨rfl, ?_⟩
  rw [byteAt_eq_getElem _ (by decide), byteAt_eq_getElem _ (by decide)]
  unfold clear
  rw [Vector.getElem_mapFinIdx]
  rfl

theorem keeps_toggle (canvas : Canvas) (index : Nat) (mask : UInt8) :
    Keeps canvas (canvas.toggle index mask) :=
  keeps_update canvas index _

theorem keeps_invertCell (canvas : Canvas) (x y : UInt8) :
    Keeps canvas (canvas.invertCell x y) := by
  refine keeps_foldl _ ?_ _ canvas
  intro canvas column
  exact (keeps_toggle canvas _ _).trans (keeps_toggle _ _ _)

/-- Every step of drawing succeeds and keeps height and control byte. -/
theorem keeps_draw? (canvas : Canvas) (step : Drawing) :
    ∃ after, canvas.draw? step = some after ∧ Keeps canvas after := by
  cases step with
  | setPixel x y => exact ⟨_, rfl, keeps_update canvas _ _⟩
  | clearPixel x y => exact ⟨_, rfl, keeps_update canvas _ _⟩
  | clear => exact ⟨_, rfl, keeps_clear canvas⟩
  | char code x y style => exact ⟨_, rfl, keeps_drawChar canvas code x y style⟩
  | invertCell x y => exact ⟨_, rfl, keeps_invertCell canvas x y⟩
  | bars firstRow levels peaks =>
      exact ⟨_, (Option.some_get _).symm, keeps_drawBars canvas firstRow levels peaks⟩

theorem keeps_drawAll? (steps : List Drawing) :
    ∀ canvas : Canvas, ∃ after, canvas.drawAll? steps = some after ∧ Keeps canvas after := by
  induction steps with
  | nil => intro canvas; exact ⟨canvas, rfl, .refl canvas⟩
  | cons step steps ih =>
      intro canvas
      obtain ⟨next, hnext, hkeeps⟩ := keeps_draw? canvas step
      obtain ⟨after, hafter, hrest⟩ := ih next
      refine ⟨after, ?_, hkeeps.trans hrest⟩
      rw [drawAll?, List.foldlM_cons, hnext]
      exact hafter

/-! ## Frames -/

theorem getElem?_frame (canvas : Canvas) {k : Nat}
    (h : k < 1 + min (16 * canvas.height.toNat) 1024) :
    canvas.frame[k]? = some (canvas.byteAt k) := by
  have hend : k < 1025 := by omega
  have hlength : k < canvas.frame.length := by rwa [length_frame]
  rw [frame, List.length_take] at hlength
  rw [frame, List.getElem?_take_of_lt (by omega), Vector.getElem?_toList,
    Vector.getElem?_eq_getElem hend, byteAt_eq_getElem canvas hend]

/-- The bits of a frame are the pixels, page by page. -/
theorem testBit_frame (canvas : Canvas) {k b : Nat} (hk : k < 1024) (hb : b < 8) :
    (canvas.byteAt (k + 1)).toNat.testBit b =
      canvas.pixel (UInt8.ofNat (k % 128)) (UInt8.ofNat (8 * (k / 128) + b)) := by
  have hindex : 128 * ((8 * (k / 128) + b) / 8) + k % 128 + 1 = k + 1 := by omega
  have hbit : (8 * (k / 128) + b) % 8 = b := by omega
  rw [pixel_ofNat canvas (by omega) (by omega), lit, hindex, hbit]

theorem byteAt_zero_blank (height : UInt8) : (blank height).byteAt 0 = controlByte := by
  rw [byteAt_eq_getElem _ (by decide)]
  unfold blank
  rw [Vector.getElem_ofFn]
  rfl

/-- After any steps on a blank canvas: no check has failed, height and memory
are as they were, and the frame is the control byte and the shown pixels. -/
theorem frame_after_drawing (height : UInt8) (steps : List Drawing) :
    ∃ canvas frame,
      Checked.drawAll? (blank height) steps = some canvas ∧
      (blank height).drawAll? steps = some canvas ∧
      Checked.frame? canvas = some frame ∧
      canvas.height = height ∧
      canvas.bytes.toList.length = 1025 ∧
      canvas.byte? 0 = some 0x40 ∧
      frame = canvas.frame ∧
      frame.length = 1 + min (16 * height.toNat) 1024 ∧
      frame[0]? = some 0x40 ∧
      ∀ k b, k < min (16 * height.toNat) 1024 → b < 8 →
        ∃ byte, frame[k + 1]? = some byte ∧
          byte.toNat.testBit b =
            canvas.pixel (UInt8.ofNat (k % 128)) (UInt8.ofNat (8 * (k / 128) + b)) := by
  obtain ⟨canvas, hdraw, hkeeps⟩ := keeps_drawAll? steps (blank height)
  have hheight : canvas.height = height := hkeeps.height
  have hcontrol : canvas.byteAt 0 = 0x40 := hkeeps.controlByte.trans (byteAt_zero_blank height)
  have hlength := length_frame canvas
  rw [hheight] at hlength
  refine ⟨canvas, canvas.frame, ?_, hdraw, Checked.frame?_eq canvas, hheight,
    Vector.length_toList, ?_, rfl, hlength, ?_, ?_⟩
  · rw [Checked.drawAll?_eq, hdraw]
  · rw [byteAt_eq_getElem canvas (by decide)] at hcontrol
    rw [byte?, Vector.getElem?_eq_getElem (by decide), hcontrol]
  · rw [getElem?_frame canvas (by omega), hcontrol]
  · intro k b hk hb
    refine ⟨canvas.byteAt (k + 1), getElem?_frame canvas (by rw [hheight]; omega), ?_⟩
    exact testBit_frame canvas (by omega) hb

end MeterPanel.Canvas
