/-!
# The panel's memory

A panel is 128 pixels wide and at most 64 tall. Its memory is a row of bytes:
pages of eight pixel rows from the top, 128 bytes a page, and in each byte the
topmost pixel in bit 0. One control byte stands in front, so that a whole
picture goes out as a single transfer.

A canvas always holds memory for the full 64 rows. A lower panel shows only
its first pages, and only those are sent; the rows below can still be drawn
on and read back.

All drawing goes through `update`, which changes one byte, leaves the control
byte alone and drops what falls behind the end.

## Main results

* `byte?_update` — an update changes its own byte and no other.
* `length_frame` — a frame is the control byte and the shown pages.
-/

namespace MeterPanel

/-- The memory of a panel, and how many of its pixel rows the panel shows. -/
structure Canvas where
  /-- The control byte and behind it the bytes of eight pages. -/
  bytes : Vector UInt8 1025
  /-- Height of the panel in pixels. -/
  height : UInt8
  deriving DecidableEq

namespace Canvas

/-! ## Measures -/

/-- Width of a panel in pixels, and so the bytes of one page. -/
def width : Nat := 128

/-- Height of the tallest panel in pixels. -/
def maxHeight : Nat := 64

/-- Pixel rows of one page. -/
def pageHeight : Nat := 8

/-- Bytes of a canvas, the control byte included. -/
def size : Nat := 1 + width * maxHeight / pageHeight

/-- The byte in front, which announces that picture data follows. -/
def controlByte : UInt8 := 0x40

/-! ## Bytes -/

/-- A dark canvas for a panel of the given height. -/
def blank (height : UInt8) : Canvas where
  bytes := Vector.ofFn fun index => if index.val = 0 then controlByte else 0
  height := height

instance : Inhabited Canvas := ⟨blank (UInt8.ofNat maxHeight)⟩

/-- The byte at an index, the control byte at index 0. -/
def byte? (canvas : Canvas) (index : Nat) : Option UInt8 := canvas.bytes[index]?

/-- Changes the byte at an index. The control byte stays as it is, and an
index behind the end changes nothing. -/
def update (canvas : Canvas) (index : Nat) (change : UInt8 → UInt8) : Canvas :=
  if h : 0 < index ∧ index < 1025 then
    { canvas with bytes := canvas.bytes.set index (change canvas.bytes[index]) h.2 }
  else
    canvas

/-- Stores a byte, within the limits of `update`. -/
def put (canvas : Canvas) (index : Nat) (byte : UInt8) : Canvas :=
  canvas.update index fun _ => byte

/-- Flips the bits of a mask in a byte, within the limits of `update`. -/
def toggle (canvas : Canvas) (index : Nat) (mask : UInt8) : Canvas :=
  canvas.update index fun byte => byte ^^^ mask

/-- An update changes its own byte, unless that is the control byte, and
keeps every other one. -/
theorem byte?_update (canvas : Canvas) (index : Nat) (change : UInt8 → UInt8) (k : Nat) :
    (canvas.update index change).byte? k =
      if index = k ∧ 0 < k then (canvas.byte? k).map change else canvas.byte? k := by
  unfold update byte?
  by_cases h : 0 < index ∧ index < 1025
  · rw [dif_pos h, Vector.getElem?_set]
    by_cases hk : index = k
    · subst hk
      simp [h.1, h.2]
    · simp [hk]
  · rw [dif_neg h]
    by_cases hk : index = k ∧ 0 < k
    · obtain ⟨rfl, hpos⟩ := hk
      have hend : ¬ index < 1025 := fun hlt => h ⟨hpos, hlt⟩
      simp [hend]
    · simp [hk]

theorem height_update (canvas : Canvas) (index : Nat) (change : UInt8 → UInt8) :
    (canvas.update index change).height = canvas.height := by
  unfold update
  split <;> rfl

/-! ## Pixels -/

/-- Index of the byte that holds a pixel. Columns wrap at 128 and rows at
64. -/
def pixelIndex (x y : UInt8) : Nat :=
  y.toNat % 64 / 8 * 128 + x.toNat % 128 + 1

theorem pixelIndex_pos (x y : UInt8) : 0 < pixelIndex x y := Nat.succ_pos _

theorem pixelIndex_lt (x y : UInt8) : pixelIndex x y < 1025 := by
  unfold pixelIndex
  omega

/-- The bit of a pixel within its byte. -/
def pixelMask (y : UInt8) : UInt8 := 1 <<< (y % 8)

/-- Turns a pixel on. -/
def setPixel (canvas : Canvas) (x y : UInt8) : Canvas :=
  canvas.update (pixelIndex x y) fun byte => byte ||| pixelMask y

/-- Turns a pixel off. -/
def clearPixel (canvas : Canvas) (x y : UInt8) : Canvas :=
  canvas.update (pixelIndex x y) fun byte => byte &&& ~~~pixelMask y

/-- Whether a pixel is on. -/
def pixel (canvas : Canvas) (x y : UInt8) : Bool :=
  have h := pixelIndex_lt x y
  canvas.bytes[pixelIndex x y].toNat.testBit (y.toNat % 8)

/-- Turns every pixel off, those below a low panel included. -/
def clear (canvas : Canvas) : Canvas :=
  { canvas with
    bytes := canvas.bytes.mapFinIdx fun index byte _ => if index = 0 then byte else 0 }

/-! ## What is sent -/

/-- Picture bytes that a panel of the canvas's height shows. -/
def dataLength (canvas : Canvas) : Nat :=
  min (width * canvas.height.toNat / pageHeight) (size - 1)

/-- One picture as it is sent: the control byte and the shown pages. -/
def frame (canvas : Canvas) : List UInt8 :=
  canvas.bytes.toList.take (1 + canvas.dataLength)

/-- The picture bytes of all eight pages, shown or not. -/
def data (canvas : Canvas) : List UInt8 := canvas.bytes.toList.drop 1

/-- A frame is one byte longer than the picture it shows. -/
theorem length_frame (canvas : Canvas) :
    canvas.frame.length = 1 + min (16 * canvas.height.toNat) 1024 := by
  have hdata : canvas.dataLength = min (16 * canvas.height.toNat) 1024 := by
    unfold dataLength size width maxHeight pageHeight
    omega
  rw [frame, List.length_take, Vector.length_toList, hdata]
  omega

end Canvas

end MeterPanel
