import MeterPanel.Font.Glyph

/-!
# The font

Ninety-seven glyphs for the character codes `0x20` to `0x80`. The last one,
a solid block, stands in for every character the font does not have; a code
outside the font draws a blank, except `0xFF`, which draws the block.

The column tables hold every glyph already turned into columns, so that
drawing looks columns up.
-/

namespace MeterPanel.Font

/-- The first character code of the font, a space. -/
def firstCode : UInt8 := 0x20

/-- The code of the solid block, the last one of the font. -/
def placeholder : UInt8 := 0x80

/-- The number of glyphs, from `firstCode` to `placeholder`. -/
def glyphCount : Nat := 97

/-- A glyph from its upper seven rows; the lowest row is always dark. -/
private def picture (a b c d e f g : UInt8) : Glyph := ⟨#v[a, b, c, d, e, f, g, 0]⟩

/-- The pictures, in the order of their codes: the printable ASCII characters,
an outlined block and the solid one. -/
def glyphs : Vector Glyph glyphCount := #v[
  picture 0x00 0x00 0x00 0x00 0x00 0x00 0x00,
  picture 0x04 0x04 0x04 0x04 0x00 0x00 0x04,
  picture 0x0A 0x0A 0x0A 0x00 0x00 0x00 0x00,
  picture 0x0A 0x0A 0x1F 0x0A 0x1F 0x0A 0x0A,
  picture 0x04 0x0F 0x14 0x0E 0x05 0x1E 0x04,
  picture 0x18 0x19 0x02 0x04 0x08 0x13 0x03,
  picture 0x0C 0x12 0x14 0x08 0x15 0x12 0x0D,
  picture 0x0C 0x04 0x08 0x00 0x00 0x00 0x00,
  picture 0x02 0x04 0x08 0x08 0x08 0x04 0x02,
  picture 0x08 0x04 0x02 0x02 0x02 0x04 0x08,
  picture 0x00 0x04 0x15 0x0E 0x15 0x04 0x00,
  picture 0x00 0x04 0x04 0x1F 0x04 0x04 0x00,
  picture 0x00 0x00 0x00 0x00 0x0C 0x04 0x08,
  picture 0x00 0x00 0x00 0x1F 0x00 0x00 0x00,
  picture 0x00 0x00 0x00 0x00 0x00 0x0C 0x0C,
  picture 0x00 0x01 0x02 0x04 0x08 0x10 0x00,
  picture 0x0E 0x11 0x13 0x15 0x19 0x11 0x0E,
  picture 0x04 0x0C 0x04 0x04 0x04 0x04 0x0E,
  picture 0x0E 0x11 0x01 0x02 0x04 0x08 0x1F,
  picture 0x1F 0x02 0x04 0x02 0x01 0x11 0x0E,
  picture 0x02 0x06 0x0A 0x12 0x1F 0x02 0x02,
  picture 0x1F 0x10 0x1E 0x01 0x01 0x11 0x0E,
  picture 0x06 0x08 0x10 0x1E 0x11 0x11 0x0E,
  picture 0x1F 0x01 0x02 0x04 0x08 0x08 0x08,
  picture 0x0E 0x11 0x11 0x0E 0x11 0x11 0x0E,
  picture 0x0E 0x11 0x11 0x0F 0x01 0x02 0x0C,
  picture 0x00 0x0C 0x0C 0x00 0x0C 0x0C 0x00,
  picture 0x00 0x0C 0x0C 0x00 0x0C 0x04 0x08,
  picture 0x02 0x04 0x08 0x10 0x08 0x04 0x02,
  picture 0x00 0x00 0x1F 0x00 0x1F 0x00 0x00,
  picture 0x08 0x04 0x02 0x01 0x02 0x04 0x08,
  picture 0x0E 0x11 0x01 0x02 0x04 0x00 0x04,
  picture 0x0E 0x11 0x01 0x0D 0x15 0x15 0x0E,
  picture 0x0E 0x11 0x11 0x11 0x1F 0x11 0x11,
  picture 0x1E 0x11 0x11 0x1E 0x11 0x11 0x1E,
  picture 0x0E 0x11 0x10 0x10 0x10 0x11 0x0E,
  picture 0x1C 0x12 0x11 0x11 0x11 0x12 0x1C,
  picture 0x1F 0x10 0x10 0x1E 0x10 0x10 0x1F,
  picture 0x1F 0x10 0x10 0x1E 0x10 0x10 0x10,
  picture 0x0E 0x11 0x10 0x17 0x11 0x11 0x0F,
  picture 0x11 0x11 0x11 0x1F 0x11 0x11 0x11,
  picture 0x0E 0x04 0x04 0x04 0x04 0x04 0x0E,
  picture 0x07 0x02 0x02 0x02 0x02 0x12 0x0C,
  picture 0x11 0x12 0x14 0x18 0x14 0x12 0x11,
  picture 0x10 0x10 0x10 0x10 0x10 0x10 0x1F,
  picture 0x11 0x1B 0x15 0x15 0x11 0x11 0x11,
  picture 0x11 0x11 0x19 0x15 0x13 0x11 0x11,
  picture 0x0E 0x11 0x11 0x11 0x11 0x11 0x0E,
  picture 0x1E 0x11 0x11 0x1E 0x10 0x10 0x10,
  picture 0x0E 0x11 0x11 0x11 0x15 0x12 0x0D,
  picture 0x1E 0x11 0x11 0x1E 0x14 0x12 0x11,
  picture 0x0F 0x10 0x10 0x0E 0x01 0x01 0x1E,
  picture 0x1F 0x04 0x04 0x04 0x04 0x04 0x04,
  picture 0x11 0x11 0x11 0x11 0x11 0x11 0x0E,
  picture 0x11 0x11 0x11 0x11 0x11 0x0A 0x04,
  picture 0x11 0x11 0x11 0x15 0x15 0x15 0x0A,
  picture 0x11 0x11 0x0A 0x04 0x0A 0x11 0x11,
  picture 0x11 0x11 0x11 0x0A 0x04 0x04 0x04,
  picture 0x1F 0x01 0x02 0x04 0x08 0x10 0x1F,
  picture 0x0E 0x08 0x08 0x08 0x08 0x08 0x0E,
  picture 0x00 0x10 0x08 0x04 0x02 0x01 0x00,
  picture 0x0E 0x02 0x02 0x02 0x02 0x02 0x0E,
  picture 0x04 0x0A 0x11 0x00 0x00 0x00 0x00,
  picture 0x00 0x00 0x00 0x00 0x00 0x00 0x1F,
  picture 0x08 0x04 0x02 0x00 0x00 0x00 0x00,
  picture 0x00 0x00 0x0E 0x01 0x0F 0x11 0x0F,
  picture 0x10 0x10 0x16 0x19 0x11 0x11 0x1E,
  picture 0x00 0x00 0x0E 0x10 0x10 0x11 0x0E,
  picture 0x01 0x01 0x0D 0x13 0x11 0x11 0x0F,
  picture 0x00 0x00 0x0E 0x11 0x1F 0x10 0x0E,
  picture 0x06 0x09 0x08 0x1C 0x08 0x08 0x08,
  picture 0x00 0x0F 0x11 0x11 0x0F 0x01 0x0E,
  picture 0x10 0x10 0x16 0x19 0x11 0x11 0x11,
  picture 0x04 0x00 0x0C 0x04 0x04 0x04 0x0E,
  picture 0x02 0x00 0x06 0x02 0x02 0x12 0x0C,
  picture 0x10 0x10 0x12 0x14 0x18 0x14 0x12,
  picture 0x0C 0x04 0x04 0x04 0x04 0x04 0x0E,
  picture 0x00 0x00 0x1A 0x15 0x15 0x11 0x11,
  picture 0x00 0x00 0x16 0x19 0x11 0x11 0x11,
  picture 0x00 0x00 0x0E 0x11 0x11 0x11 0x0E,
  picture 0x00 0x00 0x1E 0x11 0x1E 0x10 0x10,
  picture 0x00 0x00 0x0D 0x13 0x0F 0x01 0x01,
  picture 0x00 0x00 0x16 0x19 0x10 0x10 0x10,
  picture 0x00 0x00 0x0E 0x10 0x0E 0x01 0x1E,
  picture 0x08 0x08 0x1C 0x08 0x08 0x09 0x06,
  picture 0x00 0x00 0x11 0x11 0x11 0x13 0x0D,
  picture 0x00 0x00 0x11 0x11 0x11 0x0A 0x04,
  picture 0x00 0x00 0x11 0x11 0x15 0x15 0x0A,
  picture 0x00 0x00 0x11 0x0A 0x04 0x0A 0x11,
  picture 0x00 0x00 0x11 0x11 0x0F 0x01 0x0E,
  picture 0x00 0x00 0x1F 0x02 0x04 0x08 0x1F,
  picture 0x02 0x04 0x04 0x08 0x04 0x04 0x02,
  picture 0x04 0x04 0x04 0x04 0x04 0x04 0x04,
  picture 0x08 0x04 0x04 0x02 0x04 0x04 0x08,
  picture 0x00 0x00 0x08 0x15 0x02 0x00 0x00,
  picture 0x1F 0x11 0x11 0x11 0x11 0x11 0x1F,
  picture 0x1F 0x1F 0x1F 0x1F 0x1F 0x1F 0x1F
]

/-- Every glyph as columns of single height. -/
def columns : Vector (Vector UInt8 Glyph.columnCount) glyphCount :=
  glyphs.map fun glyph => Vector.ofFn glyph.column

/-- Every glyph as columns of double height. -/
def tallColumns : Vector (Vector UInt16 Glyph.columnCount) glyphCount :=
  glyphs.map fun glyph => Vector.ofFn glyph.tallColumn

/-- The place of a character code in the tables. -/
def index (code : UInt8) : Fin glyphCount :=
  if h : firstCode ≤ code ∧ code ≤ placeholder then
    ⟨code.toNat - firstCode.toNat, by
      have hhigh : code.toNat ≤ 0x80 := UInt8.le_iff_toNat_le.1 h.2
      have hfirst : firstCode.toNat = 0x20 := rfl
      unfold glyphCount
      omega⟩
  else if code = 0xFF then
    ⟨96, by decide⟩
  else
    ⟨0, by decide⟩

/-- The picture that a character code draws. -/
def glyph (code : UInt8) : Glyph := glyphs.get (index code)

/-- The code that shows a character: its own for ASCII, else the
placeholder's. -/
def codeOf (character : Char) : UInt8 :=
  if character.toNat < 128 then UInt8.ofNat character.toNat else placeholder

end MeterPanel.Font
