/-!
# Panels and how they are set up

A panel answers at a bus address, is 32 or 64 pixels tall and may be mounted
upside down. Its controller has to be told about all of that when it is
powered up; any other height is refused at that moment, not before.
-/

namespace MeterPanel

/-- Which way up a panel is mounted. -/
inductive Rotation where
  /-- First column on the left, first page at the top. -/
  | normal
  /-- Turned by half a turn. -/
  | inverted
  deriving DecidableEq, Repr

/-- A panel as it is wired and mounted. -/
structure Panel where
  /-- Seven-bit address on the bus. -/
  address : UInt8
  /-- Height in pixels. -/
  height : UInt8
  rotation : Rotation
  deriving DecidableEq, Repr

namespace Panel

/-- The address of a controller whose address pin is low. -/
def standardAddress : UInt8 := 0x3C

/-- A panel of 32 rows, mounted upright. -/
def standard : Panel := ⟨standardAddress, 32, .normal⟩

instance : Inhabited Panel := ⟨standard⟩

/-- The heights that the controller set-up knows. -/
def Supported (panel : Panel) : Prop := panel.height = 32 ∨ panel.height = 64

instance (panel : Panel) : Decidable panel.Supported :=
  inferInstanceAs (Decidable (panel.height = 32 ∨ panel.height = 64))

/-! ## What follows from height and mounting -/

/-- The last page that the controller writes to. -/
def pageRangeEnd (panel : Panel) : UInt8 := if panel.height = 32 then 0x03 else 0x07

/-- The command that sets the direction of the columns. -/
def segmentRemap (panel : Panel) : UInt8 :=
  match panel.rotation with
  | .normal => 0xA1
  | .inverted => 0xA0

/-- The command that sets the direction of the rows. -/
def comScanDirection (panel : Panel) : UInt8 :=
  match panel.rotation with
  | .normal => 0xC8
  | .inverted => 0xC0

/-- The number of driven rows, counted from zero. -/
def multiplexRatio (panel : Panel) : UInt8 := panel.height - 1

/-- How the row pins are wired. -/
def comPins (panel : Panel) : UInt8 := if panel.height = 32 then 0x02 else 0x12

/-- Rows of text, each two pages tall. -/
def textRows (panel : Panel) : UInt8 := panel.height / 16

/-- The row of text below the bars. -/
def statusRow (panel : Panel) : UInt8 := if panel.height = 32 then 1 else 3

end Panel

end MeterPanel
