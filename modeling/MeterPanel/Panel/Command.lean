import MeterPanel.Panel.Basic

/-!
# Controller commands

The controller takes commands one byte at a time, each behind a byte that
says a single command follows. Arguments of a command are sent the same way.

## Main results

* `length_powerUpSequence` — every panel is powered up by thirty bytes.
-/

namespace MeterPanel.Panel

/-- The byte in front of a command. -/
def commandByte : UInt8 := 0x80

/-- A command or an argument as it is sent. -/
def commandFrame (command : UInt8) : List UInt8 := [commandByte, command]

/-! ## Command bytes -/

/-- Switches the panel off. -/
def displayOff : UInt8 := 0xAE

/-- Switches the panel on. -/
def displayOn : UInt8 := 0xAF

/-- Sets the contrast to the argument. -/
def setContrast : UInt8 := 0x81

/-- Shows lit pixels light. -/
def showNormal : UInt8 := 0xA6

/-- Shows lit pixels dark. -/
def showInverted : UInt8 := 0xA7

/-- Sets the order in which memory is written; argument 0 goes along a page
and then to the next one. -/
def setMemoryMode : UInt8 := 0x20

/-- Sets the first and the last column to write. -/
def setColumnRange : UInt8 := 0x21

/-- Sets the first and the last page to write. -/
def setPageRange : UInt8 := 0x22

/-- Sets the number of driven rows, less one. -/
def setMultiplexRatio : UInt8 := 0xA8

/-- Sets how far the picture is shifted down. -/
def setVerticalOffset : UInt8 := 0xD3

/-- Sets how the row pins are wired. -/
def setComPins : UInt8 := 0xDA

/-- Sets the clock. -/
def setClock : UInt8 := 0xD5

/-- Sets the time for which pixels are charged. -/
def setPrechargePeriod : UInt8 := 0xD9

/-- Sets the voltage of rows that are not driven. -/
def setDeselectLevel : UInt8 := 0xDB

/-- Switches the internal voltage converter. -/
def setChargePump : UInt8 := 0x8D

/-- Shows what is in memory. -/
def showMemory : UInt8 := 0xA4

/-! ## Power-up -/

/-- The bytes that power a panel up: medium contrast, memory written along the
pages so that a whole picture is one transfer, and the wiring of the
panel. -/
def powerUpSequence (panel : Panel) : List UInt8 :=
  [ displayOff,
    setContrast, 0x7F,
    showNormal,
    setMemoryMode, 0x00,
    setColumnRange, 0x00, 0x7F,
    setPageRange, 0x00, panel.pageRangeEnd,
    panel.segmentRemap,
    setMultiplexRatio, panel.multiplexRatio,
    panel.comScanDirection,
    setVerticalOffset, 0x00,
    setComPins, panel.comPins,
    setClock, 0x80,
    setPrechargePeriod, 0x22,
    setDeselectLevel, 0x20,
    setChargePump, 0x14,
    showMemory,
    displayOn ]

/-- Length of the power-up sequence. -/
def powerUpLength : Nat := 30

/-- Every panel is powered up by thirty bytes. -/
theorem length_powerUpSequence (panel : Panel) :
    panel.powerUpSequence.length = powerUpLength := rfl

end MeterPanel.Panel
