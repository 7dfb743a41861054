import MeterPanel.Bar.Drawing

/-!
# Readings

A reading is all that one picture of the meter shows. Whoever makes it looks
after the peaks; a display draws what it is given.
-/

namespace MeterPanel

/-- Levels and peaks of all channels, and the line of text below the bars. -/
structure Reading where
  levels : Bar.Levels
  peaks : Bar.Levels
  /-- One character code per cell. -/
  status : List UInt8

end MeterPanel
