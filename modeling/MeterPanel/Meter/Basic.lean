import MeterPanel.Font.Table
import MeterPanel.Meter.Channel
import MeterPanel.Reading
import MeterPanel.Text.Line

/-!
# A level meter that holds its peaks

A meter keeps nine channels and a line of text. Levels and text are pushed
into it, one tick per picture moves the peaks, and its reading is what a
display shows.
-/

namespace MeterPanel

/-- The state of a level meter. -/
structure Meter where
  config : MeterConfig
  channels : Vector Channel Bar.channelCount
  /-- The line of text, one character code per cell. -/
  status : List UInt8

/-- What can happen to a meter. -/
inductive MeterEvent where
  /-- One channel gets a level; an unknown channel is ignored. -/
  | setLevel (channel : Nat) (level : Binary32)
  /-- Every channel gets a level. -/
  | setLevels (levels : Bar.Levels)
  /-- The line of text is replaced. -/
  | setStatus (text : String)
  /-- One picture further. -/
  | tick
  /-- All levels and peaks fall to zero. -/
  | reset

namespace Meter

/-- A meter without sound and without text. -/
def silent (config : MeterConfig) : Meter where
  config := config
  channels := Vector.replicate Bar.channelCount .silent
  status := []

instance : Inhabited Meter := ⟨silent .standard⟩

/-- Sets the level of one channel. -/
def setLevel (meter : Meter) (channel : Nat) (level : Binary32) : Meter :=
  if h : channel < Bar.channelCount then
    { meter with channels := meter.channels.set channel (meter.channels[channel].setLevel level) }
  else
    meter

/-- Sets the level of every channel. -/
def setLevels (meter : Meter) (levels : Bar.Levels) : Meter :=
  { meter with channels := meter.channels.zipWith Channel.setLevel levels }

/-- Replaces the line of text: one cell per character, as many as a row
has. -/
def setStatus (meter : Meter) (text : String) : Meter :=
  { meter with status := (text.toList.take Text.columnCount).map Font.codeOf }

/-- Moves every peak by one tick. -/
def tick (meter : Meter) : Meter :=
  { meter with channels := meter.channels.map (Channel.tick meter.config) }

/-- Drops all levels and peaks to zero; the text stays. -/
def reset (meter : Meter) : Meter :=
  { meter with channels := Vector.replicate Bar.channelCount .silent }

/-- The meter after an event. -/
def apply (meter : Meter) : MeterEvent → Meter
  | .setLevel channel level => meter.setLevel channel level
  | .setLevels levels => meter.setLevels levels
  | .setStatus text => meter.setStatus text
  | .tick => meter.tick
  | .reset => meter.reset

/-- The meter after a run of events. -/
def run (meter : Meter) (events : List MeterEvent) : Meter := events.foldl apply meter

/-- What a display shows of the meter. -/
def reading (meter : Meter) : Reading where
  levels := meter.channels.map Channel.level
  peaks := meter.channels.map Channel.peak
  status := meter.status

end Meter

end MeterPanel
