import MeterPanel.Binary32.Bits

/-!
# One channel of a meter

A channel has a level, which is set from outside, and a peak, which follows
it: the peak jumps up to a level at once, stays there for some ticks, and
then sinks by a fixed step per tick until it meets the level again.
-/

namespace MeterPanel

/-- How the peaks of a meter behave. -/
structure MeterConfig where
  /-- Ticks that a new peak stays put. -/
  holdTicks : UInt8
  /-- What a peak loses per tick after that. -/
  decayStep : Binary32
  deriving DecidableEq

namespace MeterConfig

/-- Twenty ticks, then the number nearest to two hundredths per tick. -/
def standard : MeterConfig where
  holdTicks := 20
  decayStep := .ofBits 0x3ca3d70a

instance : Inhabited MeterConfig := ⟨standard⟩

end MeterConfig

/-- A channel: its level, its peak and the ticks the peak still stays put. -/
structure Channel where
  level : Binary32
  peak : Binary32
  hold : UInt8
  deriving DecidableEq

namespace Channel

/-- A channel without sound. -/
def silent : Channel := ⟨0, 0, 0⟩

/-- A level as a channel keeps it: between zero and one, and zero for
not-a-number. -/
def clampLevel : Binary32 → Binary32
  | .nan => 0
  | level => level.clampUnit

/-- Sets the level; the peak follows at the next tick. -/
def setLevel (channel : Channel) (level : Binary32) : Channel :=
  { channel with level := clampLevel level }

/-- One tick: a level at or above the peak raises it and starts the hold, a
held peak waits, and any other peak sinks one step, but not below the
level. -/
def tick (config : MeterConfig) (channel : Channel) : Channel :=
  if channel.peak ≤ channel.level then
    { channel with peak := channel.level, hold := config.holdTicks }
  else if 0 < channel.hold then
    { channel with hold := channel.hold - 1 }
  else
    { channel with peak := (channel.peak - config.decayStep).max channel.level }

end Channel

end MeterPanel
