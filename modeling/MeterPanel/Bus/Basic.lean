/-!
# Buses

A display only ever writes: each write carries a whole transfer to one
address and is either accepted or refused. What a refusal says is up to the
bus; it is passed on as it is.
-/

namespace MeterPanel

/-- The kinds of refusal that bus masters agree on. -/
inductive BusFault where
  /-- A start or stop condition out of place. -/
  | bus
  /-- Another master won the bus. -/
  | arbitrationLoss
  /-- Nobody answered to the address. -/
  | nackAddress
  /-- The device did not take a byte. -/
  | nackData
  /-- Something was not acknowledged. -/
  | nackUnknown
  /-- Data came faster than it could be taken. -/
  | overrun
  /-- Anything else. -/
  | other
  deriving DecidableEq, Repr

/-- A bus whose states are `σ` and whose refusals are `ε`. -/
class Bus (σ : Type) (ε : outParam Type) where
  /-- Writes bytes to the device at an address, in one transfer. -/
  write (address : UInt8) (bytes : List UInt8) (bus : σ) : Except ε Unit × σ

end MeterPanel
