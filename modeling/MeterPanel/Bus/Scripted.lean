import MeterPanel.Bus.Basic

/-!
# Scripted buses

A scripted bus answers every write from a script and keeps a record of all
writes attempted on it. Any sequence of answers can be scripted.
-/

namespace MeterPanel

/-- One write and the answer it got. -/
structure BusAttempt (ε : Type) where
  address : UInt8
  bytes : List UInt8
  /-- The refusal, if there was one. -/
  refusal : Option ε
  deriving DecidableEq

/-- A bus that answers from a script. -/
structure ScriptedBus (ε : Type) where
  /-- The refusal of each write, counted from the first one; `none` accepts. -/
  script : Nat → Option ε
  /-- All writes so far, the first one first. -/
  attempts : List (BusAttempt ε)

namespace ScriptedBus

variable {ε : Type}

/-- A bus that has not been written to. -/
def fresh (script : Nat → Option ε) : ScriptedBus ε := ⟨script, []⟩

/-- The answer to the next write. -/
def nextRefusal (bus : ScriptedBus ε) : Option ε := bus.script bus.attempts.length

/-- Attempts a write. -/
def write (address : UInt8) (bytes : List UInt8) (bus : ScriptedBus ε) :
    Except ε Unit × ScriptedBus ε :=
  let attempt := ⟨address, bytes, bus.nextRefusal⟩
  let answer := match bus.nextRefusal with
    | none => .ok ()
    | some fault => .error fault
  (answer, { bus with attempts := bus.attempts ++ [attempt] })

instance : Bus (ScriptedBus ε) ε := ⟨write⟩

/-- The number of writes attempted. -/
def calls (bus : ScriptedBus ε) : Nat := bus.attempts.length

/-- The writes that were accepted, in order. -/
def accepted (bus : ScriptedBus ε) : List (UInt8 × List UInt8) :=
  (bus.attempts.filter fun attempt => attempt.refusal.isNone).map fun attempt =>
    (attempt.address, attempt.bytes)

end ScriptedBus

end MeterPanel
