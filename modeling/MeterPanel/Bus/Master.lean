import MeterPanel.Bus.Scripted

/-!
# Bus masters behind a bus

A bus master does more than write: it runs transactions, lists of operations
on one device. `MasterBus` makes a plain bus out of any master. It passes each
write on to the master, and its answer back.

How a master writes is its own affair. As a rule a write is a transaction with
one operation; a master that has a shorter way is lawful if that comes to the
same.

## Main results

* `write_eq_transaction` — over a lawful master the adapter runs transactions.
* `write_scripted` — over a scripted master the adapter behaves as the
  scripted bus itself.
-/

namespace MeterPanel

/-- One step of a transaction. -/
inductive BusOperation where
  /-- Bytes go to the device. -/
  | write (bytes : List UInt8)
  /-- So many bytes come from the device. -/
  | read (count : Nat)
  deriving DecidableEq

/-- A bus master whose states are `μ` and whose refusals are `ε`. -/
class BusMaster (μ : Type) (ε : outParam Type) where
  /-- Runs operations on the device at an address, and gives back the bytes it
  read. -/
  transaction (address : UInt8) (operations : List BusOperation) (master : μ) :
    Except ε (List UInt8) × μ
  /-- Writes bytes to the device at an address. -/
  write (address : UInt8) (bytes : List UInt8) (master : μ) : Except ε Unit × μ :=
    let (answer, next) := transaction address [.write bytes] master
    (answer.map fun _ => (), next)

/-- Masters that write as a transaction with one operation does. -/
class LawfulBusMaster (μ : Type) {ε : outParam Type} [BusMaster μ ε] : Prop where
  write_eq (address : UInt8) (bytes : List UInt8) (master : μ) :
    BusMaster.write address bytes master =
      ((BusMaster.transaction address [.write bytes] master).1.map fun _ => (),
        (BusMaster.transaction address [.write bytes] master).2)

/-- A bus master used as a bus. -/
structure MasterBus (μ : Type) where
  master : μ

namespace MasterBus

variable {μ ε : Type} [BusMaster μ ε]

/-- Writes as the master does. -/
def write (address : UInt8) (bytes : List UInt8) (bus : MasterBus μ) :
    Except ε Unit × MasterBus μ :=
  let (answer, master) := BusMaster.write address bytes bus.master
  (answer, ⟨master⟩)

instance : Bus (MasterBus μ) ε := ⟨write⟩

/-- The adapter changes a lawful master as one transaction does, and keeps the
refusal. -/
theorem write_eq_transaction [LawfulBusMaster μ] (address : UInt8) (bytes : List UInt8)
    (bus : MasterBus μ) :
    bus.write address bytes =
      ((BusMaster.transaction address [.write bytes] bus.master).1.map fun _ => (),
        ⟨(BusMaster.transaction address [.write bytes] bus.master).2⟩) := by
  rw [write, LawfulBusMaster.write_eq]

end MasterBus

/-! ## Scripted masters -/

namespace ScriptedBus

variable {ε : Type}

/-- Bytes that the operations of a transaction send. Neighbouring writes go
out as one stream, so they count as one. -/
def sentBytes (operations : List BusOperation) : List UInt8 :=
  operations.flatMap fun
    | .write bytes => bytes
    | .read _ => []

/-- A transaction on a scripted bus is one attempt. -/
def transaction (address : UInt8) (operations : List BusOperation) (bus : ScriptedBus ε) :
    Except ε (List UInt8) × ScriptedBus ε :=
  let (answer, bus) := bus.write address (sentBytes operations)
  (answer.map fun _ => [], bus)

instance : BusMaster (ScriptedBus ε) ε where
  transaction := transaction

instance : LawfulBusMaster (ScriptedBus ε) := ⟨fun _ _ _ => rfl⟩

end ScriptedBus

/-- Over a scripted master the adapter behaves as the scripted bus itself. -/
theorem MasterBus.write_scripted {ε : Type} (address : UInt8) (bytes : List UInt8)
    (bus : ScriptedBus ε) :
    (MasterBus.mk bus).write address bytes =
      ((bus.write address bytes).1, ⟨(bus.write address bytes).2⟩) := by
  have hbytes : ScriptedBus.sentBytes [.write bytes] = bytes := List.append_nil bytes
  rw [write_eq_transaction]
  simp only [BusMaster.transaction, ScriptedBus.transaction, hbytes]
  cases (bus.write address bytes).1 <;> rfl

end MeterPanel
