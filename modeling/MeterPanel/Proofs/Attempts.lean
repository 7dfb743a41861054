import MeterPanel.Bus.Scripted

/-!
# Attempts on a bus

A plan is a list of transfers to one address. It is carried out from the front
until a write is refused; that write is the last one attempted.

Any bus can be given a record of what was attempted on it. The record has no
part in the answers, so what holds of recorded buses holds of every bus.

## Main results

* `follows_writeAll` — the attempts that carrying out a plan adds to a record.
* `Follows.eq_single` — a single transfer is attempted, refused or not.
* `attempts_writeAll_single` — a plan of one transfer is one attempt.
-/

namespace MeterPanel

variable {σ ε : Type}

/-- Writes transfers to one address until one of them is refused, and gives
back that refusal. -/
def Bus.writeAll [Bus σ ε] (address : UInt8) : List (List UInt8) → σ → Option ε × σ
  | [], bus => (none, bus)
  | bytes :: plan, bus =>
      match Bus.write address bytes bus with
      | (.ok _, bus) => writeAll address plan bus
      | (.error fault, bus) => (some fault, bus)

/-! ## Records -/

/-- A bus, and all writes attempted on it so far. -/
structure RecordedBus (σ ε : Type) where
  bus : σ
  attempts : List (BusAttempt ε)

namespace RecordedBus

/-- A bus on which nothing has been attempted. -/
def fresh (bus : σ) : RecordedBus σ ε := ⟨bus, []⟩

def refusal? : Except ε Unit → Option ε
  | .ok _ => none
  | .error fault => some fault

variable [Bus σ ε]

def write (address : UInt8) (bytes : List UInt8) (recorded : RecordedBus σ ε) :
    Except ε Unit × RecordedBus σ ε :=
  let (answer, bus) := Bus.write address bytes recorded.bus
  (answer, ⟨bus, recorded.attempts ++ [⟨address, bytes, refusal? answer⟩]⟩)

instance : Bus (RecordedBus σ ε) ε := ⟨write⟩

theorem write_eq {address : UInt8} {bytes : List UInt8} {recorded : RecordedBus σ ε}
    {answer : Except ε Unit} {bus : σ}
    (h : Bus.write address bytes recorded.bus = (answer, bus)) :
    Bus.write address bytes recorded =
      (answer, ⟨bus, recorded.attempts ++ [⟨address, bytes, refusal? answer⟩]⟩) := by
  show RecordedBus.write address bytes recorded = _
  rw [RecordedBus.write, h]

end RecordedBus

/-! ## Plans -/

/-- Attempts that carry out a plan up to and including the first refusal, and
the refusal that stopped them. -/
structure Follows (address : UInt8) (plan : List (List UInt8)) (tried : List (BusAttempt ε))
    (refusal : Option ε) : Prop where
  toAddress : ∀ attempt ∈ tried, attempt.address = address
  inOrder : tried.map (·.bytes) <+: plan
  complete : refusal = none →
    tried.map (·.bytes) = plan ∧ ∀ attempt ∈ tried, attempt.refusal = none
  stopped : ∀ fault, refusal = some fault →
    ∃ accepted last, tried = accepted ++ [last] ∧
      (∀ attempt ∈ accepted, attempt.refusal = none) ∧ last.refusal = some fault

namespace Follows

theorem nil (address : UInt8) : Follows address [] ([] : List (BusAttempt ε)) none where
  toAddress := by simp
  inOrder := List.prefix_refl []
  complete := fun _ => ⟨rfl, by simp⟩
  stopped := fun _ h => by cases h

theorem refused (address : UInt8) (bytes : List UInt8) (plan : List (List UInt8)) (fault : ε) :
    Follows address (bytes :: plan) [⟨address, bytes, some fault⟩] (some fault) where
  toAddress := by simp
  inOrder := ⟨plan, rfl⟩
  complete := fun h => by cases h
  stopped := fun _ h => ⟨[], _, rfl, by simp, h⟩

theorem accepted {address : UInt8} {plan : List (List UInt8)} {tried : List (BusAttempt ε)}
    {refusal : Option ε} (bytes : List UInt8) (h : Follows address plan tried refusal) :
    Follows address (bytes :: plan) (⟨address, bytes, none⟩ :: tried) refusal where
  toAddress := List.forall_mem_cons.2 ⟨rfl, h.toAddress⟩
  inOrder := by
    obtain ⟨rest, hrest⟩ := h.inOrder
    exact ⟨rest, by rw [← hrest]; rfl⟩
  complete := by
    intro hnone
    obtain ⟨hbytes, hall⟩ := h.complete hnone
    exact ⟨by rw [← hbytes]; rfl, List.forall_mem_cons.2 ⟨rfl, hall⟩⟩
  stopped := by
    intro fault hfault
    obtain ⟨first, last, rfl, hfirst, hlast⟩ := h.stopped fault hfault
    exact ⟨⟨address, bytes, none⟩ :: first, last, rfl,
      List.forall_mem_cons.2 ⟨rfl, hfirst⟩, hlast⟩

section

variable {address : UInt8} {plan : List (List UInt8)} {tried : List (BusAttempt ε)}
  {refusal : Option ε}

/-- Without a refusal the whole plan has been accepted. -/
theorem eq_map (h : Follows address plan tried (none : Option ε)) :
    tried = plan.map fun bytes => ⟨address, bytes, none⟩ := by
  obtain ⟨hbytes, haccepted⟩ := h.complete rfl
  have hsame : ∀ attempt ∈ tried, ⟨address, attempt.bytes, none⟩ = attempt := by
    intro attempt hmem
    rw [← h.toAddress attempt hmem, ← haccepted attempt hmem]
  rw [← hbytes, List.map_map]
  exact ((List.map_congr_left hsame).trans (List.map_id tried)).symm

/-- A plan of one transfer is attempted once, refused or not. -/
theorem eq_single {bytes : List UInt8} (h : Follows address [bytes] tried refusal) :
    tried = [⟨address, bytes, refusal⟩] := by
  cases refusal with
  | none => exact h.eq_map
  | some fault =>
      obtain ⟨accepted, last, rfl, -, hlast⟩ := h.stopped fault rfl
      obtain ⟨rest, hsplit⟩ := h.inOrder
      have haddress : last.address = address := h.toAddress last (by simp)
      cases accepted with
      | nil =>
          have hbytes : last.bytes = bytes := (List.cons.inj hsplit).1
          rw [← haddress, ← hbytes, ← hlast]
          rfl
      | cons first accepted => simp at hsplit

theorem length_le (h : Follows address plan tried refusal) : tried.length ≤ plan.length := by
  simpa using h.inOrder.length_le

/-- Where every attempt was accepted nothing stopped the plan. -/
theorem refusal_eq_none (h : Follows address plan tried refusal)
    (haccepted : ∀ attempt ∈ tried, attempt.refusal = none) : refusal = none := by
  cases refusal with
  | none => rfl
  | some fault =>
      obtain ⟨accepted, last, rfl, -, hlast⟩ := h.stopped fault rfl
      simp [haccepted last (by simp)] at hlast

end

end Follows

/-- What carrying out a plan adds to a record. -/
theorem RecordedBus.follows_writeAll [Bus σ ε] (address : UInt8) (plan : List (List UInt8)) :
    ∀ recorded : RecordedBus σ ε,
      ∃ tried, (Bus.writeAll address plan recorded).2.attempts = recorded.attempts ++ tried ∧
        Follows address plan tried (Bus.writeAll address plan recorded).1 := by
  induction plan with
  | nil =>
      intro recorded
      exact ⟨[], (List.append_nil _).symm, .nil address⟩
  | cons bytes plan ih =>
      intro recorded
      cases hanswer : Bus.write address bytes recorded.bus with
      | mk answer bus =>
          rw [Bus.writeAll, write_eq hanswer]
          cases answer with
          | ok done =>
              obtain ⟨tried, hattempts, hfollows⟩ :=
                ih ⟨bus, recorded.attempts ++ [⟨address, bytes, none⟩]⟩
              refine ⟨⟨address, bytes, none⟩ :: tried, ?_, .accepted bytes hfollows⟩
              rw [List.append_assoc] at hattempts
              exact hattempts
          | error fault =>
              exact ⟨[⟨address, bytes, some fault⟩], rfl, .refused address bytes plan fault⟩

/-- A plan of one transfer is attempted once. -/
theorem RecordedBus.attempts_writeAll_single [Bus σ ε] (address : UInt8) (bytes : List UInt8)
    (recorded : RecordedBus σ ε) :
    (Bus.writeAll address [bytes] recorded).2.attempts =
      recorded.attempts ++ [⟨address, bytes, (Bus.writeAll address [bytes] recorded).1⟩] := by
  obtain ⟨tried, hattempts, hfollows⟩ := follows_writeAll address [bytes] recorded
  rw [hattempts, hfollows.eq_single]

end MeterPanel
