import MeterPanel.Panel.Command

/-!
# The window that picture data fills

The controller writes picture data along the pages of a window, from its first
column and page to its last ones, and begins again at its start. The window is
set by commands, which arrive one byte at a time: a command waits until all of
its arguments have come and is carried out then.

A power-up that was cut short may leave a command waiting, which then takes
the first bytes of the next power-up for its arguments. The power-up sequence
begins with bytes that can be lost that way, so it sets the window whatever
the controller has received before.

## Main results

* `waiting_resync` — nothing waits after the first three bytes.
* `window_powerUp` — the window after the power-up sequence.
* `size_powerUp` — how much picture data fills it.
-/

namespace MeterPanel.Panel

/-- The columns and pages that picture data goes to, first and last ones
included. -/
structure Window where
  firstColumn : UInt8
  lastColumn : UInt8
  firstPage : UInt8
  lastPage : UInt8
  deriving DecidableEq

namespace Window

/-- Bytes of picture data that fill a window. -/
def size (window : Window) : Nat :=
  (window.lastColumn.toNat + 1 - window.firstColumn.toNat) *
    (window.lastPage.toNat + 1 - window.firstPage.toNat)

/-- Carries out a command with its arguments; most commands have nothing to do
with the window. -/
def execute (window : Window) : List UInt8 → Window
  | [command, first, last] =>
      if command = setColumnRange then
        { window with firstColumn := first, lastColumn := last }
      else if command = setPageRange then
        { window with firstPage := first, lastPage := last }
      else
        window
  | _ => window

end Window

/-- The number of arguments that a command takes. -/
def argumentCount (command : UInt8) : Nat :=
  if command ∈ [setColumnRange, setPageRange] then
    2
  else if command ∈ [setContrast, setMemoryMode, setMultiplexRatio, setVerticalOffset, setComPins,
      setClock, setPrechargePeriod, setDeselectLevel, setChargePump] then
    1
  else
    0

/-- What the controller knows of its window and of a command under way. -/
structure Controller where
  window : Window
  /-- A command that waits for arguments, behind it those that have come. -/
  waiting : List UInt8

namespace Controller

/-- Takes one command byte. -/
def receive (controller : Controller) (byte : UInt8) : Controller :=
  let bytes := controller.waiting ++ [byte]
  if bytes.length ≤ argumentCount (controller.waiting.headD byte) then
    { controller with waiting := bytes }
  else
    { window := controller.window.execute bytes, waiting := [] }

/-- Takes command bytes one after the other. -/
def receiveAll (controller : Controller) (bytes : List UInt8) : Controller :=
  bytes.foldl receive controller

theorem receiveAll_cons (controller : Controller) (byte : UInt8) (bytes : List UInt8) :
    controller.receiveAll (byte :: bytes) = (controller.receive byte).receiveAll bytes := rfl

theorem receiveAll_append (controller : Controller) (first rest : List UInt8) :
    controller.receiveAll (first ++ rest) = (controller.receiveAll first).receiveAll rest :=
  List.foldl_append

end Controller

/-! ## Whole commands -/

theorem argumentCount_le (command : UInt8) : argumentCount command ≤ 2 := by
  unfold argumentCount
  split
  · exact Nat.le_refl 2
  · split <;> decide

/-- A command together with all of its arguments. -/
def IsComplete : List UInt8 → Prop
  | [] => False
  | command :: arguments => arguments.length = argumentCount command

/-- With nothing waiting, a whole command is carried out. -/
theorem receiveAll_of_isComplete (window : Window) {bytes : List UInt8}
    (h : IsComplete bytes) :
    Controller.receiveAll ⟨window, []⟩ bytes = ⟨window.execute bytes, []⟩ := by
  match bytes with
  | [] => exact h.elim
  | [command] =>
      have hcount : 0 = argumentCount command := h
      simp [Controller.receiveAll, Controller.receive, ← hcount]
  | [command, argument] =>
      have hcount : 1 = argumentCount command := h
      simp [Controller.receiveAll, Controller.receive, ← hcount]
  | [command, first, last] =>
      have hcount : 2 = argumentCount command := h
      simp [Controller.receiveAll, Controller.receive, ← hcount]
  | command :: _ :: _ :: _ :: more =>
      have hcount : more.length + 3 = argumentCount command := h
      have hle := argumentCount_le command
      omega

/-- With nothing waiting, whole commands are carried out in their order. -/
theorem receiveAll_flatten (commands : List (List UInt8)) :
    ∀ window : Window, (∀ command ∈ commands, IsComplete command) →
      Controller.receiveAll ⟨window, []⟩ commands.flatten =
        ⟨commands.foldl Window.execute window, []⟩ := by
  induction commands with
  | nil => intro window _; rfl
  | cons command commands ih =>
      intro window h
      rw [List.flatten_cons, Controller.receiveAll_append,
        receiveAll_of_isComplete window (h command List.mem_cons_self)]
      exact ih _ fun command hmem => h command (List.mem_cons_of_mem _ hmem)

/-! ## The power-up sequence -/

/-- After switching off and setting the contrast nothing waits, even if a
command that was waiting has taken bytes of it. -/
theorem waiting_resync (controller : Controller) :
    (controller.receiveAll [displayOff, setContrast, 0x7F]).waiting = [] := by
  obtain ⟨window, waiting⟩ := controller
  have hcount := argumentCount_le (waiting.headD displayOff)
  by_cases hwaits : (waiting ++ [displayOff]).length ≤ argumentCount (waiting.headD displayOff)
  · -- the command under way takes two arguments and has none yet
    match waiting with
    | [] => exact absurd hwaits (by decide)
    | [command] =>
        have htwo : argumentCount command = 2 := Nat.le_antisymm hcount hwaits
        have hnone : argumentCount 0x7F = 0 := rfl
        simp [Controller.receiveAll, Controller.receive, htwo, hnone]
    | _ :: _ :: _ =>
        simp at hwaits hcount
        omega
  · have hfirst : Controller.receive ⟨window, waiting⟩ displayOff =
        ⟨window.execute (waiting ++ [displayOff]), []⟩ := if_neg hwaits
    have hrest : IsComplete [setContrast, 0x7F] := rfl
    rw [Controller.receiveAll_cons, hfirst, receiveAll_of_isComplete _ hrest]

/-- What follows the contrast in the power-up sequence, command by command. -/
private def setUpCommands (panel : Panel) : List (List UInt8) :=
  [ [showNormal],
    [setMemoryMode, 0x00],
    [setColumnRange, 0x00, 0x7F],
    [setPageRange, 0x00, panel.pageRangeEnd],
    [panel.segmentRemap],
    [setMultiplexRatio, panel.multiplexRatio],
    [panel.comScanDirection],
    [setVerticalOffset, 0x00],
    [setComPins, panel.comPins],
    [setClock, 0x80],
    [setPrechargePeriod, 0x22],
    [setDeselectLevel, 0x20],
    [setChargePump, 0x14],
    [showMemory],
    [displayOn] ]

private theorem isComplete_setUpCommands (panel : Panel) :
    ∀ command ∈ panel.setUpCommands, IsComplete command := by
  have hremap : argumentCount panel.segmentRemap = 0 := by
    unfold segmentRemap
    split <;> rfl
  have hscan : argumentCount panel.comScanDirection = 0 := by
    unfold comScanDirection
    split <;> rfl
  simp only [setUpCommands, List.forall_mem_cons, IsComplete, hremap, hscan, List.length_cons,
    List.length_nil, List.not_mem_nil, false_implies, implies_true]
  decide

/-- The power-up sequence sets the window to all columns and to the pages of
the panel, whatever came before it. -/
theorem window_powerUp (panel : Panel) (controller : Controller) :
    (controller.receiveAll panel.powerUpSequence).window = ⟨0, 0x7F, 0, panel.pageRangeEnd⟩ := by
  have hsplit : panel.powerUpSequence =
      [displayOff, setContrast, 0x7F] ++ panel.setUpCommands.flatten := rfl
  have hwaiting := waiting_resync controller
  rw [hsplit, Controller.receiveAll_append]
  cases hresync : controller.receiveAll [displayOff, setContrast, 0x7F] with
  | mk window waiting =>
      rw [hresync] at hwaiting
      obtain rfl : waiting = [] := hwaiting
      rw [receiveAll_flatten _ window panel.isComplete_setUpCommands]
      rfl

/-- The window of a panel takes the bytes of its pages. -/
theorem size_powerUp (panel : Panel) (controller : Controller) :
    (controller.receiveAll panel.powerUpSequence).window.size =
      128 * (panel.pageRangeEnd.toNat + 1) := by
  rw [window_powerUp]
  rfl

end MeterPanel.Panel
