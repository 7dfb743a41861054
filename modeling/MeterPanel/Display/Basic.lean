import MeterPanel.Bus.Basic
import MeterPanel.Panel.Command
import MeterPanel.Reading
import MeterPanel.Text.Line

/-!
# Displays

A display is a panel on a bus together with the picture that is to be shown
on it. Drawing changes the picture only. A frame write sends the whole
picture, whatever state the controller is in; powering up sends the set-up
commands one by one and stops at the first refusal.

A display is ready once a power-up has gone through, and stays so.
-/

namespace MeterPanel

/-- A panel on a bus, and the picture meant for it. -/
structure Display (σ : Type) where
  bus : σ
  panel : Panel
  canvas : Canvas
  /-- Whether a power-up has gone through. -/
  ready : Bool

/-- Why an operation of a display did not finish. -/
inductive DisplayError (ε : Type) where
  /-- The panel is neither 32 nor 64 pixels tall. -/
  | unsupportedHeight (height : UInt8)
  /-- The bus refused a write. -/
  | bus (fault : ε)
  deriving DecidableEq

/-- An operation on a display, which may stop half-way and keeps what it has
done so far. -/
abbrev DisplayM (σ ε : Type) := ExceptT (DisplayError ε) (StateM (Display σ))

namespace Display

variable {σ ε : Type} [Bus σ ε]

/-- A display with a dark picture. Nothing is sent yet. -/
def new (bus : σ) (panel : Panel) : Display σ where
  bus := bus
  panel := panel
  canvas := .blank panel.height
  ready := false

/-! ## Drawing -/

/-- Changes the picture. -/
def draw (change : Canvas → Canvas) (display : Display σ) : Display σ :=
  { display with canvas := change display.canvas }

/-- Draws a reading: the bars with their peaks in the upper pages, and the
text in the row below them, the rest of that row blank. -/
def drawReading (reading : Reading) (display : Display σ) : Display σ :=
  display.draw fun canvas =>
    (canvas.drawBars 0 reading.levels (some reading.peaks)).drawLine
      reading.status 0 display.panel.statusRow true

/-! ## Sending -/

/-- Writes one transfer to the panel. -/
def send (frame : List UInt8) : DisplayM σ ε Unit := do
  let display ← get
  let (answer, bus) := Bus.write display.panel.address frame display.bus
  set { display with bus := bus }
  match answer with
  | .ok _ => return ()
  | .error fault => throw (.bus fault)

/-- Sends one command. -/
def command (command : UInt8) : DisplayM σ ε Unit := send (Panel.commandFrame command)

/-- Sends the whole picture. -/
def sendFrame : DisplayM σ ε Unit := do
  send (← get).canvas.frame

/-! ## Operations -/

/-- Powers the panel up. An unsupported height stops it before anything is
sent, a refused command where it is refused. -/
def powerUp : DisplayM σ ε Unit := do
  let panel := (← get).panel
  unless panel.Supported do
    throw (.unsupportedHeight panel.height)
  panel.powerUpSequence.forM command
  modify fun display => { display with ready := true }

/-- Darkens the picture and sends it if asked to. -/
def clear (immediate : Bool) : DisplayM σ ε Unit := do
  modify (draw Canvas.clear)
  if immediate then sendFrame

/-- Draws a line of text and sends the picture if asked to. -/
def print (codes : List UInt8) (x y : UInt8) (clearLine immediate : Bool) :
    DisplayM σ ε Unit := do
  modify (draw fun canvas => canvas.drawLine codes x y clearLine)
  if immediate then sendFrame

/-- Shows a reading. -/
def update (reading : Reading) : DisplayM σ ε Unit := do
  modify (drawReading reading)
  sendFrame

/-- Sets the contrast of the panel. -/
def setContrast (contrast : UInt8) : DisplayM σ ε Unit := do
  command Panel.setContrast
  command contrast

/-- Switches the panel on or off. -/
def setDisplayOn (on : Bool) : DisplayM σ ε Unit :=
  command (if on then Panel.displayOn else Panel.displayOff)

/-- Shows lit pixels dark, or light again. -/
def setInverted (inverted : Bool) : DisplayM σ ε Unit :=
  command (if inverted then Panel.showInverted else Panel.showNormal)

end Display

end MeterPanel
