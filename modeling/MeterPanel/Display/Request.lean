import MeterPanel.Display.Screen

/-!
# Requests to a display

All operations of a display and of a text screen as one type, so that a whole
session is a list of requests. Every request leads to a reply and to the next
state; an operation that fails keeps what it did before it failed.
-/

namespace MeterPanel

/-! ## Text screens -/

/-- What a text screen can be asked for. -/
inductive ScreenRequest where
  | clear
  | write (row column : UInt8) (text : String)
  | highlight (row start stop : UInt8)
  | flush
  | size
  | isReady

/-- What a text screen answers. -/
inductive ScreenReply where
  /-- The outcome of an operation that can fail. -/
  | outcome (result : Except ScreenError Unit)
  | size (columns rows : UInt8)
  | ready (answer : Bool)

/-- Serves one request on a text screen. -/
def TextScreen.serve {δ : Type} [TextScreen δ] (request : ScreenRequest) :
    StateM δ ScreenReply := do
  match request with
  | .clear => return .outcome (← TextScreen.clear.run)
  | .write row column text => return .outcome (← (TextScreen.write row column text).run)
  | .highlight row start stop =>
      return .outcome (← (TextScreen.highlight row start stop).run)
  | .flush => return .outcome (← TextScreen.flush.run)
  | .size =>
      let (columns, rows) := TextScreen.size (← get)
      return .size columns rows
  | .isReady => return .ready (TextScreen.isReady (← get))

/-! ## Displays -/

/-- What a display can be asked for. -/
inductive DisplayRequest where
  | powerUp
  | sendFrame
  | setPixel (x y : UInt8)
  | clearPixel (x y : UInt8)
  | pixel (x y : UInt8)
  | clear (immediate : Bool)
  | drawChar (code x y : UInt8) (style : TextStyle)
  | print (codes : List UInt8) (x y : UInt8) (clearLine immediate : Bool)
  | drawBars (firstRow : UInt8) (levels : Bar.Levels) (peaks : Option Bar.Levels)
  | update (reading : Reading)
  | setContrast (contrast : UInt8)
  | setDisplayOn (on : Bool)
  | setInverted (inverted : Bool)
  /-- A request to the display as a text screen. -/
  | screen (request : ScreenRequest)

/-- What a display answers. -/
inductive DisplayReply (ε : Type) where
  /-- The operation cannot fail and tells nothing. -/
  | done
  /-- The outcome of an operation that can fail. -/
  | outcome (result : Except (DisplayError ε) Unit)
  /-- Whether a pixel is on. -/
  | lit (answer : Bool)
  | screen (reply : ScreenReply)

namespace Display

variable {σ ε : Type} [Bus σ ε]

/-- Serves one request on a display. -/
def serve (request : DisplayRequest) : StateM (Display σ) (DisplayReply ε) := do
  match request with
  | .powerUp => return .outcome (← powerUp.run)
  | .sendFrame => return .outcome (← sendFrame.run)
  | .setPixel x y =>
      modify (draw fun canvas => canvas.setPixel x y)
      return .done
  | .clearPixel x y =>
      modify (draw fun canvas => canvas.clearPixel x y)
      return .done
  | .pixel x y => return .lit ((← get).canvas.pixel x y)
  | .clear immediate => return .outcome (← (clear immediate).run)
  | .drawChar code x y style =>
      modify (draw fun canvas => canvas.drawChar code x y style)
      return .done
  | .print codes x y clearLine immediate =>
      return .outcome (← (print codes x y clearLine immediate).run)
  | .drawBars firstRow levels peaks =>
      modify (draw fun canvas => canvas.drawBars firstRow levels peaks)
      return .done
  | .update reading => return .outcome (← (update reading).run)
  | .setContrast contrast => return .outcome (← (setContrast contrast).run)
  | .setDisplayOn on => return .outcome (← (setDisplayOn on).run)
  | .setInverted inverted => return .outcome (← (setInverted inverted).run)
  | .screen request => return .screen (← TextScreen.serve request)

/-- The display after one request, and its reply. -/
def step (request : DisplayRequest) (display : Display σ) : DisplayReply ε × Display σ :=
  (serve request).run display

/-- The display after a list of requests. -/
def run (requests : List DisplayRequest) (display : Display σ) : Display σ :=
  requests.foldl (fun display request => (display.step request).2) display

end Display

end MeterPanel
