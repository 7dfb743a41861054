import MeterPanel.Display.Request
import MeterPanel.Proofs.Attempts

/-!
# What a request does

A request does three things, one after the other: it changes the picture, it
carries out a plan of writes, and it answers. The picture does not depend on
the bus, the plan depends on the finished picture and on whether the display
is ready, and the answer tells of the refusal that stopped the plan.

`step_eq` puts the three together and is all that is needed to know about the
operations of a display.

## Main results

* `step_eq` — a step is its picture, its plan and its answer.
* `panel_run` — no request changes the panel.
* `exists_meets` — what a request attempts on a recorded bus.
-/

namespace MeterPanel

namespace DisplayRequest

/-! ## The three parts -/

/-- What a request makes of the picture. -/
def paint (panel : Panel) (canvas : Canvas) : DisplayRequest → Canvas
  | .setPixel x y => canvas.setPixel x y
  | .clearPixel x y => canvas.clearPixel x y
  | .clear _ => canvas.clear
  | .drawChar code x y style => canvas.drawChar code x y style
  | .print codes x y clearLine _ => canvas.drawLine codes x y clearLine
  | .drawBars firstRow levels peaks => canvas.drawBars firstRow levels peaks
  | .update reading =>
      (canvas.drawBars 0 reading.levels (some reading.peaks)).drawLine
        reading.status 0 panel.statusRow true
  | .screen .clear => canvas.clear
  | .screen (.write row column text) =>
      if row < panel.textRows then
        canvas.drawLine (text.toList.map Font.codeOf) column row false
      else
        canvas
  | .screen (.highlight row start stop) =>
      if row < panel.textRows then canvas.invertCells row start stop else canvas
  | _ => canvas

/-- The transfers that a request means to send, once the picture is done. -/
def plan (panel : Panel) (canvas : Canvas) (ready : Bool) : DisplayRequest → List (List UInt8)
  | .powerUp =>
      if panel.Supported then panel.powerUpSequence.map fun byte => [0x80, byte] else []
  | .sendFrame => [canvas.frame]
  | .clear immediate => if immediate then [canvas.frame] else []
  | .print _ _ _ _ immediate => if immediate then [canvas.frame] else []
  | .update _ => [canvas.frame]
  | .setContrast contrast => [[0x80, 0x81], [0x80, contrast]]
  | .setDisplayOn on => [[0x80, if on then 0xAF else 0xAE]]
  | .setInverted inverted => [[0x80, if inverted then 0xA7 else 0xA6]]
  | .screen .flush => if ready then [canvas.frame] else []
  | _ => []

/-- The outcome of an operation that a refusal may have stopped. -/
def outcome {ε : Type} : Option ε → Except (DisplayError ε) Unit
  | none => .ok ()
  | some fault => .error (.bus fault)

/-- What a request answers, given the refusal that stopped its plan. -/
def answer {ε : Type} (panel : Panel) (canvas : Canvas) (ready : Bool) (refusal : Option ε) :
    DisplayRequest → DisplayReply ε
  | .powerUp =>
      .outcome
        (if panel.Supported then outcome refusal else .error (.unsupportedHeight panel.height))
  | .pixel x y => .lit (canvas.pixel x y)
  | .setPixel _ _ | .clearPixel _ _ | .drawChar _ _ _ _ | .drawBars _ _ _ => .done
  | .sendFrame | .clear _ | .print _ _ _ _ _ | .update _ | .setContrast _ | .setDisplayOn _
  | .setInverted _ => .outcome (outcome refusal)
  | .screen .clear | .screen (.write _ _ _) | .screen (.highlight _ _ _) =>
      .screen (.outcome (.ok ()))
  | .screen .flush =>
      .screen (.outcome
        (if ready then
          match refusal with
          | none => .ok ()
          | some _ => .error .communication
        else
          .error .notReady))
  | .screen .size => .screen (.size 20 panel.textRows)
  | .screen .isReady => .screen (.ready ready)

/-- Whether a display is ready after a request: it stays ready, and becomes
so by a power-up that went through. -/
def readyAfter {ε : Type} (panel : Panel) (ready : Bool) (refusal : Option ε) :
    DisplayRequest → Bool
  | .powerUp => ready || (decide panel.Supported && refusal.isNone)
  | _ => ready

end DisplayRequest

namespace Display

variable {σ ε : Type} [Bus σ ε]

/-! ## Sending -/

omit [Bus σ ε] in
theorem run_bind {α β : Type} (x : DisplayM σ ε α) (f : α → DisplayM σ ε β)
    (display : Display σ) :
    (x >>= f).run.run display =
      match x.run.run display with
      | (.ok a, next) => (f a).run.run next
      | (.error fault, next) => (.error fault, next) := by
  rw [ExceptT.run_bind, StateT.run_bind]
  cases x.run.run display with
  | mk result next => cases result <;> rfl

/-- What a send makes of the answer of the bus. -/
private def pass (answer : Except ε Unit) : DisplayM σ ε Unit :=
  match answer with
  | .ok _ => pure ()
  | .error fault => throw (.bus fault)

omit [Bus σ ε] in
private theorem run_pass (answer : Except ε Unit) (display : Display σ) :
    (pass answer : DisplayM σ ε Unit).run.run display = (answer.mapError .bus, display) := by
  cases answer <;> rfl

theorem run_send (frame : List UInt8) (display : Display σ) :
    (send frame : DisplayM σ ε Unit).run.run display =
      let written := Bus.write display.panel.address frame display.bus
      (written.1.mapError .bus, { display with bus := written.2 }) := by
  let written := Bus.write display.panel.address frame display.bus
  exact run_pass written.1 { display with bus := written.2 }

/-- Sends transfers one after the other; the first refusal ends it. -/
theorem run_forM_send (frames : List (List UInt8)) :
    ∀ display : Display σ,
      (frames.forM send : DisplayM σ ε Unit).run.run display =
        (DisplayRequest.outcome (Bus.writeAll display.panel.address frames display.bus).1,
          { display with
            bus := (Bus.writeAll display.panel.address frames display.bus).2 }) := by
  induction frames with
  | nil => intro display; rfl
  | cons frame frames ih =>
      intro display
      show (send frame >>= fun _ => frames.forM send : DisplayM σ ε Unit).run.run display = _
      rw [run_bind, run_send, Bus.writeAll]
      cases Bus.write display.panel.address frame display.bus with
      | mk answer bus =>
          cases answer with
          | ok done => exact ih _
          | error fault => rfl

/-- A single transfer, as a plan of one. -/
theorem run_send_eq (frame : List UInt8) (display : Display σ) :
    (send frame : DisplayM σ ε Unit).run.run display =
      (DisplayRequest.outcome (Bus.writeAll display.panel.address [frame] display.bus).1,
        { display with
          bus := (Bus.writeAll display.panel.address [frame] display.bus).2 }) := by
  rw [run_send, Bus.writeAll]
  cases Bus.write display.panel.address frame display.bus with
  | mk answer bus => cases answer <;> rfl

theorem run_sendFrame (display : Display σ) :
    (sendFrame : DisplayM σ ε Unit).run.run display =
      let sent := Bus.writeAll display.panel.address [display.canvas.frame] display.bus
      (DisplayRequest.outcome sent.1, { display with bus := sent.2 }) :=
  run_send_eq display.canvas.frame display

theorem run_update (reading : Reading) (display : Display σ) :
    (update reading : DisplayM σ ε Unit).run.run display =
      let drawn := display.drawReading reading
      let sent := Bus.writeAll display.panel.address [drawn.canvas.frame] display.bus
      (DisplayRequest.outcome sent.1, { drawn with bus := sent.2 }) :=
  run_send_eq (display.drawReading reading).canvas.frame (display.drawReading reading)

private theorem forM_command (bytes : List UInt8) :
    bytes.forM (command : UInt8 → DisplayM σ ε Unit) =
      (bytes.map fun byte => [0x80, byte]).forM send := by
  rw [List.forM_eq_forM, List.forM_eq_forM, List.forM_map]
  rfl

theorem run_powerUp (display : Display σ) :
    (powerUp : DisplayM σ ε Unit).run.run display =
      if display.panel.Supported then
        let sent := Bus.writeAll display.panel.address
          (display.panel.powerUpSequence.map fun byte => [0x80, byte]) display.bus
        (DisplayRequest.outcome sent.1,
          { display with bus := sent.2, ready := display.ready || sent.1.isNone })
      else
        (.error (.unsupportedHeight display.panel.height), display) := by
  have hrun : (powerUp : DisplayM σ ε Unit).run.run display =
      (if display.panel.Supported then
          display.panel.powerUpSequence.forM command >>= fun _ =>
            modify fun display => { display with ready := true }
        else
          throw (.unsupportedHeight display.panel.height) >>= fun _ =>
            display.panel.powerUpSequence.forM command >>= fun _ =>
              modify fun display => { display with ready := true } :
        DisplayM σ ε Unit).run.run display := rfl
  rw [hrun, forM_command]
  by_cases hsupported : display.panel.Supported
  · rw [if_pos hsupported, if_pos hsupported, run_bind, run_forM_send]
    cases Bus.writeAll display.panel.address
        (display.panel.powerUpSequence.map fun byte => [0x80, byte]) display.bus with
    | mk refusal bus =>
        cases refusal with
        | none =>
            show (Except.ok (), { display with bus, ready := true }) =
              (Except.ok (), { display with bus, ready := display.ready || true })
            rw [Bool.or_true]
        | some fault =>
            show (Except.error (DisplayError.bus fault), { display with bus }) =
              (Except.error (DisplayError.bus fault),
                { display with bus, ready := display.ready || false })
            rw [Bool.or_false]
  · rw [if_neg hsupported, if_neg hsupported]
    rfl

theorem run_draw_send (change : Canvas → Canvas) (immediate : Bool) (display : Display σ) :
    (do
        modify (draw change)
        if immediate then sendFrame : DisplayM σ ε Unit).run.run display =
      let canvas := change display.canvas
      let sent := Bus.writeAll display.panel.address
        (if immediate then [canvas.frame] else []) display.bus
      (DisplayRequest.outcome sent.1, { display with canvas := canvas, bus := sent.2 }) := by
  cases immediate with
  | false => rfl
  | true => exact run_send_eq (change display.canvas).frame (display.draw change)

theorem run_setContrast (contrast : UInt8) (display : Display σ) :
    (setContrast contrast : DisplayM σ ε Unit).run.run display =
      let sent := Bus.writeAll display.panel.address [[0x80, 0x81], [0x80, contrast]] display.bus
      (DisplayRequest.outcome sent.1, { display with bus := sent.2 }) := by
  show (send [0x80, 0x81] >>= fun _ => send [0x80, contrast] :
    DisplayM σ ε Unit).run.run display = _
  rw [run_bind, run_send, Bus.writeAll]
  cases Bus.write display.panel.address [0x80, 0x81] display.bus with
  | mk answer bus =>
      cases answer with
      | ok done => exact run_send_eq [0x80, contrast] { display with bus }
      | error fault => rfl

theorem run_flush (display : Display σ) :
    (flush : ScreenM (Display σ) Unit).run.run display =
      if display.ready then
        let sent := Bus.writeAll display.panel.address [display.canvas.frame] display.bus
        ((DisplayRequest.outcome sent.1).mapError DisplayError.toScreenError,
          { display with bus := sent.2 })
      else
        (.error .notReady, display) := by
  have hrun : (flush : ScreenM (Display σ) Unit).run.run display =
      (if display.ready = true then
          ExceptT.adapt DisplayError.toScreenError (sendFrame : DisplayM σ ε Unit)
        else
          throw .notReady >>= fun _ =>
            ExceptT.adapt DisplayError.toScreenError (sendFrame : DisplayM σ ε Unit) :
        ScreenM (Display σ) Unit).run.run display := rfl
  rw [hrun]
  by_cases hready : display.ready = true
  · rw [if_pos hready, if_pos hready]
    have hsend := run_send_eq display.canvas.frame display
    show (let ran := (send display.canvas.frame : DisplayM σ ε Unit).run.run display
      (ran.1.mapError DisplayError.toScreenError, ran.2)) = _
    rw [hsend]
  · rw [if_neg hready, if_neg hready]
    rfl

/-! ## One step -/

omit [Bus σ ε] in
/-- A request for an operation that can fail is served by a run of it. -/
theorem run_outcome (operation : DisplayM σ ε Unit) (display : Display σ) :
    (do return DisplayReply.outcome (← operation.run) :
        StateM (Display σ) (DisplayReply ε)).run display =
      (.outcome (operation.run.run display).1, (operation.run.run display).2) := rfl

theorem write_eq (row column : UInt8) (text : String) (display : Display σ) :
    display.write row column text =
      { display with
        canvas := (DisplayRequest.screen (.write row column text)).paint display.panel
          display.canvas } := by
  unfold write DisplayRequest.paint
  by_cases hrow : row < display.panel.textRows
  · simp only [if_pos hrow]
    rfl
  · simp only [if_neg hrow]

theorem highlight_eq (row start stop : UInt8) (display : Display σ) :
    display.highlight row start stop =
      { display with
        canvas := (DisplayRequest.screen (.highlight row start stop)).paint display.panel
          display.canvas } := by
  unfold highlight DisplayRequest.paint
  by_cases hrow : row < display.panel.textRows
  · simp only [if_pos hrow]
    rfl
  · simp only [if_neg hrow]

/-- A step changes the picture, carries out its plan and answers. -/
theorem step_eq (request : DisplayRequest) (display : Display σ) :
    display.step request =
      let canvas := request.paint display.panel display.canvas
      let sent := Bus.writeAll display.panel.address
        (request.plan display.panel canvas display.ready) display.bus
      (request.answer display.panel canvas display.ready sent.1,
        { bus := sent.2
          panel := display.panel
          canvas := canvas
          ready := request.readyAfter display.panel display.ready sent.1 }) := by
  cases request with
  | powerUp =>
      apply (run_outcome powerUp display).trans
      rw [run_powerUp]
      by_cases hsupported : display.panel.Supported <;>
        simp [hsupported, DisplayRequest.paint, DisplayRequest.plan, DisplayRequest.answer,
          DisplayRequest.readyAfter, Bus.writeAll]
  | sendFrame =>
      apply (run_outcome sendFrame display).trans
      rw [run_sendFrame]
      rfl
  | setPixel x y => rfl
  | clearPixel x y => rfl
  | pixel x y => rfl
  | clear immediate =>
      apply (run_outcome (clear immediate) display).trans
      rw [clear, run_draw_send]
      rfl
  | drawChar code x y style => rfl
  | print codes x y clearLine immediate =>
      apply (run_outcome (print codes x y clearLine immediate) display).trans
      rw [print, run_draw_send]
      rfl
  | drawBars firstRow levels peaks => rfl
  | update reading =>
      apply (run_outcome (update reading) display).trans
      rw [run_update]
      rfl
  | setContrast contrast =>
      apply (run_outcome (setContrast contrast) display).trans
      rw [run_setContrast]
      rfl
  | setDisplayOn on =>
      apply (run_outcome (setDisplayOn on) display).trans
      rw [setDisplayOn, command, run_send_eq]
      cases on <;> rfl
  | setInverted inverted =>
      apply (run_outcome (setInverted inverted) display).trans
      rw [setInverted, command, run_send_eq]
      cases inverted <;> rfl
  | screen request =>
      cases request with
      | clear => rfl
      | write row column text =>
          show (DisplayReply.screen (.outcome (.ok ())), display.write row column text) = _
          rw [write_eq]
          rfl
      | highlight row start stop =>
          show (DisplayReply.screen (.outcome (.ok ())), display.highlight row start stop) = _
          rw [highlight_eq]
          rfl
      | flush =>
          show (let ran := (flush : ScreenM (Display σ) Unit).run.run display
            (DisplayReply.screen (.outcome ran.1), ran.2)) = _
          rw [run_flush]
          simp only [DisplayRequest.paint, DisplayRequest.plan, DisplayRequest.answer,
            DisplayRequest.readyAfter]
          by_cases hready : display.ready = true
          · simp only [if_pos hready]
            cases (Bus.writeAll display.panel.address [display.canvas.frame] display.bus).1 <;> rfl
          · simp only [if_neg hready]
            rfl
      | size => rfl
      | isReady => rfl

/-! ## Runs -/

theorem run_nil (display : Display σ) : display.run [] = display := rfl

theorem run_cons (request : DisplayRequest) (requests : List DisplayRequest)
    (display : Display σ) :
    display.run (request :: requests) = (display.step request).2.run requests := rfl

theorem panel_run (requests : List DisplayRequest) :
    ∀ display : Display σ, (display.run requests).panel = display.panel := by
  induction requests with
  | nil => intro display; rfl
  | cons request requests ih =>
      intro display
      rw [run_cons, ih, step_eq]

/-! ## What a request attempts -/

/-- The writes that a request attempts. -/
def attemptsOf (display : Display (RecordedBus σ ε)) (request : DisplayRequest) :
    List (BusAttempt ε) :=
  (display.step request).2.bus.attempts.drop display.bus.attempts.length

/-- A request meets `refusal` on its way, or none: it attempts its plan up to
there, answers with it, and becomes ready only without one. -/
structure Meets (display : Display (RecordedBus σ ε)) (request : DisplayRequest)
    (refusal : Option ε) : Prop where
  follows : Follows display.panel.address
    (request.plan display.panel (request.paint display.panel display.canvas) display.ready)
    (display.attemptsOf request) refusal
  reply : (display.step request).1 =
    request.answer display.panel (request.paint display.panel display.canvas) display.ready refusal
  ready : (display.step request).2.ready =
    request.readyAfter display.panel display.ready refusal

/-- Every request attempts its plan until it is refused, if it is. -/
theorem exists_meets (display : Display (RecordedBus σ ε)) (request : DisplayRequest) :
    ∃ refusal, display.Meets request refusal := by
  have hstep := step_eq request display
  obtain ⟨tried, hattempts, hfollows⟩ := RecordedBus.follows_writeAll display.panel.address
    (request.plan display.panel (request.paint display.panel display.canvas) display.ready)
    display.bus
  have hrecord : (display.step request).2.bus.attempts = display.bus.attempts ++ tried := by
    rw [hstep]
    exact hattempts
  have htried : display.attemptsOf request = tried := by
    rw [attemptsOf, hrecord, List.drop_left]
  rw [← htried] at hfollows
  exact ⟨_, hfollows, congrArg (fun result => result.1) hstep,
    congrArg (fun result => result.2.ready) hstep⟩

end Display

end MeterPanel
