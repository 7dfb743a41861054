import MeterPanel.Proofs.FrameSafety
import MeterPanel.Proofs.Requests
import MeterPanel.Proofs.TextLines

/-!
# The picture of a session

A session draws the same picture on every bus. Each request finishes its
drawing before it sends anything, and whether the display is ready decides
what is sent but never what is drawn. So the picture after a session is told
by its requests alone, a refused frame can be sent again later, and what is
sent then is what a bus that refuses nothing would have been sent.

A transfer that is not a command carries a picture. Commands begin with a byte
of their own, and a picture begins with its control byte.

## Main results

* `canvas_run` — the picture after a session.
* `keeps_run` — a session keeps height and control byte.
* `framesOf_eq` — a request sends the finished picture or none.
* `sendsPicture` — a request that is there to send it succeeds by sending it.
* `succeeds_unrefused` — a success is one as well where nothing is refused.
* `same_picture_on_any_bus` — two sessions with the same requests.
-/

namespace MeterPanel

/-! ## What is drawn -/

namespace Canvas

theorem keeps_setPixel (canvas : Canvas) (x y : UInt8) : Keeps canvas (canvas.setPixel x y) :=
  keeps_update canvas (pixelIndex x y) fun byte => byte ||| pixelMask y

theorem keeps_clearPixel (canvas : Canvas) (x y : UInt8) :
    Keeps canvas (canvas.clearPixel x y) :=
  keeps_update canvas (pixelIndex x y) fun byte => byte &&& ~~~pixelMask y

theorem keeps_invertCells (canvas : Canvas) (y start stop : UInt8) :
    Keeps canvas (canvas.invertCells y start stop) :=
  keeps_foldl _ (fun canvas _ => keeps_invertCell canvas _ y) _ canvas

/-- The memory of a blank canvas begins with the control byte, and drawing
keeps it. -/
theorem head?_frame {canvas : Canvas} (h : canvas.byteAt 0 = controlByte) :
    canvas.frame.head? = some controlByte := by
  rw [List.head?_eq_getElem?, getElem?_frame canvas (by omega), h]

end Canvas

open Canvas (Keeps) in
/-- Whatever a request draws, height and control byte stay. -/
theorem DisplayRequest.keeps_paint (panel : Panel) (canvas : Canvas)
    (request : DisplayRequest) : Keeps canvas (request.paint panel canvas) := by
  cases request with
  | setPixel x y => exact canvas.keeps_setPixel x y
  | clearPixel x y => exact canvas.keeps_clearPixel x y
  | clear immediate => exact canvas.keeps_clear
  | drawChar code x y style => exact canvas.keeps_drawChar code x y style
  | print codes x y clearLine immediate => exact canvas.keeps_drawLine codes x y clearLine
  | drawBars firstRow levels peaks => exact canvas.keeps_drawBars firstRow levels peaks
  | update reading =>
      exact (canvas.keeps_drawBars 0 reading.levels (some reading.peaks)).trans
        (Canvas.keeps_drawLine _ reading.status 0 panel.statusRow true)
  | screen request =>
      cases request with
      | clear => exact canvas.keeps_clear
      | write row column text =>
          simp only [paint]
          split
          · exact canvas.keeps_drawLine _ column row false
          · exact .refl canvas
      | highlight row start stop =>
          simp only [paint]
          split
          · exact canvas.keeps_invertCells row start stop
          · exact .refl canvas
      | flush => exact .refl canvas
      | size => exact .refl canvas
      | isReady => exact .refl canvas
  | powerUp => exact .refl canvas
  | sendFrame => exact .refl canvas
  | pixel x y => exact .refl canvas
  | setContrast contrast => exact .refl canvas
  | setDisplayOn on => exact .refl canvas
  | setInverted inverted => exact .refl canvas

namespace Display

section

variable {σ ε : Type} [Bus σ ε]

theorem canvas_step (request : DisplayRequest) (display : Display σ) :
    (display.step request).2.canvas = request.paint display.panel display.canvas := by
  rw [step_eq]

theorem panel_step (request : DisplayRequest) (display : Display σ) :
    (display.step request).2.panel = display.panel := by
  rw [step_eq]

/-- The picture after a session is what its requests paint, one after the
other. -/
theorem canvas_run (requests : List DisplayRequest) :
    ∀ display : Display σ,
      (display.run requests).canvas =
        requests.foldl (fun canvas request => request.paint display.panel canvas)
          display.canvas := by
  induction requests with
  | nil => intro display; rfl
  | cons request requests ih =>
      intro display
      rw [run_cons, ih, canvas_step, panel_step, List.foldl_cons]

theorem keeps_run (requests : List DisplayRequest) (display : Display σ) :
    Canvas.Keeps display.canvas (display.run requests).canvas := by
  rw [canvas_run]
  exact Canvas.keeps_foldl _
    (fun canvas request => request.keeps_paint display.panel canvas) requests display.canvas

end

end Display

/-! ## What is sent of it -/

/-- A transfer that is not a command. -/
def IsFrame (bytes : List UInt8) : Bool := bytes.head? ≠ some 0x80

/-- A reply that tells of success. -/
def DisplayReply.IsOk {ε : Type} (reply : DisplayReply ε) : Prop :=
  reply = .outcome (.ok ()) ∨ reply = .screen (.outcome (.ok ()))

namespace DisplayRequest

/-- Whether a request sends the picture. Only a flush looks at whether the
display is ready. -/
def sendsFrame (ready : Bool) : DisplayRequest → Bool
  | .sendFrame | .update _ => true
  | .clear immediate | .print _ _ _ _ immediate => immediate
  | .screen .flush => ready
  | _ => false

theorem sendsFrame_mono {ready ready' : Bool} (h : ready = true → ready' = true)
    {request : DisplayRequest} (hsends : request.sendsFrame ready = true) :
    request.sendsFrame ready' = true := by
  cases request with
  | screen request =>
      cases request with
      | flush => exact h hsends
      | _ => exact hsends
  | _ => exact hsends

/-- A request that sends the picture sends nothing else. -/
theorem plan_of_sendsFrame {panel : Panel} {canvas : Canvas} {ready : Bool}
    {request : DisplayRequest} (hsends : request.sendsFrame ready = true) :
    request.plan panel canvas ready = [canvas.frame] := by
  cases request with
  | sendFrame => rfl
  | update reading => rfl
  | clear immediate => exact if_pos hsends
  | print codes x y clearLine immediate => exact if_pos hsends
  | screen request =>
      cases request with
      | flush => exact if_pos hsends
      | _ => cases hsends
  | _ => cases hsends

/-- Any other request sends commands, if anything. -/
theorem commands_of_not_sendsFrame {panel : Panel} {canvas : Canvas} {ready : Bool}
    {request : DisplayRequest} (hsends : request.sendsFrame ready = false) :
    ∀ bytes ∈ request.plan panel canvas ready, ∃ byte, bytes = [0x80, byte] := by
  cases request with
  | powerUp =>
      simp only [plan]
      split
      · intro bytes hmem
        obtain ⟨byte, -, rfl⟩ := List.mem_map.1 hmem
        exact ⟨byte, rfl⟩
      · simp
  | screen request => cases request <;> simp_all [plan, sendsFrame]
  | _ => simp_all [plan, sendsFrame]

/-- A request that sends the picture on a ready display succeeds if it sends
it on this one and is not refused. -/
theorem isOk_answer_iff {ε : Type} {panel : Panel} {canvas : Canvas} {ready : Bool}
    {refusal : Option ε} {request : DisplayRequest} (hmay : request.sendsFrame true = true) :
    (request.answer panel canvas ready refusal).IsOk ↔
      request.sendsFrame ready = true ∧ refusal = none := by
  have houtcome : outcome refusal = .ok () ↔ refusal = none := by
    cases refusal <;> simp [outcome]
  cases request with
  | sendFrame => simp [DisplayReply.IsOk, answer, sendsFrame, houtcome]
  | update reading => simp [DisplayReply.IsOk, answer, sendsFrame, houtcome]
  | clear immediate =>
      have himmediate : immediate = true := hmay
      simp [DisplayReply.IsOk, answer, sendsFrame, houtcome, himmediate]
  | print codes x y clearLine immediate =>
      have himmediate : immediate = true := hmay
      simp [DisplayReply.IsOk, answer, sendsFrame, houtcome, himmediate]
  | screen request =>
      cases request with
      | flush => cases ready <;> cases refusal <;> simp [DisplayReply.IsOk, answer, sendsFrame]
      | _ => cases hmay
  | _ => cases hmay

end DisplayRequest

namespace Display

variable {σ ε : Type} [Bus σ ε]

/-- The pictures that a request attempts to send. -/
def framesOf (display : Display (RecordedBus σ ε)) (request : DisplayRequest) :
    List (List UInt8) :=
  ((display.attemptsOf request).map (·.bytes)).filter IsFrame

/-- A display after a session that began with nothing sent. -/
def session (bus : σ) (panel : Panel) (requests : List DisplayRequest) :
    Display (RecordedBus σ ε) :=
  (new (.fresh bus) panel).run requests

theorem panel_session (bus : σ) (panel : Panel) (requests : List DisplayRequest) :
    (session bus panel requests).panel = panel :=
  panel_run requests _

theorem keeps_session (bus : σ) (panel : Panel) (requests : List DisplayRequest) :
    Canvas.Keeps (.blank panel.height) (session bus panel requests).canvas := by
  have hkeeps := keeps_run requests (new (RecordedBus.fresh bus : RecordedBus σ ε) panel)
  exact hkeeps

theorem session_append (bus : σ) (panel : Panel) (requests : List DisplayRequest)
    (request : DisplayRequest) :
    session bus panel (requests ++ [request]) =
      ((session bus panel requests).step request).2 := by
  simp [session, run]

theorem isFrame_session (bus : σ) (panel : Panel) (requests : List DisplayRequest) :
    IsFrame (session bus panel requests).canvas.frame = true := by
  have hcontrol := (keeps_session bus panel requests).controlByte
  rw [Canvas.byteAt_zero_blank] at hcontrol
  rw [IsFrame, Canvas.head?_frame hcontrol]
  decide

/-- A request that sends the picture makes one attempt, with the finished
one. -/
theorem Meets.attemptsOf_eq {display : Display (RecordedBus σ ε)} {request : DisplayRequest}
    {refusal : Option ε} (hmeets : display.Meets request refusal)
    (hsends : request.sendsFrame display.ready = true) :
    display.attemptsOf request =
      [⟨display.panel.address, (display.step request).2.canvas.frame, refusal⟩] := by
  have hfollows := hmeets.follows
  rw [DisplayRequest.plan_of_sendsFrame hsends, ← canvas_step] at hfollows
  exact hfollows.eq_single

/-- Only a request that sends the picture attempts a transfer that is not a
command. -/
theorem sendsFrame_of_mem {display : Display (RecordedBus σ ε)} {request : DisplayRequest}
    {attempt : BusAttempt ε} (hmem : attempt ∈ display.attemptsOf request)
    (hframe : IsFrame attempt.bytes) : request.sendsFrame display.ready = true := by
  cases hsends : request.sendsFrame display.ready with
  | true => rfl
  | false =>
      obtain ⟨refusal, hmeets⟩ := display.exists_meets request
      have hplanned := hmeets.follows.inOrder.subset (List.mem_map_of_mem hmem)
      obtain ⟨byte, hbyte⟩ := DisplayRequest.commands_of_not_sendsFrame hsends _ hplanned
      simp [IsFrame, hbyte] at hframe

/-- A request attempts to send the finished picture once, or no picture at
all. Refusals play no part in it, except that they may have kept the display
from being ready. -/
theorem framesOf_eq {display : Display (RecordedBus σ ε)} {request : DisplayRequest}
    (hframe : IsFrame (display.step request).2.canvas.frame) :
    display.framesOf request =
      if request.sendsFrame display.ready then [(display.step request).2.canvas.frame] else [] := by
  by_cases hsends : request.sendsFrame display.ready = true
  · obtain ⟨refusal, hmeets⟩ := display.exists_meets request
    rw [if_pos hsends, framesOf, hmeets.attemptsOf_eq hsends]
    exact List.filter_cons_of_pos hframe
  · rw [if_neg hsends, framesOf, List.filter_eq_nil_iff]
    intro bytes hmem hpicture
    obtain ⟨attempt, htried, rfl⟩ := List.mem_map.1 hmem
    exact hsends (sendsFrame_of_mem htried hpicture)

theorem Meets.isOk_iff {display : Display (RecordedBus σ ε)} {request : DisplayRequest}
    {refusal : Option ε} (hmeets : display.Meets request refusal)
    (hmay : request.sendsFrame true = true) :
    (display.step request).1.IsOk ↔
      request.sendsFrame display.ready = true ∧ refusal = none := by
  rw [hmeets.reply]
  exact DisplayRequest.isOk_answer_iff hmay

/-- All that a request sends of pictures is this one, at most once. A request
that sends the picture on a ready display succeeds exactly if this is its one
attempt and the bus accepts it. -/
structure SendsPicture (display : Display (RecordedBus σ ε)) (request : DisplayRequest)
    (picture : Canvas) : Prop where
  frames : display.framesOf request =
    if request.sendsFrame display.ready then [picture.frame] else []
  isOk_iff : request.sendsFrame true = true →
    ((display.step request).1.IsOk ↔
      display.attemptsOf request = [⟨display.panel.address, picture.frame, none⟩])

theorem sendsPicture {display : Display (RecordedBus σ ε)} {request : DisplayRequest}
    (hframe : IsFrame (display.step request).2.canvas.frame) :
    display.SendsPicture request (display.step request).2.canvas where
  frames := framesOf_eq hframe
  isOk_iff := by
    intro hmay
    obtain ⟨refusal, hmeets⟩ := display.exists_meets request
    rw [hmeets.isOk_iff hmay]
    constructor
    · rintro ⟨hsends, rfl⟩
      exact hmeets.attemptsOf_eq hsends
    · intro htried
      have hmem : ⟨display.panel.address, (display.step request).2.canvas.frame, none⟩ ∈
          display.attemptsOf request := by
        rw [htried]
        exact List.mem_singleton_self _
      refine ⟨sendsFrame_of_mem hmem hframe, hmeets.follows.refusal_eq_none ?_⟩
      simp [htried]

theorem isFrame_step_session (bus : σ) (panel : Panel) (requests : List DisplayRequest)
    (request : DisplayRequest) :
    IsFrame ((session bus panel requests).step request).2.canvas.frame = true := by
  rw [← session_append]
  exact isFrame_session bus panel (requests ++ [request])

end Display

/-! ## Two buses -/

/-- Two displays look alike: they hold the same bytes for the same height, and
answer alike when asked for pixels or for the size of the screen. -/
structure Display.Alike {σ ε σ' ε' : Type} [Bus σ ε] [Bus σ' ε'] (one : Display σ)
    (other : Display σ') : Prop where
  bytes : one.canvas.bytes = other.canvas.bytes
  height : one.canvas.height = other.canvas.height
  pixel : ∀ x y, ∃ lit, (one.step (.pixel x y)).1 = .lit lit ∧
    (other.step (.pixel x y)).1 = .lit lit
  size : ∃ columns rows, (one.step (.screen .size)).1 = .screen (.size columns rows) ∧
    (other.step (.screen .size)).1 = .screen (.size columns rows)

namespace Display

section

variable {σ ε σ' ε' : Type} [Bus σ ε] [Bus σ' ε']

theorem alike_of_eq {one : Display σ} {other : Display σ'} (hpanel : one.panel = other.panel)
    (hcanvas : one.canvas = other.canvas) : one.Alike other where
  bytes := by rw [hcanvas]
  height := by rw [hcanvas]
  pixel x y := by
    refine ⟨other.canvas.pixel x y, ?_, ?_⟩ <;> simp [step_eq, DisplayRequest.answer,
      DisplayRequest.paint, hcanvas]
  size := by
    refine ⟨20, other.panel.textRows, ?_, ?_⟩ <;> simp [step_eq, DisplayRequest.answer, hpanel]

theorem canvas_session_eq (bus : σ) (bus' : σ') (panel : Panel)
    (requests : List DisplayRequest) :
    (session bus panel requests).canvas = (session bus' panel requests).canvas := by
  rw [session, session, canvas_run, canvas_run]
  rfl

theorem alike_session (bus : σ) (bus' : σ') (panel : Panel) (requests : List DisplayRequest) :
    (session bus panel requests).Alike (session bus' panel requests) :=
  alike_of_eq (by rw [panel_session, panel_session])
    (canvas_session_eq bus bus' panel requests)

end

/-! ## A bus that refuses nothing -/

section

variable {σ ε τ : Type} [Bus σ ε] [Bus τ Empty]

/-- No request meets a refusal. -/
theorem meets_none (willing : Display (RecordedBus τ Empty)) (request : DisplayRequest) :
    willing.Meets request none := by
  obtain ⟨refusal, hmeets⟩ := willing.exists_meets request
  cases refusal with
  | none => exact hmeets
  | some fault => exact fault.elim

/-- A power-up that went through on some bus goes through where nothing is
refused. -/
theorem ready_step_of_no_refusal {one : Display (RecordedBus σ ε)}
    {willing : Display (RecordedBus τ Empty)} (hpanel : one.panel = willing.panel)
    (hready : one.ready = true → willing.ready = true) (request : DisplayRequest)
    (h : (one.step request).2.ready = true) : (willing.step request).2.ready = true := by
  obtain ⟨refusal, hmeets⟩ := one.exists_meets request
  rw [hmeets.ready] at h
  rw [(willing.meets_none request).ready, ← hpanel]
  cases request with
  | powerUp =>
      simp only [DisplayRequest.readyAfter, Bool.or_eq_true, Bool.and_eq_true] at h ⊢
      exact h.imp hready fun h => ⟨h.1, rfl⟩
  | _ => exact hready h

theorem ready_run_of_no_refusal (requests : List DisplayRequest) :
    ∀ {one : Display (RecordedBus σ ε)} {willing : Display (RecordedBus τ Empty)},
      one.panel = willing.panel → (one.ready = true → willing.ready = true) →
        (one.run requests).ready = true → (willing.run requests).ready = true := by
  induction requests with
  | nil => intro one willing _ hready h; exact hready h
  | cons request requests ih =>
      intro one willing hpanel hready h
      refine ih ?_ (ready_step_of_no_refusal hpanel hready request) h
      rw [panel_step, panel_step, hpanel]

theorem sendsFrame_unrefused (bus : σ) (willing : τ) (panel : Panel)
    (requests : List DisplayRequest) {request : DisplayRequest}
    (hsends : request.sendsFrame (session bus panel requests).ready = true) :
    request.sendsFrame (session willing panel requests).ready = true := by
  have hready : (session bus panel requests).ready = true →
      (session willing panel requests).ready = true :=
    ready_run_of_no_refusal requests rfl id
  exact DisplayRequest.sendsFrame_mono hready hsends

/-- A request that sends the picture on some bus sends it where nothing is
refused, and what succeeds there succeeds here. -/
theorem succeeds_unrefused (bus : σ) (willing : τ) (panel : Panel)
    (requests : List DisplayRequest) {request : DisplayRequest}
    (hmay : request.sendsFrame true = true)
    (hok : ((session bus panel requests).step request).1.IsOk) :
    request.sendsFrame (session bus panel requests).ready = true ∧
      ((session willing panel requests).step request).1.IsOk := by
  obtain ⟨refusal, hmeets⟩ := (session bus panel requests).exists_meets request
  have hsends := ((hmeets.isOk_iff hmay).1 hok).1
  have hsends' := sendsFrame_unrefused bus willing panel requests hsends
  exact ⟨hsends, ((meets_none _ request).isOk_iff hmay).2 ⟨hsends', rfl⟩⟩

end

/-- Refusals never disturb the picture. Two sessions with the same requests
look alike after every request, whatever their buses answer, and what a
request sends of the picture is the finished picture in both.

A request that sends the picture on a ready display succeeds only by sending
it. It is then what a bus that refuses nothing is sent at the same point. -/
theorem same_picture_on_any_bus {σ ε σ' ε' τ : Type} [Bus σ ε] [Bus σ' ε'] [Bus τ Empty]
    (bus : σ) (bus' : σ') (willing : τ) (panel : Panel) (requests : List DisplayRequest)
    (request : DisplayRequest) :
    let one := session bus panel requests
    let other := session bus' panel requests
    let unrefused := session willing panel requests
    let picture := (one.step request).2.canvas
    one.Alike other ∧
      (one.step request).2.Alike (other.step request).2 ∧
      (one.step request).2.Alike (unrefused.step request).2 ∧
      picture = request.paint panel one.canvas ∧
      one.SendsPicture request picture ∧
      other.SendsPicture request picture ∧
      unrefused.SendsPicture request picture ∧
      one.framesOf request <+: unrefused.framesOf request ∧
      (request.sendsFrame true = true → (one.step request).1.IsOk →
        (unrefused.step request).1.IsOk ∧
          one.framesOf request = [picture.frame] ∧
          unrefused.framesOf request = [picture.frame]) := by
  intro one other unrefused picture
  have hother := alike_session bus bus' panel (requests ++ [request])
  have hunrefused := alike_session bus willing panel (requests ++ [request])
  have hpicture := canvas_session_eq bus bus' panel (requests ++ [request])
  have hpicture' := canvas_session_eq bus willing panel (requests ++ [request])
  rw [session_append, session_append] at hother hunrefused hpicture hpicture'
  have hone : one.SendsPicture request picture :=
    sendsPicture (isFrame_step_session bus panel requests request)
  have hsent : other.SendsPicture request picture := by
    have hsent := sendsPicture (isFrame_step_session bus' panel requests request)
    rwa [← hpicture] at hsent
  have hsent' : unrefused.SendsPicture request picture := by
    have hsent := sendsPicture (isFrame_step_session willing panel requests request)
    rwa [← hpicture'] at hsent
  have hboth : request.sendsFrame one.ready = true →
      one.framesOf request = [picture.frame] ∧ unrefused.framesOf request = [picture.frame] := by
    intro hsends
    have hsends' := sendsFrame_unrefused bus willing panel requests hsends
    exact ⟨hone.frames.trans (if_pos hsends), hsent'.frames.trans (if_pos hsends')⟩
  refine ⟨alike_session bus bus' panel requests, hother, hunrefused, ?_, hone, hsent, hsent',
    ?_, ?_⟩
  · show (one.step request).2.canvas = _
    rw [canvas_step, panel_session]
  · by_cases hsends : request.sendsFrame one.ready = true
    · obtain ⟨hframes, hframes'⟩ := hboth hsends
      exact ⟨[], by rw [hframes, hframes', List.append_nil]⟩
    · rw [hone.frames, if_neg hsends]
      exact List.nil_prefix
  · intro hmay hok
    obtain ⟨hsends, hok'⟩ := succeeds_unrefused bus willing panel requests hmay hok
    exact ⟨hok', hboth hsends⟩

end Display

end MeterPanel
