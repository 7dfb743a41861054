import MeterPanel.Proofs.AddressWindow
import MeterPanel.Proofs.SessionPictures
import MeterPanel.Proofs.Sessions

/-!
# When a display is ready

A display becomes ready by a power-up that goes through, and a power-up goes
through exactly if the bus accepts all of its thirty commands within the one
request. No other request attempts that many writes, and a power-up that is
refused half-way leaves the display as ready as it was.

A ready display has a panel of a supported height. Its frames carry as much
picture data as fills the window that the power-up has set, so that every
frame starts at the first byte of the window again.

## Main results

* `acceptedPowerUp_infix_iff` — a request that gets a whole power-up accepted.
* `programmed_iff` — a session in which one did.
* `supported_of_poweredUp` — the panel of a display that was powered up.
* `step_flush_of_ready`, `step_flush_of_not_ready` — what a flush does.
* `ready_session` — all of this, after any session.
-/

namespace MeterPanel

/-- The attempts of a power-up that is accepted as a whole. -/
def Panel.acceptedPowerUp {ε : Type} (panel : Panel) : List (BusAttempt ε) :=
  panel.powerUpSequence.map fun byte => ⟨panel.address, [0x80, byte], none⟩

/-- Only a power-up means to send more than two transfers. -/
theorem DisplayRequest.length_plan_le (panel : Panel) (canvas : Canvas) (ready : Bool)
    {request : DisplayRequest} (h : request ≠ .powerUp) :
    (request.plan panel canvas ready).length ≤ 2 := by
  cases request with
  | powerUp => exact absurd rfl h
  | clear immediate => cases immediate <;> simp [plan]
  | print codes x y clearLine immediate => cases immediate <;> simp [plan]
  | screen request =>
      cases request with
      | flush => cases ready <;> simp [plan]
      | _ => simp [plan]
  | _ => simp [plan]

namespace Display

section

variable {σ ε : Type} [Bus σ ε]

/-! ## Power-ups -/

/-- A power-up goes through when the panel is supported and nothing is
refused. -/
theorem reply_powerUp_eq_ok_iff {display : Display (RecordedBus σ ε)} {refusal : Option ε}
    (h : display.Meets .powerUp refusal) :
    (display.step .powerUp).1 = .outcome (.ok ()) ↔ display.panel.Supported ∧ refusal = none := by
  rw [h.reply]
  by_cases hsupported : display.panel.Supported
  · cases refusal <;> simp [DisplayRequest.answer, DisplayRequest.outcome, hsupported]
  · simp [DisplayRequest.answer, hsupported]

/-- No request but a power-up of a supported panel attempts thirty writes. -/
theorem powerUp_of_thirty_attempts {display : Display (RecordedBus σ ε)}
    {request : DisplayRequest} (h : 30 ≤ (display.attemptsOf request).length) :
    request = .powerUp ∧ display.panel.Supported := by
  obtain ⟨refusal, hmeets⟩ := display.exists_meets request
  have hlength := hmeets.follows.length_le
  have hpowerUp : request = .powerUp := by
    refine Classical.byContradiction fun hother => ?_
    have htwo := DisplayRequest.length_plan_le display.panel
      (request.paint display.panel display.canvas) display.ready hother
    omega
  subst hpowerUp
  refine ⟨rfl, ?_⟩
  by_cases hsupported : display.panel.Supported
  · exact hsupported
  · simp only [DisplayRequest.plan, if_neg hsupported, List.length_nil] at hlength
    omega

theorem length_attemptsOf_powerUp_le (display : Display (RecordedBus σ ε)) :
    (display.attemptsOf .powerUp).length ≤ 30 := by
  obtain ⟨refusal, hmeets⟩ := display.exists_meets .powerUp
  refine Nat.le_trans hmeets.follows.length_le ?_
  simp only [DisplayRequest.plan]
  split
  · exact Nat.le_refl 30
  · exact Nat.zero_le 30

/-- A request gets a whole power-up accepted if it is a power-up that goes
through. -/
theorem acceptedPowerUp_infix_iff (display : Display (RecordedBus σ ε))
    (request : DisplayRequest) :
    display.panel.acceptedPowerUp <:+: display.attemptsOf request ↔
      request = .powerUp ∧ (display.step request).1 = .outcome (.ok ()) := by
  obtain ⟨refusal, hmeets⟩ := display.exists_meets request
  constructor
  · intro hinfix
    obtain ⟨rfl, hsupported⟩ := powerUp_of_thirty_attempts hinfix.length_le
    -- nothing but the thirty accepted writes has been attempted
    have hlength := Nat.le_antisymm hinfix.length_le (length_attemptsOf_powerUp_le display)
    have heq := hinfix.eq_of_length hlength
    refine ⟨rfl, (reply_powerUp_eq_ok_iff hmeets).2 ⟨hsupported, ?_⟩⟩
    apply hmeets.follows.refusal_eq_none
    rw [← heq]
    simp [Panel.acceptedPowerUp]
  · rintro ⟨rfl, hreply⟩
    obtain ⟨hsupported, rfl⟩ := (reply_powerUp_eq_ok_iff hmeets).1 hreply
    rw [hmeets.follows.eq_map]
    simp only [DisplayRequest.plan, if_pos hsupported, List.map_map]
    exact List.infix_refl _

/-- At some request of a session the bus has accepted a whole power-up. -/
def Programmed (display : Display (RecordedBus σ ε)) (requests : List DisplayRequest) : Prop :=
  ∃ earlier request later, requests = earlier ++ request :: later ∧
    display.panel.acceptedPowerUp <:+: (display.run earlier).attemptsOf request

theorem programmed_iff (display : Display (RecordedBus σ ε)) (requests : List DisplayRequest) :
    display.Programmed requests ↔ display.PoweredUp requests := by
  constructor
  · rintro ⟨earlier, request, later, hsplit, hinfix⟩
    rw [← panel_run earlier display] at hinfix
    obtain ⟨rfl, hreply⟩ := (acceptedPowerUp_infix_iff _ request).1 hinfix
    exact ⟨earlier, later, hsplit, hreply⟩
  · rintro ⟨earlier, later, hsplit, hreply⟩
    refine ⟨earlier, .powerUp, later, hsplit, ?_⟩
    rw [← panel_run earlier display]
    exact (acceptedPowerUp_infix_iff _ .powerUp).2 ⟨rfl, hreply⟩

/-! ## Ready displays -/

theorem ready_session_iff (bus : σ) (panel : Panel) (requests : List DisplayRequest) :
    (session bus panel requests).ready = true ↔
      (new (RecordedBus.fresh bus : RecordedBus σ ε) panel).PoweredUp requests :=
  (ready_run requests _).trans ⟨fun h => h.resolve_left Bool.false_ne_true, .inr⟩

theorem supported_of_poweredUp {display : Display (RecordedBus σ ε)}
    {requests : List DisplayRequest} (h : display.PoweredUp requests) :
    display.panel.Supported := by
  obtain ⟨earlier, later, rfl, hreply⟩ := h
  obtain ⟨refusal, hmeets⟩ := (display.run earlier).exists_meets .powerUp
  rw [← panel_run earlier display]
  exact ((reply_powerUp_eq_ok_iff hmeets).1 hreply).1

/-- Frames of a supported panel carry what fills the window of a power-up. -/
theorem length_frame_session {panel : Panel} (hsupported : panel.Supported) (bus : σ)
    (requests : List DisplayRequest) :
    (session bus panel requests).canvas.frame.length =
      1 + 128 * (panel.pageRangeEnd.toNat + 1) := by
  have hheight : (session bus panel requests).canvas.height = panel.height :=
    (keeps_session bus panel requests).height
  rw [Canvas.length_frame, hheight]
  rcases hsupported with h | h <;> rw [Panel.pageRangeEnd, h] <;> rfl

theorem ready_run_of_ready {display : Display σ} (h : display.ready = true)
    (requests : List DisplayRequest) : (display.run requests).ready = true :=
  (ready_run requests display).2 (.inl h)

/-! ## Flushes -/

/-- A display that is not ready does not flush. -/
theorem step_flush_of_not_ready {display : Display σ} (h : display.ready = false) :
    display.step (.screen .flush) = (.screen (.outcome (.error .notReady)), display) := by
  obtain ⟨bus, panel, canvas, ready⟩ := display
  obtain rfl : ready = false := h
  rw [step_eq]
  rfl

/-- A ready display flushes by sending its picture, and any refusal becomes a
failed communication. -/
theorem step_flush_of_ready {display : Display σ} (h : display.ready = true) :
    ∃ result next, display.step .sendFrame = (.outcome result, next) ∧
      display.step (.screen .flush) =
        (.screen (.outcome (result.mapError fun _ => .communication)), next) := by
  obtain ⟨bus, panel, canvas, ready⟩ := display
  obtain rfl : ready = true := h
  have hsend := step_eq .sendFrame (Display.mk bus panel canvas true)
  have hflush := step_eq (.screen .flush) (Display.mk bus panel canvas true)
  refine ⟨_, _, hsend, hflush.trans ?_⟩
  simp only [DisplayRequest.paint, DisplayRequest.plan, DisplayRequest.answer,
    DisplayRequest.readyAfter, ↓reduceIte]
  cases (Bus.writeAll panel.address [canvas.frame] bus).1 <;> rfl

/-! ## After a session -/

/-- A display is ready exactly if a power-up of the session went through, that
is, if the bus accepted all of its commands within one request; then its
frames fill the window of that power-up, it stays ready, and a flush is a
frame write. A display that is not ready does not flush and stays as it is. -/
theorem ready_session (bus : σ) (panel : Panel) (requests : List DisplayRequest) :
    let start : Display (RecordedBus σ ε) := new (.fresh bus) panel
    let now := start.run requests
    (now.step (.screen .isReady)).1 = .screen (.ready now.ready) ∧
      (now.ready = true ↔ start.PoweredUp requests) ∧
      (now.ready = true ↔ start.Programmed requests) ∧
      (now.ready = true →
        (panel.height = 32 ∨ panel.height = 64) ∧
          now.canvas.frame.length - 1 = 128 * (panel.pageRangeEnd.toNat + 1) ∧
          (∀ controller : Panel.Controller,
            (controller.receiveAll panel.powerUpSequence).window.size =
              now.canvas.frame.length - 1) ∧
          (∀ more, (now.run more).ready = true) ∧
          ∃ result next, now.step .sendFrame = (.outcome result, next) ∧
            now.step (.screen .flush) =
              (.screen (.outcome (result.mapError fun _ => .communication)), next)) ∧
      (now.ready = false →
        now.step (.screen .flush) = (.screen (.outcome (.error .notReady)), now)) := by
  intro start now
  have hready : now.ready = true ↔ start.PoweredUp requests :=
    ready_session_iff bus panel requests
  refine ⟨?_, hready, hready.trans (programmed_iff start requests).symm, ?_,
    step_flush_of_not_ready⟩
  · rw [step_eq]
    rfl
  · intro hnow
    have hsupported : panel.Supported := supported_of_poweredUp (hready.1 hnow)
    have hlength : now.canvas.frame.length - 1 = 128 * (panel.pageRangeEnd.toNat + 1) := by
      have := length_frame_session hsupported bus requests
      show (session bus panel requests).canvas.frame.length - 1 = _
      omega
    refine ⟨hsupported, hlength, fun controller => ?_, ready_run_of_ready hnow,
      step_flush_of_ready hnow⟩
    rw [hlength]
    exact Panel.size_powerUp panel controller

end

end Display

end MeterPanel
