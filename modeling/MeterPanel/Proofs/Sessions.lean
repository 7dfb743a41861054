import MeterPanel.Proofs.Requests

/-!
# Sessions

A session starts with a display to which nothing has been sent and is any list
of requests. Whatever the bus refuses on the way, each request carries out its
own plan up to and including the first refusal, sends to the address of the
panel only, and answers with that refusal.

A display is ready when some earlier power-up of the session went through.

## Main results

* `ready_run` — when a display is ready.
* `attempts_of_request` — what a request of a session sends and answers.
-/

namespace MeterPanel.Display

variable {σ ε : Type} [Bus σ ε]

/-- Some power-up among the requests went through. -/
def PoweredUp (display : Display σ) (requests : List DisplayRequest) : Prop :=
  ∃ earlier later, requests = earlier ++ .powerUp :: later ∧
    ((display.run earlier).step .powerUp).1 = .outcome (.ok ())

private theorem not_poweredUp_nil (display : Display σ) : ¬ display.PoweredUp [] := by
  intro ⟨earlier, later, h, _⟩
  cases earlier <;> cases h

private theorem poweredUp_cons (request : DisplayRequest) (requests : List DisplayRequest)
    (display : Display σ) :
    display.PoweredUp (request :: requests) ↔
      (request = .powerUp ∧ (display.step request).1 = .outcome (.ok ())) ∨
        (display.step request).2.PoweredUp requests := by
  constructor
  · intro ⟨earlier, later, hsplit, hreply⟩
    cases earlier with
    | nil =>
        obtain ⟨rfl, -⟩ := List.cons.inj hsplit
        exact .inl ⟨rfl, hreply⟩
    | cons first earlier =>
        obtain ⟨rfl, hrest⟩ := List.cons.inj hsplit
        exact .inr ⟨earlier, later, hrest, hreply⟩
  · intro h
    rcases h with ⟨rfl, hreply⟩ | ⟨earlier, later, rfl, hreply⟩
    · exact ⟨[], requests, rfl, hreply⟩
    · exact ⟨request :: earlier, later, rfl, hreply⟩

theorem ready_step (request : DisplayRequest) (display : Display σ) :
    (display.step request).2.ready = true ↔
      display.ready = true ∨
        (request = .powerUp ∧ (display.step request).1 = .outcome (.ok ())) := by
  rw [step_eq]
  cases request with
  | powerUp =>
      simp only [DisplayRequest.readyAfter, DisplayRequest.answer, true_and]
      by_cases hsupported : display.panel.Supported
      · cases (Bus.writeAll display.panel.address
            (DisplayRequest.powerUp.plan display.panel
              (DisplayRequest.powerUp.paint display.panel display.canvas) display.ready)
            display.bus).1 with
        | none => simp [hsupported, DisplayRequest.outcome]
        | some fault => simp [hsupported, DisplayRequest.outcome]
      · simp [hsupported]
  | _ => simp [DisplayRequest.readyAfter]

/-- A display is ready if it was so before, or once a power-up has gone
through. -/
theorem ready_run (requests : List DisplayRequest) :
    ∀ display : Display σ,
      (display.run requests).ready = true ↔
        display.ready = true ∨ display.PoweredUp requests := by
  induction requests with
  | nil =>
      intro display
      rw [run_nil]
      exact ⟨.inl, fun h => h.resolve_right display.not_poweredUp_nil⟩
  | cons request requests ih =>
      intro display
      rw [run_cons, ih, ready_step, poweredUp_cons, or_assoc]

/-- Nothing is sent before the first request. Any later request carries out
its plan up to and including the first refusal, and answers with it. The plan of
a power-up has thirty commands. -/
theorem attempts_of_request (bus : σ) (panel : Panel) (requests : List DisplayRequest)
    (request : DisplayRequest) :
    let start := Display.new (RecordedBus.fresh bus : RecordedBus σ ε) panel
    let before := start.run requests
    let after := (before.step request).2
    start.bus.attempts = [] ∧
      panel.powerUpSequence.length = 30 ∧
      (before.ready = true ↔ start.PoweredUp requests) ∧
      after.canvas = request.paint panel before.canvas ∧
      ∃ tried refusal,
        after.bus.attempts = before.bus.attempts ++ tried ∧
          Follows panel.address (request.plan panel after.canvas before.ready) tried refusal ∧
          (before.step request).1 = request.answer panel after.canvas before.ready refusal := by
  intro start before after
  have hpanel : before.panel = panel := panel_run requests start
  have hready : before.ready = true ↔ start.PoweredUp requests := by
    refine (ready_run requests start).trans ⟨fun h => h.resolve_left ?_, .inr⟩
    exact Bool.false_ne_true
  have hstep := step_eq request before
  rw [hpanel] at hstep
  have hcanvas : after.canvas = request.paint panel before.canvas :=
    congrArg (fun result => result.2.canvas) hstep
  obtain ⟨tried, hattempts, hfollows⟩ := RecordedBus.follows_writeAll panel.address
    (request.plan panel after.canvas before.ready) before.bus
  refine ⟨rfl, panel.length_powerUpSequence, hready, hcanvas, tried, _, ?_, hfollows, ?_⟩
  · rw [← hattempts, hcanvas]
    exact congrArg (fun result => result.2.bus.attempts) hstep
  · rw [hcanvas]
    exact congrArg (fun result => result.1) hstep

end MeterPanel.Display
