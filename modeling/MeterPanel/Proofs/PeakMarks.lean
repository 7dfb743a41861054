import MeterPanel.Proofs.LevelPixels
import MeterPanel.Proofs.MeterBounds
import MeterPanel.Proofs.ReadingPicture
import MeterPanel.Proofs.SessionPictures

/-!
# Where the mark of a peak stands

A tick or a reset leaves no peak below its level, and until a level is set
again that stays so. A reading taken then has every peak at or above its
level, scaling keeps their order, and in the picture the mark of the peak is
the topmost pixel of the bar: on the fill, or above it with a gap between.

## Main results

* `peaksUp_run` — a settled run leaves no peak below its level.
* `markedColumn_of_lights` — the pixels of a level with a peak at or above it.
* `peak_marks_top_of_bar` — the columns of a bar after an update.
-/

namespace MeterPanel

/-! ## Settled runs -/

namespace MeterEvent

/-- Whether an event sets levels. -/
def setsLevels : MeterEvent → Bool
  | .setLevel _ _ | .setLevels _ => true
  | _ => false

/-- Whether an event brings the peaks to their levels. -/
def settles : MeterEvent → Bool
  | .tick | .reset => true
  | _ => false

/-- Every event of the run that sets levels is followed by a tick or a reset
later in the run. -/
def Settled : List MeterEvent → Prop
  | [] => True
  | event :: later =>
      (event.setsLevels = true → ∃ next ∈ later, next.settles = true) ∧ Settled later

instance decidableSettled : (events : List MeterEvent) → Decidable (Settled events)
  | [] => inferInstanceAs (Decidable True)
  | event :: later =>
      have := decidableSettled later
      inferInstanceAs (Decidable ((event.setsLevels = true → ∃ next ∈ later, next.settles = true) ∧
        Settled later))

end MeterEvent

open MeterEvent (Settled)

theorem Channel.level_le_peak_silent : silent.level ≤ silent.peak := by decide

namespace Meter

/-- Every channel keeps its bounds. -/
def AllSound (meter : Meter) : Prop :=
  ∀ c : Fin Bar.channelCount, (meter.channels.get c).Sound meter.config

/-- No peak is below its level. -/
def PeaksUp (meter : Meter) : Prop :=
  ∀ c : Fin Bar.channelCount, (meter.channels.get c).level ≤ (meter.channels.get c).peak

theorem allSound_silent (config : MeterConfig) : (silent config).AllSound := by
  intro c
  rw [channel_silent]
  exact Channel.sound_silent config

theorem peaksUp_silent (config : MeterConfig) : (silent config).PeaksUp := by
  intro c
  rw [channel_silent]
  exact Channel.level_le_peak_silent

theorem AllSound.apply {meter : Meter} (h : meter.AllSound) (event : MeterEvent) :
    (meter.apply event).AllSound := by
  intro c
  have hsound := h c
  rw [channel_apply, config_apply]
  cases event with
  | setLevel channel level =>
      dsimp only
      split
      · exact hsound.withLevel (Channel.inUnit_clampLevel level)
      · exact hsound
  | setLevels levels => exact hsound.withLevel (Channel.inUnit_clampLevel (levels.get c))
  | setStatus text => exact hsound
  | tick => exact hsound.tick
  | reset => exact Channel.sound_silent meter.config

/-- A tick or a reset brings every peak up to its level. -/
theorem peaksUp_apply_of_settles {meter : Meter} (h : meter.AllSound) {event : MeterEvent}
    (hevent : event.settles = true) : (meter.apply event).PeaksUp := by
  intro c
  rw [channel_apply]
  cases event with
  | tick => exact Channel.level_le_peak_tick (h c)
  | reset => exact Channel.level_le_peak_silent
  | _ => cases hevent

/-- An event that sets no level lets the peaks stay up. -/
theorem PeaksUp.apply {meter : Meter} (h : meter.PeaksUp) (hsound : meter.AllSound)
    {event : MeterEvent} (hevent : event.setsLevels = false) : (meter.apply event).PeaksUp := by
  cases event with
  | setStatus text => exact h
  | tick => exact peaksUp_apply_of_settles hsound rfl
  | reset => exact peaksUp_apply_of_settles hsound rfl
  | _ => cases hevent

/-- A settled run brings the peaks up by its last tick or reset, and without
one it lets them stay up. -/
theorem peaksUp_run (events : List MeterEvent) :
    ∀ {meter : Meter}, meter.AllSound → Settled events →
      meter.PeaksUp ∨ (∃ event ∈ events, event.settles = true) → (meter.run events).PeaksUp := by
  induction events with
  | nil =>
      rintro meter - - (h | ⟨event, hmem, -⟩)
      · exact h
      · cases hmem
  | cons event later ih =>
      intro meter hsound hsettled hup
      refine ih (hsound.apply event) hsettled.2 ?_
      by_cases hlater : ∃ next ∈ later, next.settles = true
      · exact .inr hlater
      · have hquiet : event.setsLevels = false :=
          Bool.eq_false_iff.2 fun hsets => hlater (hsettled.1 hsets)
        left
        rcases hup with hup | ⟨next, hmem, hsettles⟩
        · exact hup.apply hsound hquiet
        · rcases List.mem_cons.1 hmem with rfl | hmem
          · exact peaksUp_apply_of_settles hsound hsettles
          · exact absurd ⟨next, hmem, hsettles⟩ hlater

end Meter

/-! ## Columns of a bar -/

/-- A column of so many pixels, counted from its foot, shows a level and the
mark of a peak: the level is filled, the mark is the topmost pixel that is
lit, and between the two it is dark. -/
structure MarkedColumn (height level peak : Nat) (lit : Nat → Bool) : Prop where
  level_le : level ≤ peak
  peak_le : peak ≤ height
  filled : ∀ v, v < level → lit v = true
  gap : ∀ v, level ≤ v → v + 1 < peak → lit v = false
  top : 0 < peak → lit (peak - 1) = true
  above : ∀ v, peak ≤ v → v < height → lit v = false
  count : (List.range height).countP lit = level + if level < peak then 1 else 0

/-- The lit pixels below a height. -/
private theorem countP_lights {level peak : Nat} (h : level ≤ peak) (n : Nat) :
    ((List.range n).countP fun v => decide (v < level) || decide (v + 1 = peak)) =
      min n level + if level < peak ∧ peak ≤ n then 1 else 0 := by
  induction n with
  | zero => simp; omega
  | succ n ih =>
      rw [List.range_succ, List.countP_append, ih, List.countP_singleton]
      simp only [Bool.or_eq_true, decide_eq_true_eq]
      split <;> split <;> split <;> omega

theorem markedColumn_of_lights {height level peak : Nat} {lit : Nat → Bool} (hle : level ≤ peak)
    (hroom : peak ≤ height)
    (hlit : ∀ v, v < height → lit v = (decide (v < level) || decide (v + 1 = peak))) :
    MarkedColumn height level peak lit where
  level_le := hle
  peak_le := hroom
  filled := by
    intro v hv
    rw [hlit v (by omega), decide_eq_true hv, Bool.true_or]
  gap := by
    intro v hlow hhigh
    rw [hlit v (by omega), decide_eq_false (by omega), decide_eq_false (by omega), Bool.or_false]
  top := by
    intro hpos
    rw [hlit (peak - 1) (by omega), decide_eq_true (show peak - 1 + 1 = peak by omega),
      Bool.or_true]
  above := by
    intro v hlow hhigh
    rw [hlit v hhigh, decide_eq_false (by omega), decide_eq_false (by omega), Bool.or_false]
  count := by
    have hcount : (List.range height).countP lit =
        (List.range height).countP fun v => decide (v < level) || decide (v + 1 = peak) := by
      refine List.countP_congr fun v hmem => ?_
      rw [hlit v (List.mem_range.1 hmem)]
    rw [hcount, countP_lights hle]
    split <;> split <;> omega

/-- The pixel at height `v` above the foot of a bar of a panel, in one of its
columns. -/
def Canvas.barPixel (canvas : Canvas) (panel : Panel) (bar : Fin Bar.channelCount)
    (column : Fin Bar.width) (v : Nat) : Bool :=
  canvas.pixel (UInt8.ofNat (2 + 14 * bar + column))
    (UInt8.ofNat (panel.bars.height.toNat - 1 - v))

/-- A reading whose peak is not below its level shows it so. -/
theorem Shows.markedColumn {panel : Panel} {reading : Reading} {before after : Canvas}
    (h : Shows panel reading before after) (bar : Fin Bar.channelCount)
    (hle : reading.levels.get bar ≤ reading.peaks.get bar) (column : Fin Bar.width) :
    MarkedColumn panel.bars.height.toNat (panel.bars.pixels (reading.levels.get bar)).toNat
      (panel.bars.pixels (reading.peaks.get bar)).toNat (after.barPixel panel bar column) := by
  refine markedColumn_of_lights (UInt8.le_iff_toNat_le.1 (panel.bars.pixels_mono hle))
    (UInt8.le_iff_toNat_le.1 (panel.bars.pixels_le _)) fun v hv => ?_
  have hbars := h.bars bar column (panel.bars.height.toNat - 1 - v) (by omega)
  rw [show panel.bars.height.toNat - 1 - (panel.bars.height.toNat - 1 - v) = v by omega] at hbars
  exact hbars

/-! ## The picture of a meter -/

namespace Meter

theorem levels_reading (meter : Meter) (c : Fin Bar.channelCount) :
    meter.reading.levels.get c = (meter.channels.get c).level :=
  Vector.getElem_map _ c.isLt

theorem peaks_reading (meter : Meter) (c : Fin Bar.channelCount) :
    meter.reading.peaks.get c = (meter.channels.get c).peak :=
  Vector.getElem_map _ c.isLt

variable {σ ε : Type} [Bus σ ε]

/-- After a run in which every level that was set has met a tick or a reset,
an update shows each bar with the mark of its peak on top, in all its columns,
whatever the picture was before and whatever the bus answers. -/
theorem peak_marks_top_of_bar (config : MeterConfig) {events : List MeterEvent}
    (hsettled : Settled events) (bus : σ) (panel : Panel) (bytes : Vector UInt8 1025)
    (ready : Bool) (bar : Fin Bar.channelCount) (column : Fin Bar.width) :
    let meter := (silent config).run events
    let before : Canvas := ⟨bytes, panel.height⟩
    let after := ((Display.mk bus panel before ready).step (.update meter.reading)).2
    MarkedColumn panel.bars.height.toNat
      (panel.bars.pixels (meter.channels.get bar).level).toNat
      (panel.bars.pixels (meter.channels.get bar).peak).toNat
      (after.canvas.barPixel panel bar column) := by
  intro meter before after
  have hup : meter.PeaksUp :=
    peaksUp_run events (allSound_silent config) hsettled (.inl (peaksUp_silent config))
  have hcanvas : after.canvas = before.withReading panel meter.reading :=
    Display.canvas_step (.update meter.reading) (Display.mk bus panel before ready)
  have hshows := Canvas.shows_withReading before panel meter.reading rfl
  rw [← hcanvas] at hshows
  rw [← levels_reading, ← peaks_reading]
  refine hshows.markedColumn bar ?_ column
  rw [levels_reading, peaks_reading]
  exact hup bar

/-- A channel falls from a half to a quarter and its peak still waits, when
the text changes and a picture of lit pixels is drawn over. -/
theorem peak_marks_top_of_falling_bar :
    let config : MeterConfig := ⟨2, .ofBits 0x3e800000⟩
    let events : List MeterEvent := [.setLevel 3 (.ofBits 0x3f000000), .tick,
      .setLevel 3 (.ofBits 0x3e800000), .tick, .setStatus "ok"]
    let refusing : ScriptedBus BusFault := .fresh fun _ => some .nackAddress
    let panel : Panel := ⟨0x3D, 64, .inverted⟩
    let before : Canvas := ⟨.replicate 1025 0xFF, 64⟩
    let bar : Fin Bar.channelCount := ⟨3, by decide⟩
    let column : Fin Bar.width := ⟨11, by decide⟩
    let meter := (silent config).run events
    let after := ((Display.mk refusing panel before false).step (.update meter.reading)).2
    Settled events ∧ MarkedColumn 48 12 24 (after.canvas.barPixel panel bar column) := by
  intro config events refusing panel before bar column meter after
  have hsettled : Settled events := by decide
  have hmarked := peak_marks_top_of_bar config hsettled refusing panel (.replicate 1025 0xFF)
    false bar column
  have hheight : panel.bars.height.toNat = 48 := by decide
  have hlevel : (panel.bars.pixels (meter.channels.get bar).level).toNat = 12 := by decide +kernel
  have hpeak : (panel.bars.pixels (meter.channels.get bar).peak).toNat = 24 := by decide +kernel
  rw [← hheight, ← hlevel, ← hpeak]
  exact ⟨hsettled, hmarked⟩

end Meter

end MeterPanel
