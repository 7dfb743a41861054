import MeterPanel.Proofs.NumberOrder
import MeterPanel.Proofs.PeakHold

/-!
# Where levels and peaks stay

Whatever happens to a meter, its levels lie between zero and one, its peaks
are numbers that are not negative, and no peak waits longer than the hold.
A tick leaves every peak at or above its level. When the step of the decay is
not negative, or not a number at all, a peak has no way to rise but to a
level, and so never stands above the largest level that a tick has found.

The text of a meter is the last one set, one cell for each of its first
characters.

## Main results

* `Sound.tick` — a tick keeps the bounds of a channel.
* `level_le_peak_tick`, `toNat_hold_tick`, `peak_tick_le` — what a tick leaves
  behind.
* `Traced.tick`, `traced_run` — the bounds together with what was heard.
* `bounds_of_run` — all bounds of a meter, after any run.
-/

namespace MeterPanel

/-! ## Levels -/

/-- A number between zero and one. -/
structure Binary32.InUnit (level : Binary32) : Prop where
  isNumber : level ≠ .nan
  zero_le : 0 ≤ level
  le_one : level ≤ 1

open Binary32 (InUnit)

namespace Channel

theorem clampLevel_le_one (level : Binary32) : clampLevel level ≤ 1 := by
  cases level with
  | nan => decide
  | infinite negative => cases negative <;> decide
  | finite units onGrid bounded =>
      show (Binary32.finite units onGrid bounded).clampUnit ≤ 1
      rcases Binary32.clampUnit_cases (.finite units onGrid bounded) with
        h | ⟨clamped, hgrid, hbounded, h, -, hhigh⟩
      · cases Binary32.eq_nan_of_clampUnit h
      · rw [h]
        exact hhigh

theorem inUnit_clampLevel (level : Binary32) : InUnit (clampLevel level) :=
  ⟨(Binary32.ne_nan_of_le (clampLevel_le_one level)).1, zero_le_clampLevel level,
    clampLevel_le_one level⟩

end Channel

/-- All levels that a channel has heard lie between zero and one. -/
structure Heard.InUnit (heard : Heard) : Prop where
  level : Binary32.InUnit heard.level
  atTicks : ∀ level ∈ heard.atTicks, Binary32.InUnit level

namespace Heard

theorem inUnit_silence : InUnit silence := ⟨⟨by decide, by decide, by decide⟩, by simp [silence]⟩

theorem InUnit.hear {heard : Heard} (h : heard.InUnit) (c : Fin Bar.channelCount)
    (event : MeterEvent) : (heard.hear c event).InUnit := by
  cases event with
  | setLevel channel level =>
      simp only [Heard.hear]
      split
      · exact ⟨Channel.inUnit_clampLevel level, h.atTicks⟩
      · exact h
  | setLevels levels => exact ⟨Channel.inUnit_clampLevel (levels.get c), h.atTicks⟩
  | setStatus text => exact h
  | tick =>
      refine ⟨h.level, fun level hmem => ?_⟩
      rcases List.mem_append.1 hmem with hmem | hmem
      · exact h.atTicks level hmem
      · rw [List.mem_singleton.1 hmem]
        exact h.level
  | reset => exact inUnit_silence

theorem inUnit_foldl (c : Fin Bar.channelCount) (events : List MeterEvent) :
    ∀ {heard : Heard}, heard.InUnit → (events.foldl (Heard.hear c) heard).InUnit := by
  induction events with
  | nil => intro heard h; exact h
  | cons event events ih => intro heard h; exact ih (h.hear c event)

theorem inUnit_of (c : Fin Bar.channelCount) (events : List MeterEvent) :
    (Heard.of c events).InUnit :=
  inUnit_foldl c events inUnit_silence

end Heard

/-! ## One channel -/

/-- Bounds on a channel that hold at any time. -/
structure Channel.Sound (config : MeterConfig) (channel : Channel) : Prop where
  level : InUnit channel.level
  peak_isNumber : channel.peak ≠ .nan
  zero_le_peak : 0 ≤ channel.peak
  hold_le : channel.hold ≤ config.holdTicks

namespace Channel

variable {config : MeterConfig} {channel : Channel}

theorem sound_silent (config : MeterConfig) : Sound config silent where
  level := ⟨by decide, by decide, by decide⟩
  peak_isNumber := by decide
  zero_le_peak := by decide
  hold_le := UInt8.le_iff_toNat_le.2 (Nat.zero_le _)

/-- A tick leaves the peak at or above the level. -/
theorem level_le_peak_tick (h : Sound config channel) :
    (channel.tick config).level ≤ (channel.tick config).peak := by
  by_cases hraises : channel.Raises
  · rw [tick_of_raises hraises]
    exact Binary32.le_refl_of_ne_nan h.level.isNumber
  · by_cases hhold : 0 < channel.hold
    · rw [tick_of_hold hraises hhold]
      exact Binary32.le_of_not_le h.peak_isNumber h.level.isNumber hraises
    · rw [tick_of_sink hraises hhold]
      exact Binary32.le_max_right h.level.isNumber

/-- A tick starts the hold or counts it down, and stops at zero. -/
theorem toNat_hold_tick (config : MeterConfig) (channel : Channel) :
    (channel.tick config).hold.toNat =
      if channel.peak ≤ channel.level then config.holdTicks.toNat
      else channel.hold.toNat - 1 := by
  by_cases hraises : channel.Raises
  · rw [tick_of_raises hraises]
    exact (if_pos hraises).symm
  · refine Eq.trans ?_ (if_neg hraises).symm
    by_cases hhold : 0 < channel.hold
    · rw [tick_of_hold hraises hhold]
      have hone : 1 ≤ channel.hold := UInt8.le_iff_toNat_le.2 (UInt8.lt_iff_toNat_lt.1 hhold)
      exact UInt8.toNat_sub_of_le _ _ hone
    · rw [tick_of_sink hraises hhold]
      rw [UInt8.lt_iff_toNat_lt, UInt8.toNat_zero] at hhold
      show channel.hold.toNat = _
      omega

/-- Another level between zero and one keeps the bounds. -/
theorem Sound.withLevel (h : Sound config channel) {level : Binary32} (hlevel : InUnit level) :
    Sound config { channel with level := level } :=
  ⟨hlevel, h.peak_isNumber, h.zero_le_peak, h.hold_le⟩

theorem Sound.tick (h : Sound config channel) : Sound config (channel.tick config) := by
  have hlevel : InUnit (channel.tick config).level := by
    rw [level_tick]
    exact h.level
  have hpeak := level_le_peak_tick h
  have hhold := toNat_hold_tick config channel
  have hbound := UInt8.le_iff_toNat_le.1 h.hold_le
  refine ⟨hlevel, (Binary32.ne_nan_of_le hpeak).2, Binary32.le_trans hlevel.zero_le hpeak,
    UInt8.le_iff_toNat_le.2 ?_⟩
  rw [hhold]
  split <;> omega

/-- A peak under a step that is not negative rises to a level or not at all. -/
theorem peak_tick_le (h : Sound config channel)
    (hstep : config.decayStep = .nan ∨ 0 ≤ config.decayStep) {top : Binary32}
    (hpeak : channel.peak ≤ top) (hlevel : channel.level ≤ top) :
    (channel.tick config).peak ≤ top := by
  by_cases hraises : channel.Raises
  · rw [tick_of_raises hraises]
    exact hlevel
  · by_cases hhold : 0 < channel.hold
    · rw [tick_of_hold hraises hhold]
      exact hpeak
    · rw [tick_of_sink hraises hhold]
      refine Binary32.max_le ?_ hlevel
      exact (Binary32.sub_le_self h.zero_le_peak hstep).imp_right fun hdown =>
        Binary32.le_trans hdown hpeak

end Channel

/-! ## The largest level -/

/-- The largest of a list of levels, and zero if there are none. -/
structure IsLargest (levels : List Binary32) (top : Binary32) : Prop where
  mem : top ∈ levels ∨ (levels = [] ∧ top = 0)
  le : ∀ level ∈ levels, level ≤ top

theorem isLargest_nil : IsLargest [] 0 := ⟨.inr ⟨rfl, rfl⟩, by simp⟩

theorem IsLargest.append {levels : List Binary32} {top level : Binary32}
    (h : IsLargest levels top) (htop : top ≠ .nan) (hlevel : InUnit level) :
    ∃ next, IsLargest (levels ++ [level]) next ∧ top ≤ next ∧ level ≤ next := by
  have hself := Binary32.le_refl_of_ne_nan hlevel.isNumber
  by_cases hle : top ≤ level
  · refine ⟨level, ⟨.inl (by simp), fun other hmem => ?_⟩, hle, hself⟩
    rcases List.mem_append.1 hmem with hmem | hmem
    · exact Binary32.le_trans (h.le other hmem) hle
    · rw [List.mem_singleton.1 hmem]
      exact hself
  · have hbelow := Binary32.le_of_not_le htop hlevel.isNumber hle
    refine ⟨top, ⟨?_, fun other hmem => ?_⟩, Binary32.le_refl_of_ne_nan htop, hbelow⟩
    · rcases h.mem with hmem | ⟨-, rfl⟩
      · exact .inl (List.mem_append_left _ hmem)
      · exact absurd hlevel.zero_le hle
    · rcases List.mem_append.1 hmem with hmem | hmem
      · exact h.le other hmem
      · rw [List.mem_singleton.1 hmem]
        exact hbelow

theorem IsLargest.le_one {levels : List Binary32} {top : Binary32} (h : IsLargest levels top)
    (hlevels : ∀ level ∈ levels, InUnit level) : top ≤ 1 := by
  rcases h.mem with hmem | ⟨-, rfl⟩
  · exact (hlevels top hmem).le_one
  · decide

/-! ## Ticks -/

/-- A channel after ticks at the given levels: its bounds, and its peak below
the largest of them. -/
structure Channel.Traced (config : MeterConfig) (levels : List Binary32) (channel : Channel) :
    Prop extends Sound config channel where
  peak_le : config.decayStep = .nan ∨ 0 ≤ config.decayStep →
    ∃ top, IsLargest levels top ∧ channel.peak ≤ top

namespace Channel

variable {config : MeterConfig} {heard : List Binary32} {channel : Channel}

theorem traced_silent (config : MeterConfig) : Traced config [] silent where
  toSound := sound_silent config
  peak_le := fun _ => ⟨0, isLargest_nil, by decide⟩

theorem Traced.tick (h : Traced config heard channel) {level : Binary32}
    (hlevel : InUnit level) :
    Traced config (heard ++ [level]) (Channel.tick config { channel with level := level }) where
  toSound := (h.toSound.withLevel hlevel).tick
  peak_le := by
    intro hstep
    obtain ⟨top, hlargest, hpeak⟩ := h.peak_le hstep
    obtain ⟨next, hnext, hrise, hbelow⟩ :=
      hlargest.append (Binary32.ne_nan_of_le hpeak).2 hlevel
    exact ⟨next, hnext, peak_tick_le (h.toSound.withLevel hlevel) hstep
      (Binary32.le_trans hpeak hrise) hbelow⟩

theorem Traced.foldl (levels : List Binary32) :
    ∀ {heard : List Binary32} {channel : Channel}, Traced config heard channel →
      (∀ level ∈ levels, InUnit level) →
        Traced config (heard ++ levels)
          (levels.foldl
            (fun channel level => Channel.tick config { channel with level := level })
            channel) := by
  induction levels with
  | nil =>
      intro heard channel h _
      rw [List.append_nil]
      exact h
  | cons level levels ih =>
      intro heard channel h hlevels
      have hnext := h.tick (hlevels level List.mem_cons_self)
      have hrest := ih hnext fun level hmem => hlevels level (List.mem_cons_of_mem _ hmem)
      rw [List.append_assoc] at hrest
      exact hrest

theorem traced_ticked {levels : List Binary32} (h : ∀ level ∈ levels, InUnit level) :
    Traced config levels (ticked config levels) :=
  (traced_silent config).foldl levels h

end Channel

/-! ## Whole runs -/

namespace Meter

/-- The text after an event. -/
def textAfter (text : String) : MeterEvent → String
  | .setStatus new => new
  | _ => text

/-- The text of the last event that set one. -/
def lastText (events : List MeterEvent) : String := events.foldl textAfter ""

/-- The cells that show the first characters of a text. -/
def cellsOf (text : String) : List UInt8 := (text.toList.take 20).map Font.codeOf

theorem status_run (events : List MeterEvent) :
    ∀ {meter : Meter} {text : String}, meter.status = cellsOf text →
      (meter.run events).status = cellsOf (events.foldl textAfter text) := by
  induction events with
  | nil => intro meter text h; exact h
  | cons event events ih =>
      intro meter text h
      have hnext : (meter.apply event).status = cellsOf (textAfter text event) := by
        cases event with
        | setStatus new => rfl
        | setLevel channel level =>
            simp only [apply, Meter.setLevel]
            split <;> exact h
        | _ => exact h
      exact ih hnext

theorem traced_run (config : MeterConfig) (events : List MeterEvent)
    (c : Fin Bar.channelCount) :
    (((silent config).run events).channels.get c).Traced config (Heard.of c events).atTicks := by
  have hheard := Heard.inUnit_of c events
  have htraced : Channel.Traced config _ (Channel.ticked config (Heard.of c events).atTicks) :=
    Channel.traced_ticked hheard.atTicks
  rw [run_eq_ticked]
  exact ⟨htraced.toSound.withLevel hheard.level, htraced.peak_le⟩

/-- After any run: every level lies between zero and one, every peak is a
number that is not negative, and no hold is longer than that of the meter.
One more tick brings each peak to its level or above, and counts a hold down
to zero at the least. Under a step that is not negative no peak stands above
the largest level that its channel had at a tick. -/
theorem bounds_of_run (config : MeterConfig) (events : List MeterEvent) :
    let meter := (silent config).run events
    meter.status = ((lastText events).toList.take 20).map Font.codeOf ∧
      ∀ c : Fin Bar.channelCount,
        let channel := meter.channels.get c
        let ticked := ((silent config).run (events ++ [.tick])).channels.get c
        channel.Sound config ∧
          ticked.level ≤ ticked.peak ∧
          ticked.hold.toNat =
            (if channel.peak ≤ channel.level then config.holdTicks.toNat
              else channel.hold.toNat - 1) ∧
          (config.decayStep = .nan ∨ 0 ≤ config.decayStep →
            ∃ top, IsLargest (Heard.of c events).atTicks top ∧ channel.peak ≤ top ∧ top ≤ 1) := by
  intro meter
  refine ⟨status_run events rfl, fun c => ?_⟩
  intro channel ticked
  have htraced := traced_run config events c
  have hticked : ticked = channel.tick config := by
    have hrun : (silent config).run (events ++ [.tick]) = meter.tick := List.foldl_append
    have hconfig : meter.config = config := (hears_run config c events).configured
    have happly : meter.tick.channels.get c = channel.tick meter.config :=
      channel_apply meter .tick c
    rw [hconfig] at happly
    show ((silent config).run (events ++ [.tick])).channels.get c = _
    rw [hrun, happly]
  rw [hticked]
  refine ⟨htraced.toSound, Channel.level_le_peak_tick htraced.toSound,
    Channel.toNat_hold_tick config channel, fun hstep => ?_⟩
  obtain ⟨top, hlargest, hpeak⟩ := htraced.peak_le hstep
  exact ⟨top, hlargest, hpeak, hlargest.le_one (Heard.inUnit_of c events).atTicks⟩

end Meter

end MeterPanel
