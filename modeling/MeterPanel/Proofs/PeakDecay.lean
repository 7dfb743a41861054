import Mathlib.Logic.Function.Iterate
import MeterPanel.Proofs.LevelPixels
import MeterPanel.Proofs.MeterBounds

/-!
# Peaks come down

A step of the decay can be too small for a peak: the difference is rounded, and
where the numbers are further apart than the step it rounds back to the peak.
Up to one they are `2^-24` apart at most, so a step of that size or more gets
through, and what is left of the peak is at least `2^-24` lower than before.

A channel that nobody sets is therefore at rest in the end, with its peak at
its level. The way to there is measured in steps of `2^-24`, each tick of the
hold counted as one of them; a tick either ends the way or takes a step of it.

## Main results

* `value_leastStep` — the least step is `2^-24`.
* `sub_le_of_leastStep` — a difference is lower by `2^-24`, however it rounds.
* `tick_sinks` — a tick without hold.
* `Ahead.tick`, `Ahead.rests` — one tick of the way, and all of it.
* `peaks_come_down` — the channels of a meter after any run.
-/

namespace MeterPanel

/-! ## Differences below one -/

namespace Binary32

/-- The exact value of a finite number. -/
def value? : Binary32 → Option ℚ
  | finite units _ _ => some ((units : ℚ) / unitsPerOne)
  | _ => none

/-- The number has so many units. -/
def HasUnits (x : Binary32) (n : Nat) : Prop := ∃ onGrid bounded, x = finite n onGrid bounded

/-- The distance between one and the next number below it. -/
def leastStep : Binary32 := finite (2 ^ 125 : Nat) (by decide) (by decide)

theorem value_of_hasUnits {x : Binary32} {n : Nat} (h : HasUnits x n) :
    x.value? = some ((n : ℚ) / unitsPerOne) := by
  obtain ⟨_, _, rfl⟩ := h
  rfl

/-- So many units are `2^-24`. -/
theorem div_unitsPerOne_eq : ((2 ^ 125 : Nat) : ℚ) / unitsPerOne = 1 / (2 : ℚ) ^ 24 := by
  rw [unitsPerOne]
  norm_num

theorem value_leastStep : leastStep.value? = some (1 / (2 : ℚ) ^ 24) := by
  have hunits : HasUnits leastStep (2 ^ 125) := ⟨by decide, by decide, rfl⟩
  rw [value_of_hasUnits hunits, div_unitsPerOne_eq]

theorem HasUnits.le_iff {x y : Binary32} {n m : Nat} (hx : HasUnits x n) (hy : HasUnits y m) :
    x ≤ y ↔ n ≤ m := by
  obtain ⟨_, _, rfl⟩ := hx
  obtain ⟨_, _, rfl⟩ := hy
  exact Int.ofNat_le

theorem HasUnits.unique {x y : Binary32} {n : Nat} (hx : HasUnits x n) (hy : HasUnits y n) :
    x = y := by
  obtain ⟨_, _, rfl⟩ := hx
  obtain ⟨_, _, rfl⟩ := hy
  rfl

theorem hasUnits_zero : HasUnits 0 0 := ⟨by decide, by decide, rfl⟩

theorem hasUnits_one : HasUnits 1 unitsPerOne := ⟨by decide, by decide, rfl⟩

theorem InUnit.exists_hasUnits {x : Binary32} (h : InUnit x) :
    ∃ n, HasUnits x n := by
  rcases cases_of_zero_le h.zero_le with rfl | ⟨units, onGrid, bounded, rfl, hlow⟩
  · exact absurd h.le_one (by decide)
  · obtain ⟨n, rfl⟩ := Int.eq_ofNat_of_zero_le hlow
    exact ⟨n, onGrid, bounded, rfl⟩

/-- A distance of so many units is one of `2^-24` in exact values. -/
theorem div_add_le_div {n m : Nat} (h : m + 2 ^ 125 ≤ n) :
    (m : ℚ) / unitsPerOne + 1 / (2 : ℚ) ^ 24 ≤ (n : ℚ) / unitsPerOne := by
  have hone : (0 : ℚ) < unitsPerOne := Nat.cast_pos.2 (by decide)
  rw [← div_unitsPerOne_eq, ← add_div, div_le_div_iff_of_pos_right hone]
  exact_mod_cast h

/-- Below a number up to one there is a number that is lower by `2^-24`, or
zero is not further away than that. -/
theorem exists_lower {n : Nat} (hpoint : OnGrid n) (h : n ≤ unitsPerOne) :
    ∃ m, OnGrid m ∧ n ≤ m + 2 ^ 125 ∧ (m = 0 ∨ m + 2 ^ 125 ≤ n) := by
  refine ⟨n - 2 ^ 125, ?_, by omega, by omega⟩
  rcases Nat.lt_or_eq_of_le h with hlt | rfl
  · have hspacing : spacing (n - 2 ^ 125) ∣ spacing n := spacing_dvd_spacing (Nat.sub_le _ _)
    exact Nat.dvd_sub (Nat.dvd_trans hspacing hpoint)
      (Nat.dvd_trans hspacing (spacing_dvd_of_lt_one hlt))
  · exact onGrid_mul_two_pow (m := 2 ^ 24 - 1) (by decide) 125

/-- A step of `2^-24` or more is not rounded back above that number. -/
theorem nearestInt_sub_le_lower {n m : Nat} {step : Int} (hpoint : OnGrid m)
    (hlower : n ≤ m + 2 ^ 125) (hstep : ((2 ^ 125 : Nat) : Int) ≤ step) :
    nearestInt (n - step) ≤ m := by
  unfold nearestInt
  by_cases hnegative : (n : Int) - step < 0
  · rw [if_pos hnegative]
    omega
  · have hround : nearest ((n : Int) - step).natAbs ≤ m := nearest_le (by omega) hpoint
    rw [if_neg hnegative]
    omega

/-- A number up to one, less a step of `2^-24` or more, is lower by `2^-24` or
not above zero. -/
theorem sub_le_of_leastStep {x step : Binary32} {n : Nat} (hx : HasUnits x n)
    (h : n ≤ unitsPerOne) (hstep : leastStep ≤ step) :
    ∃ lower m, HasUnits lower m ∧ x - step ≤ lower ∧ (m = 0 ∨ m + 2 ^ 125 ≤ n) := by
  obtain ⟨onGrid, bounded, rfl⟩ := hx
  obtain ⟨m, hpoint, hlower, hfar⟩ := exists_lower onGrid h
  have hbounded : m < limit := by
    have hn : n < limit := bounded
    omega
  refine ⟨finite m hpoint hbounded, m, ⟨hpoint, hbounded, rfl⟩, ?_, hfar⟩
  cases step with
  | nan => exact hstep.elim
  | infinite negative =>
      cases negative with
      | true => exact absurd hstep (by decide)
      | false =>
          show -(limit : Int) ≤ (m : Int)
          omega
  | finite units _ _ => exact ofUnits_le (nearestInt_sub_le_lower hpoint hlower hstep)

end Binary32

open Binary32 (HasUnits InUnit leastStep unitsPerOne)

/-! ## One tick -/

namespace Channel

/-- The channel `after` is `before` with a lower peak: down at the level, or
down by `2^-24` at least and not below the level. -/
structure Sinks (before after : Channel) : Prop where
  level : after.level = before.level
  level_le : before.level ≤ after.peak
  lower : after.peak = before.level ∨
    ∃ high low, before.peak.value? = some high ∧ after.peak.value? = some low ∧
      low + 1 / (2 : ℚ) ^ 24 ≤ high

/-- A channel within its bounds whose peak is not above one. -/
structure InRange (config : MeterConfig) (channel : Channel) : Prop
    extends Sound config channel where
  peak_le_one : channel.peak ≤ 1

/-- The peak of the channel is at its level. -/
def Rests (channel : Channel) : Prop := channel.peak = channel.level

/-- The channel has so many ticks at most until it rests: those of its hold,
and steps of `2^-24` that reach from the peak down to the level. -/
def Ahead (channel : Channel) (ticks : Nat) : Prop :=
  ∃ peak level steps, HasUnits channel.peak peak ∧ HasUnits channel.level level ∧
    channel.hold.toNat + steps ≤ ticks ∧ peak ≤ level + steps * 2 ^ 125

variable {config : MeterConfig} {channel : Channel}

theorem InRange.peak_inUnit (h : InRange config channel) : InUnit channel.peak :=
  ⟨h.peak_isNumber, h.zero_le_peak, h.peak_le_one⟩

theorem zero_le_of_leastStep (hstep : leastStep ≤ config.decayStep) : 0 ≤ config.decayStep :=
  Binary32.le_trans (by decide) hstep

theorem InRange.tick (h : InRange config channel) (hstep : leastStep ≤ config.decayStep) :
    InRange config (channel.tick config) where
  toSound := h.toSound.tick
  peak_le_one :=
    peak_tick_le h.toSound (.inr (zero_le_of_leastStep hstep)) h.peak_le_one h.level.le_one

theorem InRange.iterate (h : InRange config channel) (hstep : leastStep ≤ config.decayStep)
    (n : Nat) : InRange config ((Channel.tick config)^[n] channel) := by
  induction n with
  | zero => exact h
  | succ n ih =>
      rw [Function.iterate_succ_apply']
      exact ih.tick hstep

/-- What is left of a peak that sinks, unless it meets the level. -/
theorem peak_tick_of_sink (h : InRange config channel) (hstep : leastStep ≤ config.decayStep)
    (hquiet : ¬ channel.Raises) (hhold : ¬ 0 < channel.hold) {peak : Nat}
    (hpeak : HasUnits channel.peak peak) :
    (channel.tick config).peak = channel.level ∨
      ∃ left, HasUnits (channel.tick config).peak left ∧ left + 2 ^ 125 ≤ peak := by
  have hone := (hpeak.le_iff Binary32.hasUnits_one).1 h.peak_le_one
  obtain ⟨lower, m, hlower, hdown, hfar⟩ := Binary32.sub_le_of_leastStep hpeak hone hstep
  have hsub := (Binary32.ne_nan_of_le hdown).1
  rw [tick_of_sink hquiet hhold]
  dsimp only
  rw [Binary32.max_of_ne_nan hsub h.level.isNumber]
  by_cases hmeets : channel.peak - config.decayStep ≤ channel.level
  · exact .inl (if_pos hmeets)
  · right
    rw [if_neg hmeets]
    have habove := Binary32.le_of_not_le hsub h.level.isNumber hmeets
    have hunit : InUnit (channel.peak - config.decayStep) :=
      ⟨hsub, Binary32.le_trans h.level.zero_le habove,
        Binary32.le_trans hdown ((hlower.le_iff Binary32.hasUnits_one).2 (by omega))⟩
    obtain ⟨left, hleft⟩ := hunit.exists_hasUnits
    have hbelow : left ≤ m := (hleft.le_iff hlower).1 hdown
    -- what is left is above the level, so it is not zero
    have hpos : left ≠ 0 := by
      rintro rfl
      exact hmeets (hleft.unique Binary32.hasUnits_zero ▸ h.level.zero_le)
    exact ⟨left, hleft, by omega⟩

/-- A tick without hold lets the peak sink. -/
theorem tick_sinks (h : InRange config channel) (hstep : leastStep ≤ config.decayStep)
    (hquiet : ¬ channel.Raises) (hhold : ¬ 0 < channel.hold) :
    Sinks channel (channel.tick config) where
  level := level_tick config channel
  level_le := by
    have hlevel := level_le_peak_tick h.toSound
    rwa [level_tick] at hlevel
  lower := by
    obtain ⟨peak, hpeak⟩ := h.peak_inUnit.exists_hasUnits
    refine (peak_tick_of_sink h hstep hquiet hhold hpeak).imp_right ?_
    rintro ⟨left, hleft, hfar⟩
    refine ⟨_, _, Binary32.value_of_hasUnits hpeak, Binary32.value_of_hasUnits hleft, ?_⟩
    exact Binary32.div_add_le_div hfar

/-! ## Until a channel rests -/

/-- A channel at rest stays at rest. -/
theorem Rests.tick (hrests : Rests channel) (h : InRange config channel) :
    Rests (channel.tick config) := by
  have hraises : channel.Raises := by
    rw [Raises, hrests]
    exact Binary32.le_refl_of_ne_nan h.level.isNumber
  rw [tick_of_raises hraises]
  rfl

theorem Rests.iterate (hrests : Rests channel) (h : InRange config channel)
    (hstep : leastStep ≤ config.decayStep) (n : Nat) :
    Rests ((Channel.tick config)^[n] channel) := by
  induction n with
  | zero => exact hrests
  | succ n ih =>
      rw [Function.iterate_succ_apply']
      exact ih.tick (h.iterate hstep n)

/-- One tick of the way. -/
theorem Ahead.tick {ticks : Nat} (hahead : Ahead channel (ticks + 1))
    (h : InRange config channel) (hstep : leastStep ≤ config.decayStep) :
    Rests (channel.tick config) ∨ Ahead (channel.tick config) ticks := by
  obtain ⟨peak, level, steps, hpeak, hlevel, hticks, hfar⟩ := hahead
  by_cases hraises : channel.Raises
  · left
    rw [tick_of_raises hraises]
    rfl
  · have hcount : (channel.tick config).hold.toNat = channel.hold.toNat - 1 :=
      (toNat_hold_tick config channel).trans (if_neg hraises)
    have hkept : HasUnits (channel.tick config).level level := by rwa [level_tick]
    by_cases hhold : 0 < channel.hold
    · have hpos : 0 < channel.hold.toNat := UInt8.lt_iff_toNat_lt.1 hhold
      have hwaits : HasUnits (channel.tick config).peak peak := by
        rwa [tick_of_hold hraises hhold]
      exact .inr ⟨peak, level, steps, hwaits, hkept, by omega, hfar⟩
    · have hzero : channel.hold.toNat = 0 := by
        rw [UInt8.lt_iff_toNat_lt, UInt8.toNat_zero] at hhold
        omega
      have habove : level < peak := Nat.lt_of_not_le (mt (hpeak.le_iff hlevel).2 hraises)
      -- the level is not reached, so there is a step left for this tick
      obtain ⟨rest, rfl⟩ : ∃ rest, steps = rest + 1 :=
        Nat.exists_eq_succ_of_ne_zero (by rintro rfl; omega)
      rw [Nat.succ_mul] at hfar
      refine (peak_tick_of_sink h hstep hraises hhold hpeak).imp ?_ ?_
      · intro hmeets
        rw [Rests, level_tick, hmeets]
      · rintro ⟨left, hleft, hlower⟩
        exact ⟨left, level, rest, hleft, hkept, by omega, by omega⟩

/-- Some ticks of the way. -/
theorem Ahead.iterate (h : InRange config channel) (hstep : leastStep ≤ config.decayStep)
    (n : Nat) : ∀ ticks : Nat, Ahead channel (n + ticks) →
      Rests ((Channel.tick config)^[n] channel) ∨
        Ahead ((Channel.tick config)^[n] channel) ticks := by
  induction n with
  | zero =>
      intro ticks hahead
      rw [Nat.zero_add] at hahead
      exact .inr hahead
  | succ n ih =>
      intro ticks hahead
      rw [Nat.succ_add_eq_add_succ] at hahead
      rw [Function.iterate_succ_apply']
      rcases ih _ hahead with hrests | hrest
      · exact .inl (hrests.tick (h.iterate hstep n))
      · exact hrest.tick (h.iterate hstep n) hstep

/-- At the end of the way the channel rests: the peak is not above the level,
and after a tick not below it either. -/
theorem Ahead.rests {ticks : Nat} (hahead : Ahead channel ticks) (hpos : 0 < ticks)
    (h : InRange config channel) (hstep : leastStep ≤ config.decayStep) :
    Rests ((Channel.tick config)^[ticks] channel) := by
  obtain ⟨before, rfl⟩ := Nat.exists_eq_succ_of_ne_zero (Nat.ne_of_gt hpos)
  rcases Ahead.iterate h hstep (before + 1) 0 hahead with hrests | hrest
  · exact hrests
  · have hup := level_le_peak_tick (h.iterate hstep before).toSound
    rw [← Function.iterate_succ_apply' (Channel.tick config)] at hup
    obtain ⟨peak, level, steps, hpeak, hlevel, hticks, hfar⟩ := hrest
    have hle := (hlevel.le_iff hpeak).1 hup
    obtain rfl : steps = 0 := by omega
    obtain rfl : peak = level := by omega
    exact hpeak.unique hlevel

/-- From anywhere the way is no longer than the hold and `2^24` steps. -/
theorem InRange.ahead (h : InRange config channel) :
    Ahead channel (config.holdTicks.toNat + 2 ^ 24) := by
  obtain ⟨peak, hpeak⟩ := h.peak_inUnit.exists_hasUnits
  obtain ⟨level, hlevel⟩ := h.level.exists_hasUnits
  have hone : peak ≤ 2 ^ 149 := (hpeak.le_iff Binary32.hasUnits_one).1 h.peak_le_one
  have hhold := UInt8.le_iff_toNat_le.1 h.hold_le
  exact ⟨peak, level, 2 ^ 24, hpeak, hlevel, by omega, by omega⟩

/-- After the ticks of the hold and `2^24` more the channel rests. -/
theorem InRange.rests (h : InRange config channel) (hstep : leastStep ≤ config.decayStep) {n : Nat}
    (hn : config.holdTicks.toNat + 2 ^ 24 ≤ n) : Rests ((Channel.tick config)^[n] channel) := by
  obtain ⟨further, rfl⟩ := Nat.exists_eq_add_of_le' hn
  have hthere := h.ahead.rests (by omega) h hstep
  rw [Function.iterate_add_apply]
  exact hthere.iterate (h.iterate hstep _) hstep further

end Channel

/-! ## Whole runs -/

namespace Meter

/-- Ticks in a row move each channel on its own. -/
theorem channel_run_ticks (c : Fin Bar.channelCount) (n : Nat) :
    ∀ meter : Meter, (meter.run (List.replicate n .tick)).channels.get c =
      (Channel.tick meter.config)^[n] (meter.channels.get c) := by
  induction n with
  | zero => intro meter; rfl
  | succ n ih =>
      intro meter
      have htick : meter.tick.channels.get c = (meter.channels.get c).tick meter.config :=
        channel_apply meter .tick c
      rw [Function.iterate_succ_apply, ← htick]
      exact ih meter.tick

theorem inRange_run {config : MeterConfig} (hstep : leastStep ≤ config.decayStep)
    (events : List MeterEvent) (c : Fin Bar.channelCount) :
    (((silent config).run events).channels.get c).InRange config := by
  have htraced := traced_run config events c
  obtain ⟨top, hlargest, hpeak⟩ := htraced.peak_le (.inr (Channel.zero_le_of_leastStep hstep))
  exact ⟨htraced.toSound,
    Binary32.le_trans hpeak (hlargest.le_one (Heard.inUnit_of c events).atTicks)⟩

/-- Under a step of `2^-24` or more the peaks come down. After any run, a tick
that finds a peak above its level and without hold brings it to the level or
down by `2^-24` at least. After ticks for the hold and `2^24` more, with nothing
else in between, every peak is at its level. A peak that is at its level stays
there as long as there are only ticks. -/
theorem peaks_come_down {config : MeterConfig} (hstep : leastStep ≤ config.decayStep)
    (events : List MeterEvent) (c : Fin Bar.channelCount) :
    let ticked := fun n : Nat =>
      ((silent config).run (events ++ List.replicate n .tick)).channels.get c
    ((ticked 0).level < (ticked 0).peak → (ticked 0).hold = 0 →
        Channel.Sinks (ticked 0) (ticked 1)) ∧
      (∀ n, config.holdTicks.toNat + 2 ^ 24 ≤ n → (ticked n).peak = (ticked n).level) ∧
      ∀ n further, (ticked n).peak = (ticked n).level →
        (ticked (n + further)).peak = (ticked (n + further)).level := by
  intro ticked
  have hrange := inRange_run hstep events c
  have hticked : ∀ n, ticked n =
      (Channel.tick config)^[n] (((silent config).run events).channels.get c) := by
    intro n
    have hconfig : ((silent config).run events).config = config :=
      (hears_run config c events).configured
    have hticks := channel_run_ticks c n ((silent config).run events)
    rw [hconfig] at hticks
    rw [← hticks]
    show ((silent config).run (events ++ List.replicate n .tick)).channels.get c = _
    rw [run, List.foldl_append]
    rfl
  refine ⟨?_, ?_, ?_⟩
  · rw [hticked, hticked]
    intro habove hhold
    refine Channel.tick_sinks hrange hstep (Binary32.not_le_of_lt habove) ?_
    rw [UInt8.not_lt, UInt8.le_iff_toNat_le, hhold]
  · intro n hn
    rw [hticked]
    exact hrange.rests hstep hn
  · intro n further hrests
    rw [hticked] at hrests ⊢
    rw [Nat.add_comm, Function.iterate_add_apply]
    exact Channel.Rests.iterate hrests (hrange.iterate hstep n) hstep further

/-- The smallest of these steps, and a level that falls from one to a half. The
third quiet tick is the first without hold. -/
theorem slowest_peak_comes_down :
    let config : MeterConfig := ⟨2, .ofBits 0x33800000⟩
    let events : List MeterEvent := [.setLevel 4 1, .tick, .setLevel 4 (.ofBits 0x3f000000),
      .tick, .tick]
    let c : Fin Bar.channelCount := ⟨4, by decide⟩
    let ticked := fun n : Nat =>
      ((silent config).run (events ++ List.replicate n .tick)).channels.get c
    leastStep ≤ config.decayStep ∧ (ticked 0).level < (ticked 0).peak ∧ (ticked 0).hold = 0 ∧
      Channel.Sinks (ticked 0) (ticked 1) ∧ (ticked 1).peak = .ofBits 0x3f7fffff ∧
      ∀ n, 2 + 2 ^ 24 ≤ n → (ticked n).peak = (ticked n).level := by
  intro config events c ticked
  have hstep : leastStep ≤ config.decayStep := by decide
  have habove : (ticked 0).level < (ticked 0).peak := by decide +kernel
  have hhold : (ticked 0).hold = 0 := by decide +kernel
  have hlower : (ticked 1).peak = .ofBits 0x3f7fffff := by decide +kernel
  obtain ⟨hsinks, hrests, -⟩ := peaks_come_down hstep events c
  exact ⟨hstep, habove, hhold, hsinks habove hhold, hlower, hrests⟩

end Meter

end MeterPanel
