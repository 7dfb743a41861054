import MeterPanel.Meter.Basic

/-!
# How peaks are held

A tick raises the peak of a channel when the level is not below it. The first
tick after a reset does so, because levels are never negative, and the last
tick that did so decides everything about the peak: it waits at that level for
the ticks of the hold, and only then sinks with every further tick.

What a channel hears is read off the events alone. Its peak and its hold
depend on the levels it heard at the ticks since the last reset, and on
nothing else.

## Main results

* `Held.tick` — one tick of a channel whose last raise is known.
* `run_eq_ticked` — a channel of a meter is a channel on its own.
* `peak_of_last_raise` — peak and hold of every channel after every run.
-/

namespace MeterPanel

/-! ## Levels -/

theorem Binary32.eq_nan_of_clampUnit {level : Binary32} (h : level.clampUnit = .nan) :
    level = .nan := by
  unfold clampUnit at h
  split at h
  · cases h
  · split at h
    · cases h
    · exact h

namespace Channel

/-- A tick of the channel raises its peak. -/
def Raises (channel : Channel) : Prop := channel.peak ≤ channel.level

theorem zero_le_clampLevel (level : Binary32) : 0 ≤ clampLevel level := by
  cases level with
  | nan => decide
  | infinite negative => cases negative <;> decide
  | finite units onGrid bounded =>
      show 0 ≤ (Binary32.finite units onGrid bounded).clampUnit
      rcases Binary32.clampUnit_cases (.finite units onGrid bounded) with
        h | ⟨clamped, hgrid, hbounded, h, hlow, -⟩
      · cases Binary32.eq_nan_of_clampUnit h
      · rw [h]
        exact hlow

/-! ## One channel -/

/-- A channel without sound after ticks at the given levels. -/
def ticked (config : MeterConfig) (levels : List Binary32) : Channel :=
  levels.foldl (fun channel level => tick config { channel with level := level }) silent

theorem ticked_append (config : MeterConfig) (levels : List Binary32) (level : Binary32) :
    ticked config (levels ++ [level]) =
      tick config { ticked config levels with level := level } := by
  rw [ticked, List.foldl_append]
  rfl

theorem level_tick (config : MeterConfig) (channel : Channel) :
    (channel.tick config).level = channel.level := by
  unfold tick
  split
  · rfl
  · split <;> rfl

theorem tick_of_raises {config : MeterConfig} {channel : Channel} (h : channel.Raises) :
    channel.tick config = { channel with peak := channel.level, hold := config.holdTicks } :=
  if_pos h

theorem tick_of_hold {config : MeterConfig} {channel : Channel} (h : ¬ channel.Raises)
    (hhold : 0 < channel.hold) :
    channel.tick config = { channel with hold := channel.hold - 1 } :=
  (if_neg h).trans (if_pos hhold)

theorem tick_of_sink {config : MeterConfig} {channel : Channel} (h : ¬ channel.Raises)
    (hhold : ¬ 0 < channel.hold) :
    channel.tick config =
      { channel with peak := (channel.peak - config.decayStep).max channel.level } :=
  (if_neg h).trans (if_neg hhold)

end Channel

/-! ## The last raise -/

/-- Of the channels `before` ticks, `raise` is the last one whose tick raised
the peak, and `quiet` are those that followed. -/
structure LastRaise (before : List Channel) (raise : Channel) (quiet : List Channel) : Prop where
  split : ∃ earlier, before = earlier ++ raise :: quiet
  raises : raise.Raises
  quieter : ∀ channel ∈ quiet, ¬ channel.Raises

/-- A channel `now`, after ticks that found it as in `before`: how long its
peak still waits, and where it is. -/
structure Held (config : MeterConfig) (before : List Channel) (raise : Channel)
    (quiet : List Channel) (now : Channel) : Prop extends LastRaise before raise quiet where
  hold : now.hold.toNat = config.holdTicks.toNat - min config.holdTicks.toNat quiet.length
  waits : ∀ channel ∈ quiet.take (config.holdTicks.toNat + 1), channel.peak = raise.level
  peak : now.peak =
    ((quiet.drop config.holdTicks.toNat).map Channel.level).foldl
      (fun peak level => (peak - config.decayStep).max level) raise.level

theorem LastRaise.quiet {before quiet : List Channel} {raise now : Channel}
    (h : LastRaise before raise quiet) (hquiet : ¬ now.Raises) :
    LastRaise (before ++ [now]) raise (quiet ++ [now]) where
  split := by
    obtain ⟨earlier, hsplit⟩ := h.split
    exact ⟨earlier, by rw [hsplit, List.append_assoc]; rfl⟩
  raises := h.raises
  quieter := by
    intro channel hmem
    rcases List.mem_append.1 hmem with hmem | hmem
    · exact h.quieter channel hmem
    · rw [List.mem_singleton.1 hmem]
      exact hquiet

namespace Held

variable {config : MeterConfig} {before quiet : List Channel} {raise now : Channel}

theorem peak_of_le (h : Held config before raise quiet now)
    (hquiet : quiet.length ≤ config.holdTicks.toNat) : now.peak = raise.level := by
  rw [h.peak, List.drop_eq_nil_of_le hquiet]
  rfl

theorem hold_pos_iff (h : Held config before raise quiet now) :
    0 < now.hold ↔ quiet.length < config.holdTicks.toNat := by
  have hhold := h.hold
  rw [UInt8.lt_iff_toNat_lt, UInt8.toNat_zero]
  omega

/-- A channel whose last raise is no longer ago than the hold still has its
peak there. -/
theorem waits_append (h : Held config before raise quiet now) :
    ∀ channel ∈ (quiet ++ [now]).take (config.holdTicks.toNat + 1),
      channel.peak = raise.level := by
  intro channel hmem
  rw [List.take_append] at hmem
  rcases List.mem_append.1 hmem with hmem | hmem
  · exact h.waits channel hmem
  · have hshort : quiet.length ≤ config.holdTicks.toNat := by
      refine Nat.le_of_not_lt fun hlong => ?_
      rw [Nat.sub_eq_zero_of_le hlong, List.take_zero] at hmem
      cases hmem
    rw [List.mem_singleton.1 (List.mem_of_mem_take hmem)]
    exact h.peak_of_le hshort

/-- A raise starts anew. -/
theorem of_raises (before : List Channel) (h : now.Raises) :
    Held config (before ++ [now]) now [] (now.tick config) where
  split := ⟨before, rfl⟩
  raises := h
  quieter := by simp
  hold := by
    rw [Channel.tick_of_raises h]
    simp
  waits := by simp
  peak := by
    rw [Channel.tick_of_raises h, List.drop_nil]
    rfl

/-- A quiet tick during the hold counts down. -/
theorem wait (h : Held config before raise quiet now) (hquiet : ¬ now.Raises)
    (hpos : 0 < now.hold) :
    Held config (before ++ [now]) raise (quiet ++ [now]) (now.tick config) where
  toLastRaise := h.toLastRaise.quiet hquiet
  hold := by
    have hhold := h.hold
    have hone : 1 ≤ now.hold := UInt8.le_iff_toNat_le.2 (UInt8.lt_iff_toNat_lt.1 hpos)
    rw [Channel.tick_of_hold hquiet hpos, List.length_append, List.length_singleton]
    show (now.hold - 1).toNat = _
    rw [UInt8.toNat_sub_of_le _ _ hone, UInt8.toNat_one]
    omega
  waits := h.waits_append
  peak := by
    have hshort := h.hold_pos_iff.1 hpos
    have hlength : (quiet ++ [now]).length ≤ config.holdTicks.toNat := by
      rw [List.length_append]
      exact hshort
    rw [Channel.tick_of_hold hquiet hpos, List.drop_eq_nil_of_le hlength]
    exact h.peak_of_le (Nat.le_of_lt hshort)

/-- A quiet tick after the hold lets the peak sink. -/
theorem sink (h : Held config before raise quiet now) (hquiet : ¬ now.Raises)
    (hzero : ¬ 0 < now.hold) :
    Held config (before ++ [now]) raise (quiet ++ [now]) (now.tick config) where
  toLastRaise := h.toLastRaise.quiet hquiet
  hold := by
    have hhold := h.hold
    have hlong := mt h.hold_pos_iff.2 hzero
    rw [Channel.tick_of_sink hquiet hzero, List.length_append, List.length_singleton]
    show now.hold.toNat = _
    omega
  waits := h.waits_append
  peak := by
    have hlong := mt h.hold_pos_iff.2 hzero
    rw [Channel.tick_of_sink hquiet hzero, List.drop_append_of_le_length (by omega),
      List.map_append, List.foldl_append, ← h.peak]
    rfl

/-- One tick of a channel whose last raise is known. -/
theorem tick (h : Held config before raise quiet now) :
    ∃ raise quiet, Held config (before ++ [now]) raise quiet (now.tick config) := by
  by_cases hraises : now.Raises
  · exact ⟨now, [], of_raises before hraises⟩
  · by_cases hpos : 0 < now.hold
    · exact ⟨raise, quiet ++ [now], h.wait hraises hpos⟩
    · exact ⟨raise, quiet ++ [now], h.sink hraises hpos⟩

/-- Setting a level in between changes nothing. -/
theorem setLevel (h : Held config before raise quiet now) (level : Binary32) :
    Held config before raise quiet (now.setLevel level) :=
  ⟨h.toLastRaise, h.hold, h.waits, h.peak⟩

end Held

/-! ## Whole runs -/

/-- What a channel has heard since the last reset: its present level, and its
level at each tick. -/
structure Heard where
  level : Binary32
  atTicks : List Binary32

namespace Heard

def silence : Heard := ⟨0, []⟩

/-- Adds an event to what channel `c` has heard. -/
def hear (c : Fin Bar.channelCount) (heard : Heard) : MeterEvent → Heard
  | .setLevel channel level =>
      if channel = c then { heard with level := Channel.clampLevel level } else heard
  | .setLevels levels => { heard with level := Channel.clampLevel (levels.get c) }
  | .setStatus _ => heard
  | .tick => { heard with atTicks := heard.atTicks ++ [heard.level] }
  | .reset => silence

/-- What channel `c` has heard after a list of events. -/
def of (c : Fin Bar.channelCount) (events : List MeterEvent) : Heard :=
  events.foldl (hear c) silence

end Heard

namespace Meter

/-- A meter, and the states of channel `c` just before each tick since the
last reset, after one more event. -/
def watch (c : Fin Bar.channelCount) (watched : Meter × List Channel) (event : MeterEvent) :
    Meter × List Channel :=
  (watched.1.apply event,
    match event with
    | .tick => watched.2 ++ [watched.1.channels.get c]
    | .reset => []
    | _ => watched.2)

/-- The states of channel `c` just before each tick since the last reset. -/
def beforeTicks (config : MeterConfig) (c : Fin Bar.channelCount) (events : List MeterEvent) :
    List Channel :=
  (events.foldl (watch c) (silent config, [])).2

theorem fst_foldl_watch (c : Fin Bar.channelCount) (events : List MeterEvent) :
    ∀ watched : Meter × List Channel,
      (events.foldl (watch c) watched).1 = watched.1.run events := by
  induction events with
  | nil => intro watched; rfl
  | cons event events ih =>
      intro watched
      exact ih (watch c watched event)

theorem channel_silent (config : MeterConfig) (c : Fin Bar.channelCount) :
    (silent config).channels.get c = .silent :=
  Vector.getElem_replicate c.isLt

/-- What an event does to one channel. -/
theorem channel_apply (meter : Meter) (event : MeterEvent) (c : Fin Bar.channelCount) :
    (meter.apply event).channels.get c =
      match event with
      | .setLevel channel level =>
          if channel = c then (meter.channels.get c).setLevel level else meter.channels.get c
      | .setLevels levels => (meter.channels.get c).setLevel (levels.get c)
      | .setStatus _ => meter.channels.get c
      | .tick => (meter.channels.get c).tick meter.config
      | .reset => .silent := by
  cases event with
  | setLevel channel level =>
      show (meter.setLevel channel level).channels.get c = _
      by_cases hchannel : channel < Bar.channelCount
      · have hset : meter.setLevel channel level =
            { meter with
              channels := meter.channels.set channel
                (meter.channels[channel].setLevel level) } := dif_pos hchannel
        rw [hset]
        show (meter.channels.set channel _ hchannel)[c.val] = _
        rw [Vector.getElem_set]
        by_cases hc : channel = c
        · subst hc
          rw [if_pos rfl]
          exact (if_pos rfl).symm
        · simp only [if_neg hc]
          rfl
      · have hset : meter.setLevel channel level = meter := dif_neg hchannel
        have hc : channel ≠ c := fun h => hchannel (h ▸ c.isLt)
        rw [hset]
        exact (if_neg hc).symm
  | setLevels levels => exact Vector.getElem_zipWith c.isLt
  | setStatus text => rfl
  | tick => exact Vector.getElem_map _ c.isLt
  | reset => exact channel_silent meter.config c

theorem config_apply (meter : Meter) (event : MeterEvent) :
    (meter.apply event).config = meter.config := by
  cases event with
  | setLevel channel level =>
      simp only [apply, Meter.setLevel]
      split <;> rfl
  | _ => rfl

/-- What the events so far tell about channel `c` of a meter. -/
structure Hears (config : MeterConfig) (c : Fin Bar.channelCount) (heard : Heard)
    (watched : Meter × List Channel) : Prop where
  configured : watched.1.config = config
  channel : watched.1.channels.get c =
    { Channel.ticked config heard.atTicks with level := heard.level }
  nonneg : 0 ≤ heard.level
  levels : watched.2.map Channel.level = heard.atTicks
  first : ∀ channel ∈ watched.2.head?, channel.Raises
  held : watched.2 ≠ [] →
    ∃ raise quiet, Held config watched.2 raise quiet (watched.1.channels.get c)

namespace Hears

variable {config : MeterConfig} {c : Fin Bar.channelCount} {heard : Heard}
  {watched : Meter × List Channel}

theorem silent (config : MeterConfig) (c : Fin Bar.channelCount) :
    Hears config c .silence (Meter.silent config, []) where
  configured := rfl
  channel := channel_silent config c
  nonneg := by decide
  levels := rfl
  first := by simp
  held := fun h => absurd rfl h

/-- An event that sets the level of the channel. -/
theorem setLevel (h : Hears config c heard watched) {meter : Meter} (level : Binary32)
    (hconfig : meter.config = watched.1.config)
    (hchannel : meter.channels.get c = (watched.1.channels.get c).setLevel level) :
    Hears config c { heard with level := Channel.clampLevel level } (meter, watched.2) where
  configured := hconfig.trans h.configured
  channel := by
    rw [hchannel, h.channel]
    rfl
  nonneg := Channel.zero_le_clampLevel level
  levels := h.levels
  first := h.first
  held := by
    intro hne
    obtain ⟨raise, quiet, hheld⟩ := h.held hne
    rw [hchannel]
    exact ⟨raise, quiet, hheld.setLevel level⟩

/-- An event that does not reach the channel. -/
theorem skip (h : Hears config c heard watched) {meter : Meter}
    (hconfig : meter.config = watched.1.config)
    (hchannel : meter.channels.get c = watched.1.channels.get c) :
    Hears config c heard (meter, watched.2) where
  configured := hconfig.trans h.configured
  channel := hchannel.trans h.channel
  nonneg := h.nonneg
  levels := h.levels
  first := h.first
  held := by
    intro hne
    rw [hchannel]
    exact h.held hne

/-- The first tick finds the peak at zero. -/
theorem raises_of_first (h : Hears config c heard watched) (hnone : watched.2 = []) :
    (watched.1.channels.get c).Raises := by
  have hticks : heard.atTicks = [] := by
    rw [← h.levels, hnone]
    rfl
  rw [Channel.Raises, h.channel, hticks]
  exact h.nonneg

theorem tick (h : Hears config c heard watched) :
    Hears config c { heard with atTicks := heard.atTicks ++ [heard.level] }
      (watched.1.tick, watched.2 ++ [watched.1.channels.get c]) := by
  have hlevel : (watched.1.channels.get c).level = heard.level := by rw [h.channel]
  have hchannel : watched.1.tick.channels.get c = (watched.1.channels.get c).tick config := by
    rw [← h.configured]
    exact channel_apply watched.1 .tick c
  refine
    { configured := h.configured
      channel := ?_
      nonneg := h.nonneg
      levels := ?_
      first := ?_
      held := ?_ }
  · rw [hchannel, Channel.ticked_append, ← h.channel]
    have := Channel.level_tick config (watched.1.channels.get c)
    rw [hlevel] at this
    rw [← this]
  · rw [List.map_append, h.levels, ← hlevel]
    rfl
  · intro channel hmem
    cases hbefore : watched.2 with
    | nil =>
        rw [hbefore] at hmem
        obtain rfl : watched.1.channels.get c = channel := Option.some.inj hmem
        exact h.raises_of_first hbefore
    | cons first rest =>
        rw [hbefore] at hmem
        apply h.first channel
        rw [hbefore]
        exact hmem
  · intro _
    rw [hchannel]
    by_cases hbefore : watched.2 = []
    · exact ⟨_, [], .of_raises watched.2 (h.raises_of_first hbefore)⟩
    · obtain ⟨raise, quiet, hheld⟩ := h.held hbefore
      exact hheld.tick

theorem reset (h : Hears config c heard watched) :
    Hears config c .silence (watched.1.reset, []) where
  configured := h.configured
  channel := channel_silent watched.1.config c
  nonneg := by decide
  levels := rfl
  first := by simp
  held := fun h => absurd rfl h

/-- One more event. -/
theorem step (h : Hears config c heard watched) (event : MeterEvent) :
    Hears config c (heard.hear c event) (watch c watched event) := by
  have hconfig := config_apply watched.1 event
  have hchannel := channel_apply watched.1 event c
  cases event with
  | setLevel channel level =>
      simp only at hchannel
      by_cases hc : channel = c
      · rw [if_pos hc] at hchannel
        rw [Heard.hear, if_pos hc]
        exact h.setLevel level hconfig hchannel
      · rw [if_neg hc] at hchannel
        rw [Heard.hear, if_neg hc]
        exact h.skip hconfig hchannel
  | setLevels levels => exact h.setLevel (levels.get c) hconfig hchannel
  | setStatus text => exact h.skip hconfig hchannel
  | tick => exact h.tick
  | reset => exact h.reset

/-- A whole run. -/
theorem run (events : List MeterEvent) :
    ∀ {heard : Heard} {watched : Meter × List Channel}, Hears config c heard watched →
      Hears config c (events.foldl (Heard.hear c) heard) (events.foldl (watch c) watched) := by
  induction events with
  | nil => intro heard watched h; exact h
  | cons event events ih => intro heard watched h; exact ih (h.step event)

end Hears

theorem hears_run (config : MeterConfig) (c : Fin Bar.channelCount) (events : List MeterEvent) :
    Hears config c (Heard.of c events)
      ((silent config).run events, beforeTicks config c events) := by
  have h := Hears.run events (Hears.silent config c)
  rwa [← Prod.eta (events.foldl (watch c) (silent config, [])), fst_foldl_watch] at h

/-- A channel of a meter is a channel on its own that ticked at the levels it
heard. -/
theorem run_eq_ticked (config : MeterConfig) (events : List MeterEvent)
    (c : Fin Bar.channelCount) :
    ((silent config).run events).channels.get c =
      { Channel.ticked config (Heard.of c events).atTicks with
        level := (Heard.of c events).level } :=
  (hears_run config c events).channel

/-- Peak and hold of a channel after any run. The last tick that raised the
peak is followed by quiet ones; the peak waits for the ticks of the hold and
then sinks. Only what the channel heard at its ticks has a part in it. -/
theorem peak_of_last_raise (config : MeterConfig) (events : List MeterEvent)
    (c : Fin Bar.channelCount) :
    let before := beforeTicks config c events
    let now := ((silent config).run events).channels.get c
    before.map Channel.level = (Heard.of c events).atTicks ∧
      (∀ first ∈ before.head?, first.Raises) ∧
      (before ≠ [] → ∃ raise quiet, Held config before raise quiet now ∧
        (quiet.length ≤ config.holdTicks.toNat → now.peak = raise.level)) ∧
      ∀ others, (Heard.of c others).atTicks = (Heard.of c events).atTicks →
        (((silent config).run others).channels.get c).peak = now.peak ∧
          (((silent config).run others).channels.get c).hold = now.hold := by
  intro before now
  have h := hears_run config c events
  refine ⟨h.levels, h.first, ?_, ?_⟩
  · intro hne
    obtain ⟨raise, quiet, hheld⟩ := h.held hne
    exact ⟨raise, quiet, hheld, hheld.peak_of_le⟩
  · intro others hsame
    have hnow : now = _ := run_eq_ticked config events c
    rw [run_eq_ticked config others c, hnow, hsame]
    exact ⟨rfl, rfl⟩

end Meter

end MeterPanel
