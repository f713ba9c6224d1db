import Pod.Support.Encoding

/-!
# Node — the shutdown countdown

`ScheduleShutdown` starts a goroutine that warns, as the shutdown approaches, how long remains.
It keeps `remaining`, waits in a `select` on `time.After(duration)` and on a ticker of period
`DynamicTickDuration(remaining)`, and at each tick updates `remaining` by the tick, logs it, and
restarts the ticker when `DynamicTickDuration` picks another period.  The update is written
`remaining -= -tickDuration`: it adds the tick.

The goroutine's state is a `Countdown`; a run (`TickRun`) takes the ticks the ticker delivers no
later than `done` fires.  `time.Duration` is an `int64` of nanoseconds, so the update wraps
(`wrapInt64`).

* `tickRun_remaining`: after any ticks, `remaining` is the duration plus the ticks' periods.
* `scheduleShutdown_countdown_grows`: ten seconds before shutdown, the first tick comes after
  five, and the countdown then says fifteen.
* `dynamicTickDuration_le`: the period picked for a time of a second or more is at most that
  time.
* `tickRun_countdownInv`: in every run, the countdown never falls below the duration and the
  period never below the first one.
-/

namespace Pod.Node

open Pod

/-- `time.Minute`. -/
def minute : Int := 60 * Time.second

/-- `time.Hour`. -/
def hour : Int := 60 * minute

/-- `DynamicTickDuration`: shorter periods as the time left shrinks. -/
def dynamicTickDuration (remaining : Int) : Int :=
  if remaining ≤ Time.second * 5 then Time.second
  else if remaining ≤ Time.second * 15 then Time.second * 5
  else if remaining ≤ minute then Time.second * 15
  else if remaining ≤ minute * 5 then minute
  else if remaining ≤ minute * 15 then minute * 5
  else if remaining ≤ hour then minute * 15
  else hour

/-- An `int64` result: the two's-complement value of the low 64 bits. -/
def wrapInt64 (x : Int) : Int := toSigned 64 (toUnsigned 64 x)

/-- The goroutine between two `select`s: `remaining` and `tickDuration`, and when the current
ticker fires next, counted from `ScheduleShutdown`.  Recorded beside them: the period of each
tick received, and the time each `server shutdown in %v` warning gave. -/
structure Countdown where
  remaining : Int
  tickDuration : Int
  nextTick : Int
  ticks : List Int
  warnings : List Int
  deriving DecidableEq, Repr

/-- `ScheduleShutdown(duration)`: the first warning, and the goroutine before its first
`select`, with `time.After(remaining)` and `time.NewTicker(tickDuration)` started at `0`. -/
def Countdown.start (duration : Int) : Countdown :=
  let remaining := duration
  let tickDuration := dynamicTickDuration remaining
  ⟨remaining, tickDuration, tickDuration, [], [duration]⟩

/-- The `<-ticker.C` case, at the time `nextTick`: below a second nothing is logged and the
ticker runs on; otherwise the time left is logged, and a new ticker starts now when the period
changes (the old one would fire one period on, just the same). -/
def Countdown.tick (s : Countdown) : Countdown :=
  let remaining := wrapInt64 (s.remaining - -s.tickDuration)
  let ticks := s.ticks ++ [s.tickDuration]
  if remaining < Time.second then
    { s with remaining, ticks, nextTick := s.nextTick + s.tickDuration }
  else
    let newDuration := dynamicTickDuration remaining
    if s.tickDuration ≠ newDuration then
      ⟨remaining, newDuration, s.nextTick + newDuration, ticks, s.warnings ++ [remaining]⟩
    else
      ⟨remaining, s.tickDuration, s.nextTick + s.tickDuration, ticks, s.warnings ++ [remaining]⟩

/-- The runs of the loop until it takes `done`: each tick comes no later than `time.After`
fires at `duration` (at the same instant, `select` may take either). -/
inductive TickRun (duration : Int) : Countdown → Prop
  | start : TickRun duration (Countdown.start duration)
  | tick {s : Countdown} : TickRun duration s → s.nextTick ≤ duration → TickRun duration s.tick

/-! ### One tick -/

@[simp] theorem Countdown.remaining_tick (s : Countdown) :
    s.tick.remaining = wrapInt64 (s.remaining + s.tickDuration) := by
  dsimp only [Countdown.tick]
  split
  · rw [Int.sub_neg]
  · split <;> rw [Int.sub_neg]

@[simp] theorem Countdown.ticks_tick (s : Countdown) :
    s.tick.ticks = s.ticks ++ [s.tickDuration] := by
  dsimp only [Countdown.tick]
  split
  · rfl
  · split <;> rfl

theorem wrapInt64_emod (a : Int) : wrapInt64 a % 2 ^ 64 = a % 2 ^ 64 := by
  have hn : ((a % 2 ^ 64).toNat : Int) = a % 2 ^ 64 :=
    Int.toNat_of_nonneg (Int.emod_nonneg _ (by decide))
  unfold wrapInt64 toSigned toUnsigned
  split
  · rw [hn, Int.emod_emod_of_dvd _ dvd_rfl]
  · rw [Int.sub_emod, hn, Int.emod_emod_of_dvd _ dvd_rfl, Int.emod_self, Int.sub_zero,
      Int.emod_emod_of_dvd _ dvd_rfl]

theorem wrapInt64_add (a b : Int) : wrapInt64 (wrapInt64 a + b) = wrapInt64 (a + b) := by
  have h : (wrapInt64 a + b) % 2 ^ 64 = (a + b) % 2 ^ 64 := by
    rw [Int.add_emod, wrapInt64_emod, ← Int.add_emod]
  rw [wrapInt64, toUnsigned, h]
  rfl

/-! ### The period -/

theorem le_ite {c : Prop} [Decidable c] {a b x : Int} (ha : x ≤ a) (hb : x ≤ b) :
    x ≤ (if c then a else b) := by
  split
  · exact ha
  · exact hb

/-- Two tests of one threshold chain, the second passing only where the first does. -/
theorem ite_le_ite {c d : Prop} [Decidable c] [Decidable d] {v x y : Int} (hdc : d → c)
    (hxy : x ≤ y) (hv : v ≤ y) : (if c then v else x) ≤ (if d then v else y) := by
  by_cases hd : d
  · rw [if_pos (hdc hd), if_pos hd]
  · rw [if_neg hd]
    split
    · exact hv
    · exact hxy

theorem second_le_dynamicTickDuration (remaining : Int) :
    Time.second ≤ dynamicTickDuration remaining := by
  unfold dynamicTickDuration hour minute Time.second
  omega

/-- A later shutdown never gets a shorter period: the two chains are compared test by test,
each period being at most every later one. -/
theorem dynamicTickDuration_mono {a b : Int} (h : a ≤ b) :
    dynamicTickDuration a ≤ dynamicTickDuration b := by
  unfold dynamicTickDuration hour minute Time.second
  repeat' (first | decide |
    refine ite_le_ite (fun hb => h.trans hb) ?_ (by repeat' (first | decide | apply le_ite)))

/-- **The period fits the time left**: for a second or more, `DynamicTickDuration` picks a period
no longer than the time. -/
theorem dynamicTickDuration_le {remaining : Int} (h : Time.second ≤ remaining) :
    dynamicTickDuration remaining ≤ remaining := by
  unfold dynamicTickDuration hour minute Time.second at *
  omega

/-- A shutdown a minute away. -/
theorem dynamicTickDuration_le_minute :
    Time.second ≤ minute ∧ dynamicTickDuration minute ≤ minute :=
  ⟨by decide, dynamicTickDuration_le (by decide)⟩

/-! ### Every run -/

/-- **The countdown adds the ticks**: for a duration of `int64` range, after any ticks of a run,
`remaining` is the duration plus the sum of the ticks' periods, as an `int64`. -/
theorem tickRun_remaining {duration : Int} (hd : InRange 64 duration) {s : Countdown}
    (h : TickRun duration s) : s.remaining = wrapInt64 (duration + s.ticks.sum) := by
  induction h with
  | start => exact (toSigned_toUnsigned (by decide) hd).symm.trans (by simp [wrapInt64,
      Countdown.start])
  | tick _ _ ih =>
    rw [Countdown.remaining_tick, Countdown.ticks_tick, ih, wrapInt64_add, List.sum_append,
      List.sum_singleton, Int.add_assoc]

/-- Ten seconds, after the first tick. -/
theorem tickRun_remaining_firstTick :
    InRange 64 (10 * Time.second) ∧
      TickRun (10 * Time.second) (Countdown.start (10 * Time.second)).tick ∧
      (Countdown.start (10 * Time.second)).tick.remaining =
        wrapInt64 (10 * Time.second + (Countdown.start (10 * Time.second)).tick.ticks.sum) :=
  have h : TickRun (10 * Time.second) (Countdown.start (10 * Time.second)).tick :=
    .tick .start (by decide)
  ⟨by decide, h, tickRun_remaining (by decide) h⟩

/-- **The countdown goes up**: ten seconds before shutdown the ticker's period is five seconds, so
its first tick comes before `done`; the tick adds its five seconds, and the goroutine logs fifteen
seconds left where five remain. -/
theorem scheduleShutdown_countdown_grows :
    TickRun (10 * Time.second) (Countdown.start (10 * Time.second)).tick ∧
      (Countdown.start (10 * Time.second)).tick.ticks = [5 * Time.second] ∧
      (Countdown.start (10 * Time.second)).tick.remaining = 15 * Time.second ∧
      (Countdown.start (10 * Time.second)).tick.remaining ≠
        10 * Time.second - (Countdown.start (10 * Time.second)).tick.ticks.sum ∧
      (Countdown.start (10 * Time.second)).tick.warnings = [10 * Time.second, 15 * Time.second] :=
  ⟨.tick .start (by decide), by decide, by decide, by decide, by decide⟩

/-- What holds through a run whose countdown cannot overflow: the ticker's next tick is one
period after the ticks so far, which `done` bounds; `remaining` is the duration plus them; and
the period and every warning are at least those of the start. -/
structure CountdownInv (duration : Int) (s : Countdown) : Prop where
  clock : s.nextTick = s.ticks.sum + s.tickDuration
  elapsed_nonneg : 0 ≤ s.ticks.sum
  elapsed_le : s.ticks.sum ≤ duration
  remaining : s.remaining = duration + s.ticks.sum
  period : dynamicTickDuration duration ≤ s.tickDuration
  warnings : ∀ w ∈ s.warnings, duration ≤ w

/-- What a tick does: below a second, the countdown moves and nothing else; otherwise the
period becomes `DynamicTickDuration` of the new time, whichever ticker then fires. -/
theorem Countdown.tick_cases (s : Countdown) :
    (wrapInt64 (s.remaining + s.tickDuration) < Time.second ∧
      s.tick = ⟨wrapInt64 (s.remaining + s.tickDuration), s.tickDuration,
        s.nextTick + s.tickDuration, s.ticks ++ [s.tickDuration], s.warnings⟩) ∨
    (Time.second ≤ wrapInt64 (s.remaining + s.tickDuration) ∧
      s.tick = ⟨wrapInt64 (s.remaining + s.tickDuration),
        dynamicTickDuration (wrapInt64 (s.remaining + s.tickDuration)),
        s.nextTick + dynamicTickDuration (wrapInt64 (s.remaining + s.tickDuration)),
        s.ticks ++ [s.tickDuration], s.warnings ++ [wrapInt64 (s.remaining + s.tickDuration)]⟩) := by
  dsimp only [Countdown.tick]
  rw [Int.sub_neg]
  split
  · exact .inl ⟨‹_›, rfl⟩
  · refine .inr ⟨by omega, ?_⟩
    split
    · rfl
    · rename_i h
      rw [← Decidable.of_not_not h]

theorem CountdownInv.tick {duration : Int} (hd : duration < 2 ^ 62) {s : Countdown}
    (hs : CountdownInv duration s) (hdone : s.nextTick ≤ duration) :
    CountdownInv duration s.tick := by
  obtain ⟨hclock, hnonneg, hle, hrem, hperiod, hwarn⟩ := hs
  have hpos : 0 < s.tickDuration :=
    lt_of_lt_of_le (by decide) ((second_le_dynamicTickDuration duration).trans hperiod)
  -- the new time is the duration plus the ticks, within `int64`
  have hr : wrapInt64 (s.remaining + s.tickDuration) = duration + (s.ticks.sum + s.tickDuration) := by
    have hin : InRange 64 (s.remaining + s.tickDuration) := by
      unfold InRange; norm_num; omega
    rw [wrapInt64, toSigned_toUnsigned (by decide) hin, hrem, Int.add_assoc]
  rcases s.tick_cases with ⟨-, heq⟩ | ⟨-, heq⟩ <;> rw [heq] <;>
    refine ⟨?_, ?_, ?_, ?_, ?_, ?_⟩ <;> simp only [List.sum_append, List.sum_singleton, hr]
  all_goals try omega
  · exact hwarn
  · exact dynamicTickDuration_mono (by omega)
  · intro w hw
    rcases List.mem_append.mp hw with hw | hw
    · exact hwarn w hw
    · rw [List.mem_singleton.mp hw]; omega

/-- **Over every run the countdown only grows**: for a duration from `0` up to `2 ^ 62`
nanoseconds (146 years), in every run `remaining` is the duration plus the time the ticks have
taken, no warning gives less time than the duration, and the period never falls below the one
the shutdown started with. -/
theorem tickRun_countdownInv {duration : Int} (h₀ : 0 ≤ duration) (hd : duration < 2 ^ 62)
    {s : Countdown} (h : TickRun duration s) : CountdownInv duration s := by
  induction h with
  | start =>
    exact ⟨by simp [Countdown.start], le_refl _, by simpa using h₀, by simp [Countdown.start],
      le_refl _, by simp [Countdown.start]⟩
  | tick _ hdone ih => exact ih.tick hd hdone

/-- Ten seconds, after the first tick. -/
theorem tickRun_countdownInv_firstTick :
    0 ≤ 10 * Time.second ∧ 10 * Time.second < 2 ^ 62 ∧
      TickRun (10 * Time.second) (Countdown.start (10 * Time.second)).tick ∧
      CountdownInv (10 * Time.second) (Countdown.start (10 * Time.second)).tick :=
  have h : TickRun (10 * Time.second) (Countdown.start (10 * Time.second)).tick :=
    .tick .start (by decide)
  ⟨by decide, by decide, h, tickRun_countdownInv (by decide) (by decide) h⟩

end Pod.Node
