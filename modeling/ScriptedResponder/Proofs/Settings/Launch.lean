import ScriptedResponder.Proofs.Settings.Arguments
import ScriptedResponder.Startup

/-!
From the settings to the running server. Three bounds meet here: seconds are admitted up to the
longest period, the default sweep interval is a checked multiple of the time to live, and the store
and the sweeper cut their periods down. The first bound makes the check succeed and the store keep
its period; only the sweeper's period may be cut, and then to the longest.
-/

set_option autoImplicit false

namespace ScriptedResponder

/-! ### Spans of time in machine words -/

def word? (number : Nat) : Option UInt64 :=
  if number < UInt64.size then some (UInt64.ofNat number) else none

theorem word?_eq_some {number : Nat} {word : UInt64} (fits : word? number = some word) :
    word.toNat = number := by
  unfold word? at fits
  split at fits
  · rename_i small
    cases fits
    exact UInt64.toNat_ofNat_of_lt' small
  · cases fits

theorem word?_eq_none {number : Nat} : word? number = none ↔ UInt64.size ≤ number := by
  unfold word?
  split <;> simp <;> omega

structure Timespan where
  seconds : UInt64
  nanoseconds : Nat
  fraction : nanoseconds < Period.second
  deriving DecidableEq, Repr

namespace Timespan

def period (span : Timespan) : Nat := Period.ofSeconds span.seconds.toNat + span.nanoseconds

def longest : Timespan :=
  { seconds := UInt64.ofNat (UInt64.size - 1)
    nanoseconds := Period.second - 1
    fraction := by decide }

/-- A multiple of a span, if its seconds still fit a word; whole seconds among the multiplied
nanoseconds are carried. -/
def times? (span : Timespan) (factor : Nat) : Option Timespan := do
  let total := span.nanoseconds * factor
  let whole ← word? (span.seconds.toNat * factor)
  let seconds ← word? (whole.toNat + total / Period.second)
  return { seconds, nanoseconds := total % Period.second, fraction := Nat.mod_lt _ (by decide) }

theorem mul_period (span : Timespan) (factor : Nat) :
    Period.seconds (span.period * factor) =
        span.seconds.toNat * factor + span.nanoseconds * factor / Period.second ∧
      Period.subsecond (span.period * factor) = span.nanoseconds * factor % Period.second := by
  have spread : span.period * factor =
      span.nanoseconds * factor + span.seconds.toNat * factor * Period.second := by
    rw [period, Period.ofSeconds, Nat.add_mul, Nat.mul_right_comm, Nat.add_comm]
  rw [Period.seconds, Period.subsecond, spread]
  exact ⟨by rw [Nat.add_mul_div_right _ _ (by decide), Nat.add_comm],
    Nat.add_mul_mod_self_right _ _ _⟩

/-- Multiplying word by word is multiplying the periods, as far as a word of seconds reaches. -/
theorem times?_period (span : Timespan) (factor : Nat) :
    (span.times? factor).map period =
      if Period.fits (span.period * factor) then some (span.period * factor) else none := by
  obtain ⟨seconds, subsecond⟩ := span.mul_period factor
  have rebuilt : span.period * factor =
      Period.ofSeconds (Period.seconds (span.period * factor)) +
        Period.subsecond (span.period * factor) := (Nat.div_add_mod' _ _).symm
  rw [seconds, subsecond] at rebuilt
  unfold times? Period.fits
  rw [seconds]
  cases wholeFits : word? (span.seconds.toNat * factor) with
  | none =>
      have overflows : ¬span.seconds.toNat * factor +
          span.nanoseconds * factor / Period.second < UInt64.size :=
        Nat.not_lt.mpr (Nat.le_add_right_of_le (word?_eq_none.mp wholeFits))
      simp [overflows]
  | some whole =>
      have wholeSeconds := word?_eq_some wholeFits
      cases sumFits : word? (whole.toNat + span.nanoseconds * factor / Period.second) with
      | none =>
          have overflows := Nat.not_lt.mpr (word?_eq_none.mp sumFits)
          rw [wholeSeconds] at overflows
          simp [sumFits, overflows]
      | some sum =>
          have sumSeconds := word?_eq_some sumFits
          have sumSmall := UInt64.toNat_lt_size sum
          rw [sumSeconds, wholeSeconds] at sumSmall
          rw [wholeSeconds] at sumSeconds
          simp [sumFits, sumSmall, period, sumSeconds, ← rebuilt]

end Timespan

theorem Period.fits_iff {period : Nat} :
    Period.fits period = true ↔ period ≤ Timespan.longest.period := by
  have longest : Timespan.longest.period + 1 = UInt64.size * Period.second := by decide
  rw [Period.fits, Period.seconds, decide_eq_true_eq, Nat.div_lt_iff_lt_mul (by decide), ← longest,
    Nat.lt_succ_iff]

/-! ### The time between sweeps -/

namespace Settings

theorem sweepPeriod_none_eq_ok_iff {ttl period : Nat} :
    sweepPeriod ttl none = .ok period ↔ period = 3 * ttl ∧ period ≤ Timespan.longest.period := by
  have tripled : ttl * sweepFactor = 3 * ttl := Nat.mul_comm ttl 3
  rw [sweepPeriod, tripled]
  split
  · rename_i fits
    have bounded := Period.fits_iff.mp fits
    constructor
    · intro result
      cases result
      exact ⟨rfl, bounded⟩
    · rintro ⟨rfl, _⟩
      rfl
  · rename_i overflows
    constructor
    · intro impossible
      cases impossible
    · rintro ⟨rfl, bounded⟩
      exact absurd (Period.fits_iff.mpr bounded) overflows

theorem sweepPeriod_none_eq_times? (span : Timespan) :
    sweepPeriod span.period none =
      match span.times? 3 with
      | some tripled => .ok tripled.period
      | none => .error { ttl := span.period } := by
  have product := span.times?_period 3
  unfold sweepPeriod sweepFactor
  by_cases fits : Period.fits (span.period * 3) = true
  · rw [if_pos fits] at product
    obtain ⟨tripled, words, same⟩ := Option.map_eq_some_iff.mp product
    simp only [words, same, fits, if_true]
  · rw [if_neg fits] at product
    have words := Option.map_eq_none_iff.mp product
    simp only [words, fits, Bool.false_eq_true, if_false]

def interval (settings : Settings) : Nat :=
  match settings.sweepInterval with
  | some seconds => Period.ofSeconds seconds
  | none => 3 * Period.ofSeconds settings.storageTtl

def sweeperPeriod (settings : Settings) : Nat := min settings.interval Period.longest

structure InRange (settings : Settings) : Prop where
  storageTtl : Period.Admits settings.storageTtl
  sweepInterval : ∀ seconds ∈ settings.sweepInterval, Period.Admits seconds

end Settings

theorem Period.Admits.second_le {seconds : Nat} (admitted : Period.Admits seconds) :
    Period.second ≤ Period.ofSeconds seconds :=
  Nat.le_mul_of_pos_left Period.second admitted.1

theorem Period.Admits.le_longest {seconds : Nat} (admitted : Period.Admits seconds) :
    Period.ofSeconds seconds ≤ Period.longest :=
  Nat.mul_le_mul_right Period.second admitted.2

namespace Settings.InRange

variable {settings : Settings}

theorem second_le_interval (inRange : settings.InRange) : Period.second ≤ settings.interval := by
  unfold interval
  split
  · rename_i seconds explicit
    exact (inRange.sweepInterval seconds explicit).second_le
  · exact Nat.le_trans inRange.storageTtl.second_le (Nat.le_mul_of_pos_left _ (by decide))

theorem sweep (inRange : settings.InRange) : settings.sweep = .ok settings.interval := by
  unfold Settings.sweep interval
  cases settings.sweepInterval with
  | some seconds => rfl
  | none =>
      refine sweepPeriod_none_eq_ok_iff.mpr ⟨rfl, ?_⟩
      have longestTripled : 3 * Period.longest ≤ Timespan.longest.period := by decide
      exact Nat.le_trans (Nat.mul_le_mul_left 3 inRange.storageTtl.le_longest) longestTripled

theorem store (inRange : settings.InRange) :
    CountStore.ofTtl (Period.ofSeconds settings.storageTtl) =
      { ttl := Period.ofSeconds settings.storageTtl, entries := [] } := by
  rw [CountStore.ofTtl, Nat.min_eq_left inRange.storageTtl.le_longest]

theorem second_le_sweeperPeriod (inRange : settings.InRange) :
    Period.second ≤ settings.sweeperPeriod :=
  Nat.le_min.mpr ⟨inRange.second_le_interval, by decide⟩

theorem launch (inRange : settings.InRange) (clock : Nat) :
    Startup.launch clock settings settings.interval =
      { clock
        store := { ttl := Period.ofSeconds settings.storageTtl, entries := [] }
        tasks := [.sweeper (some "sweeper") settings.sweeperPeriod (clock + settings.sweeperPeriod)]
        records := [] } := by
  have shortest : Period.shortestSweep ≤ settings.sweeperPeriod :=
    Nat.le_trans (by decide) inRange.second_le_sweeperPeriod
  have clamped : max Period.shortestSweep (min settings.interval Period.longest) =
      settings.sweeperPeriod := Nat.max_eq_right shortest
  simp only [Startup.launch, Timeline.start, Timeline.startSweeper, clamped, inRange.store,
    List.map_nil, List.nil_append]

end Settings.InRange

/-! ### Starting -/

namespace CommandLine

variable {arguments : List String} {environment : String → Option String}

theorem Asked.exists_read {flag : Flag} {value : flag.Value}
    (asked : Asked arguments environment flag (some value)) :
    ∃ text, flag.read? text = some value := by
  cases asked with
  | byArgument _ read => exact ⟨_, read⟩
  | byVariable _ _ read => exact ⟨_, read⟩

theorem admits_of_toOption {text : String} {seconds : Nat}
    (read : (Settings.seconds? text).toOption = some seconds) : Period.Admits seconds := by
  cases result : Settings.seconds? text with
  | error defect =>
      rw [result] at read
      cases read
  | ok number =>
      rw [result] at read
      cases read
      exact (Settings.seconds?_eq_ok_iff.mp result).2

end CommandLine

/-- The periods of settings are those that a command line and an environment ask for, they are in
range, and everything that starting makes of them keeps to them. -/
structure Settings.Sound (arguments : List String) (environment : String → Option String)
    (settings : Settings) : Prop where
  ttlAsked : ∃ ttl, CommandLine.Asked arguments environment .storageTtl ttl ∧
    settings.storageTtl = ttl.getD Settings.default.storageTtl
  sweepAsked : CommandLine.Asked arguments environment .sweepInterval settings.sweepInterval
  inRange : settings.InRange
  sweep : settings.sweep = .ok settings.interval
  store : CountStore.ofTtl (Period.ofSeconds settings.storageTtl) =
    { ttl := Period.ofSeconds settings.storageTtl, entries := [] }
  launch : ∀ clock, Startup.launch clock settings settings.interval =
    { clock
      store := { ttl := Period.ofSeconds settings.storageTtl, entries := [] }
      tasks := [.sweeper (some "sweeper") settings.sweeperPeriod (clock + settings.sweeperPeriod)]
      records := [] }
  positive : 0 < settings.sweeperPeriod
  bounded : settings.sweeperPeriod ≤ Period.longest

theorem CommandLine.sound_of_settings {arguments : List String}
    {environment : String → Option String} {accepted : Settings}
    (settled : settings arguments environment = .ok accepted) :
    accepted.Sound arguments environment := by
  obtain ⟨choices, rfl, asked⟩ := asked_of_settings settled
  have ttlAsked := asked .storageTtl
  have sweepAsked := asked .sweepInterval
  have inRange : choices.toSettings.InRange := by
    constructor
    · show Period.Admits (choices.storageTtl.getD Settings.default.storageTtl)
      cases chosen : choices.storageTtl with
      | none => exact ⟨by decide, by decide⟩
      | some seconds =>
          rw [show choices.value? .storageTtl = some seconds from chosen] at ttlAsked
          obtain ⟨_, read⟩ := ttlAsked.exists_read
          exact admits_of_toOption read
    · intro seconds chosen
      rw [show choices.value? .sweepInterval = some seconds from chosen] at sweepAsked
      obtain ⟨_, read⟩ := sweepAsked.exists_read
      exact admits_of_toOption read
  exact
    { ttlAsked := ⟨_, ttlAsked, rfl⟩
      sweepAsked
      inRange
      sweep := inRange.sweep
      store := inRange.store
      launch := inRange.launch
      positive := Nat.lt_of_lt_of_le (by decide) inRange.second_le_sweeperPeriod
      bounded := Nat.min_le_right _ _ }

/-- Starting fails only by the arguments or by the address, and what is accepted starts with the
periods it asked for. The seconds accepted are the numerals of the numbers admitted, and a default
sweep interval is three times its time to live, computed in machine words, wherever that is a span
of time at all. -/
theorem starts_with_periods_asked :
    (∀ (canListen : String → Nat → Bool) (arguments : List String)
      (environment : String → Option String),
      let startup := Startup.attempt canListen arguments environment
      match CommandLine.settings arguments environment with
      | .error .helpRequested => startup = .help ∧ startup.exitStatus = some 0
      | .error refusal => startup = .refused refusal ∧ startup.exitStatus = some 2
      | .ok settings =>
          settings.Sound arguments environment ∧
            if canListen settings.host settings.port = true then
              startup = .running settings settings.interval
            else startup = .unbound settings ∧ startup.exitStatus = some 1) ∧
    (∀ (text : String) (seconds : Nat), Settings.seconds? text = .ok seconds ↔
      Numeral.Writes text.toList seconds ∧ Period.Admits seconds) ∧
    (∀ (span : Timespan) (period : Nat), Settings.sweepPeriod span.period none = .ok period ↔
      period = 3 * span.period ∧ period ≤ Timespan.longest.period) ∧
    (∀ span : Timespan, Settings.sweepPeriod span.period none =
      match span.times? 3 with
      | some tripled => .ok tripled.period
      | none => .error { ttl := span.period }) := by
  refine ⟨fun canListen arguments environment => ?_, fun _ _ => Settings.seconds?_eq_ok_iff,
    fun _ _ => Settings.sweepPeriod_none_eq_ok_iff, Settings.sweepPeriod_none_eq_times?⟩
  unfold Startup.attempt
  cases result : CommandLine.settings arguments environment with
  | error refusal => cases refusal <;> exact ⟨rfl, rfl⟩
  | ok settings =>
      have sound := CommandLine.sound_of_settings result
      refine ⟨sound, ?_⟩
      simp only [sound.sweep]
      split
      · rfl
      · exact ⟨rfl, rfl⟩

/-- A hundred years of life would ask for sweeps three hundred years apart; the sweeper's period is
cut down to a hundred, the store's time to live is not. -/
example : ({ Settings.default with storageTtl := Period.longestSeconds }).sweeperPeriod =
    Period.longest := by decide

end ScriptedResponder
