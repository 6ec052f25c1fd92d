import ScriptedResponder.Proofs.Numeral
import ScriptedResponder.Settings.CommandLine

/-!
The flags as places for values. Each flag has a kind of value and a way to read one from a text;
choosing a text for a flag puts the value read there and leaves every other flag as it was. What is
said of choices below is said of an arbitrary flag through `Choices.value?`, never flag by flag, and
what is said of settings through `Settings.value?`.
-/

set_option autoImplicit false

namespace ScriptedResponder

def Period.Admits (seconds : Nat) : Prop := 1 ≤ seconds ∧ seconds ≤ Period.longestSeconds

private theorem seconds?_eq_ok_iff_unsigned? {text : String} {seconds : Nat} :
    Settings.seconds? text = .ok seconds ↔
      Numeral.unsigned? text.toList = some seconds ∧ Period.Admits seconds := by
  unfold Settings.seconds? Period.Admits
  cases Numeral.unsigned? text.toList with
  | none => simp
  | some number =>
      by_cases zero : number = 0
      · subst zero
        simp only [if_true, reduceCtorEq, Option.some.injEq, false_iff, not_and]
        omega
      · by_cases tooLong : Period.longestSeconds < number
        · simp only [if_neg zero, if_pos tooLong, reduceCtorEq, Option.some.injEq, false_iff,
            not_and]
          omega
        · simp only [if_neg zero, if_neg tooLong, Except.ok.injEq, Option.some.injEq,
            iff_self_and]
          omega

theorem Settings.seconds?_eq_ok_iff {text : String} {seconds : Nat} :
    Settings.seconds? text = .ok seconds ↔
      Numeral.Writes text.toList seconds ∧ Period.Admits seconds := by
  rw [seconds?_eq_ok_iff_unsigned?, Numeral.unsigned?_eq_some_iff, and_assoc]
  refine and_congr_right fun _ => and_iff_right_of_imp fun admitted => ?_
  -- The word is no bound of its own: every number admitted fits.
  have wordHoldsLongest : Period.longestSeconds ≤ Numeral.unsignedLimit := by decide
  exact Nat.le_trans admitted.2 wordHoldsLongest

/-! ### The value of a flag -/

def Flag.Value : Flag → Type
  | .host => String
  | .port => Nat
  | .storageTtl => Nat
  | .sweepInterval => Nat
  | .logFormat => LogFormat

def Flag.read? : (flag : Flag) → String → Option flag.Value
  | .host, text => some text
  | .port, text => Settings.port? text
  | .storageTtl, text => (Settings.seconds? text).toOption
  | .sweepInterval, text => (Settings.seconds? text).toOption
  | .logFormat, text => Settings.logFormat? text

def Flag.Accepts (flag : Flag) (text : String) : Prop := ∃ value, flag.read? text = some value

theorem Flag.mem_all (flag : Flag) : flag ∈ Flag.all := by
  cases flag <;> decide

namespace Choices

def value? (choices : Choices) : (flag : Flag) → Option flag.Value
  | .host => choices.host
  | .port => choices.port
  | .storageTtl => choices.storageTtl
  | .sweepInterval => choices.sweepInterval
  | .logFormat => choices.logFormat

def put (choices : Choices) : (flag : Flag) → flag.Value → Choices
  | .host, host => { choices with host := some host }
  | .port, port => { choices with port := some port }
  | .storageTtl, seconds => { choices with storageTtl := some seconds }
  | .sweepInterval, seconds => { choices with sweepInterval := some seconds }
  | .logFormat, format => { choices with logFormat := some format }

def Holds (choices : Choices) (flag : Flag) (text : String) : Prop :=
  ∃ value, flag.read? text = some value ∧ choices.value? flag = some value

/-- One flag takes the value of a text, and the others stay. -/
structure Takes (before : Choices) (flag : Flag) (text : String) (after : Choices) : Prop where
  holds : after.Holds flag text
  others : ∀ other, other ≠ flag → after.value? other = before.value? other

theorem isGiven_eq (choices : Choices) (flag : Flag) :
    choices.isGiven flag = (choices.value? flag).isSome := by
  cases flag <;> rfl

theorem value?_eq_none_of_isGiven {choices : Choices} {flag : Flag}
    (notGiven : choices.isGiven flag = false) : choices.value? flag = none := by
  rw [isGiven_eq] at notGiven
  exact Option.isNone_iff_eq_none.mp (Option.isSome_eq_false_iff.mp notGiven)

theorem value?_put (choices : Choices) (flag : Flag) (value : flag.Value) :
    (choices.put flag value).value? flag = some value := by
  cases flag <;> rfl

theorem value?_put_of_ne (choices : Choices) {flag other : Flag} (value : flag.Value)
    (different : other ≠ flag) : (choices.put flag value).value? other = choices.value? other := by
  cases flag <;> cases other <;> trivial

theorem Holds.isGiven {choices : Choices} {flag : Flag} {text : String}
    (held : choices.Holds flag text) : choices.isGiven flag = true := by
  obtain ⟨value, _, chosen⟩ := held
  rw [isGiven_eq, chosen]
  rfl

theorem Takes.isGiven_other {before after : Choices} {flag other : Flag} {text : String}
    (taken : before.Takes flag text after) (different : other ≠ flag) :
    after.isGiven other = before.isGiven other := by
  rw [isGiven_eq, isGiven_eq, taken.others other different]

theorem Takes.holds_other {before after : Choices} {flag other : Flag} {text otherText : String}
    (taken : before.Takes flag text after) (different : other ≠ flag)
    (held : before.Holds other otherText) : after.Holds other otherText := by
  rw [Holds, taken.others other different]
  exact held

private theorem ok_put_iff (choices : Choices) (flag : Flag) (value : flag.Value)
    (chosen : Choices) :
    (Except.ok (choices.put flag value) : Except Refusal Choices) = .ok chosen ↔
      ∃ own, some value = some own ∧ choices.put flag own = chosen := by
  simp

/-- Choosing puts the value that the text stands for, if it stands for one. -/
theorem choose_eq_ok_iff {choices chosen : Choices} {flag : Flag} {text : String} :
    choices.choose flag text = .ok chosen ↔
      ∃ value, flag.read? text = some value ∧ choices.put flag value = chosen := by
  cases flag with
  | host => exact ok_put_iff choices .host text chosen
  | port =>
      cases read : Settings.port? text with
      | none => simp [choose, Flag.read?, read]
      | some port =>
          simp only [choose, Flag.read?, read]
          exact ok_put_iff choices .port port chosen
  | storageTtl =>
      cases read : Settings.seconds? text with
      | error defect => simp [choose, Flag.read?, read, Except.toOption]
      | ok seconds =>
          simp only [choose, Flag.read?, read]
          exact ok_put_iff choices .storageTtl seconds chosen
  | sweepInterval =>
      cases read : Settings.seconds? text with
      | error defect => simp [choose, Flag.read?, read, Except.toOption]
      | ok seconds =>
          simp only [choose, Flag.read?, read]
          exact ok_put_iff choices .sweepInterval seconds chosen
  | logFormat =>
      cases read : Settings.logFormat? text with
      | none => simp [choose, Flag.read?, read]
      | some format =>
          simp only [choose, Flag.read?, read]
          exact ok_put_iff choices .logFormat format chosen

theorem exists_choose {flag : Flag} {text : String} (accepted : flag.Accepts text)
    (choices : Choices) : ∃ chosen, choices.choose flag text = .ok chosen := by
  obtain ⟨value, read⟩ := accepted
  exact ⟨choices.put flag value, choose_eq_ok_iff.mpr ⟨value, read, rfl⟩⟩

theorem takes_of_choose {choices chosen : Choices} {flag : Flag} {text : String}
    (chose : choices.choose flag text = .ok chosen) : choices.Takes flag text chosen := by
  obtain ⟨value, read, rfl⟩ := choose_eq_ok_iff.mp chose
  exact ⟨⟨value, read, value?_put choices flag value⟩, fun _ => value?_put_of_ne choices value⟩

theorem takes_of_give {choices chosen : Choices} {flag : Flag} {text : String}
    (gave : choices.give flag text = .ok chosen) :
    choices.isGiven flag = false ∧ choices.Takes flag text chosen := by
  unfold give at gave
  split at gave
  · cases gave
  · rename_i notGiven
    exact ⟨eq_false_of_ne_true notGiven, takes_of_choose gave⟩

end Choices

/-! ### The values of settings -/

def Settings.value? (settings : Settings) : (flag : Flag) → Option flag.Value
  | .host => some settings.host
  | .port => some settings.port
  | .storageTtl => some settings.storageTtl
  | .sweepInterval => settings.sweepInterval
  | .logFormat => some settings.logFormat

theorem Settings.eq_of_value? {settings other : Settings}
    (same : ∀ flag, settings.value? flag = other.value? flag) : settings = other := by
  obtain ⟨host, port, storageTtl, sweepInterval, logFormat⟩ := settings
  obtain rfl := Option.some.inj (same .host)
  obtain rfl := Option.some.inj (same .port)
  obtain rfl := Option.some.inj (same .storageTtl)
  obtain rfl := same .sweepInterval
  obtain rfl := Option.some.inj (same .logFormat)
  rfl

/-- What is not chosen is as it is by default. -/
theorem Choices.value?_toSettings (choices : Choices) (flag : Flag) :
    choices.toSettings.value? flag = (choices.value? flag).or (Settings.default.value? flag) := by
  obtain ⟨host, port, storageTtl, sweepInterval, logFormat⟩ := choices
  cases flag with
  | host => cases host <;> rfl
  | port => cases port <;> rfl
  | storageTtl => cases storageTtl <;> rfl
  | sweepInterval => cases sweepInterval <;> rfl
  | logFormat => cases logFormat <;> rfl

theorem Choices.Holds.value?_toSettings {choices : Choices} {flag : Flag} {text : String}
    (held : choices.Holds flag text) : choices.toSettings.value? flag = flag.read? text := by
  obtain ⟨value, read, chosen⟩ := held
  rw [Choices.value?_toSettings, chosen, read, Option.some_or]

end ScriptedResponder
