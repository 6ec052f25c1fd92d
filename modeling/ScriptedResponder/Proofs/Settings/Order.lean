import ScriptedResponder.Proofs.Settings.Arguments

/-!
Flags in any order. A command line made of flags with their values gives each flag its text in turn
(`read_argumentsOf`), however the value is attached; so flags that are given once, and with values that
can be read, settle themselves alone, and the environment is asked for the others only. A flag that
occurs twice is refused wherever it stands.
-/

set_option autoImplicit false

namespace ScriptedResponder

namespace CommandLine

/-! ### Flags as they are given -/

structure Occurrence where
  flag : Flag
  text : String
  apart : Bool
  deriving DecidableEq, Repr

namespace Occurrence

def arguments (occurrence : Occurrence) : List String :=
  if occurrence.apart then ["--" ++ occurrence.flag.name, occurrence.text]
  else ["--" ++ occurrence.flag.name ++ "=" ++ occurrence.text]

/-- A value in an argument of its own does not start with a dash. -/
def IsLegible (occurrence : Occurrence) : Prop :=
  occurrence.apart = true → ∀ rest, occurrence.text.toList ≠ '-' :: rest

def IsValid (occurrence : Occurrence) : Prop := occurrence.flag.Accepts occurrence.text

end Occurrence

def argumentsOf (line : List Occurrence) : List String := line.flatMap Occurrence.arguments

def giveAll (choices : Choices) (line : List Occurrence) : Except Refusal Choices :=
  line.foldlM (fun choices occurrence => choices.give occurrence.flag occurrence.text) choices

theorem giveAll_cons (choices : Choices) (occurrence : Occurrence) (line : List Occurrence) :
    giveAll choices (occurrence :: line) =
      choices.give occurrence.flag occurrence.text >>= fun next => giveAll next line :=
  List.foldlM_cons

theorem classify_flag (flag : Flag) : classify ("--" ++ flag.name) = .flag flag := by
  cases flag <;> rfl

theorem classify_assignment (flag : Flag) (text : String) :
    classify ("--" ++ flag.name ++ "=" ++ text) = .assignment flag text := by
  cases flag <;> simp [classify, splitAssignment, Flag.name, Flag.ofName?, Flag.all]

theorem classify_plain {text : String} (dashless : ∀ rest, text.toList ≠ '-' :: rest) :
    classify text = .plain text := by
  unfold classify
  split
  case h_1 same => exact absurd same (dashless _)
  case h_2 same => exact absurd same (dashless _)
  case h_3 same => exact absurd same (dashless _)
  case h_4 same => exact absurd same (dashless _)
  case h_5 same => exact absurd same (dashless _)
  case h_6 => rfl

/-! ### Reading a line of flags -/

theorem read_known {argument : String} {known : Argument} (classified : classify argument = known)
    (notSeparator : known ≠ .separator) (state : State) (rest : List String) :
    read state (argument :: rest) = readArgument state known >>= fun next => read next rest := by
  rw [read, classified]
  split
  · exact absurd rfl notSeparator
  · cases readArgument state known <;> rfl

theorem read_joined (flag : Flag) (text : String) (state : State) (rest : List String) :
    read state (("--" ++ flag.name ++ "=" ++ text) :: rest) =
      settle state >>= fun choices => choices.give flag text >>= fun next =>
        read { choices := next, pending := .nothing } rest := by
  rw [read_known (classify_assignment flag text) (by simp)]
  simp only [readArgument, bind_assoc, pure_bind]

theorem read_apart {text : String} (dashless : ∀ rest, text.toList ≠ '-' :: rest) (flag : Flag)
    (state : State) (rest : List String) :
    read state (("--" ++ flag.name) :: text :: rest) =
      settle state >>= fun choices => read { choices, pending := .value flag text } rest := by
  rw [read_known (classify_flag flag) (by simp)]
  simp only [readArgument, bind_assoc, pure_bind, read_known (classify_plain dashless) (by simp)]
  rfl

/-- A line of flags gives each of them its text, after what waits is settled. -/
theorem read_argumentsOf {line : List Occurrence} (legible : ∀ occurrence ∈ line, occurrence.IsLegible)
    (state : State) :
    read state (argumentsOf line) = settle state >>= fun choices => giveAll choices line := by
  -- By induction on the line: a value in an argument of its own is settled by what follows it.
  induction line generalizing state with
  | nil =>
      rw [argumentsOf, List.flatMap_nil, read]
      exact (bind_pure (settle state)).symm
  | cons occurrence line ih =>
      obtain ⟨own, others⟩ := List.forall_mem_cons.mp legible
      obtain ⟨flag, text, apart⟩ := occurrence
      simp only [giveAll_cons]
      cases apart with
      | false =>
          refine (read_joined flag text state (argumentsOf line)).trans ?_
          simp only [ih others]
          rfl
      | true =>
          refine (read_apart (own rfl) flag state (argumentsOf line)).trans ?_
          simp only [ih others]
          rfl

/-! ### Giving every flag its text -/

theorem exists_give {occurrence : Occurrence} (valid : occurrence.IsValid) {choices : Choices}
    (notGiven : choices.isGiven occurrence.flag = false) :
    ∃ next, choices.give occurrence.flag occurrence.text = .ok next ∧
      choices.Takes occurrence.flag occurrence.text next := by
  obtain ⟨next, chose⟩ := choices.exists_choose valid
  refine ⟨next, ?_, Choices.takes_of_choose chose⟩
  rw [Choices.give, notGiven]
  exact chose

/-- Flags that are open, no two of them the same, are all given, and no other flag is. -/
theorem exists_giveAll {line : List Occurrence} {choices : Choices}
    (once : (line.map Occurrence.flag).Nodup) (valid : ∀ occurrence ∈ line, occurrence.IsValid)
    (unset : ∀ occurrence ∈ line, choices.isGiven occurrence.flag = false) :
    ∃ given, giveAll choices line = .ok given ∧
      (∀ occurrence ∈ line, given.Holds occurrence.flag occurrence.text) ∧
      ∀ flag, flag ∉ line.map Occurrence.flag → given.value? flag = choices.value? flag := by
  induction line generalizing choices with
  | nil => exact ⟨choices, rfl, by simp, fun _ _ => rfl⟩
  | cons occurrence line ih =>
      obtain ⟨fresh, once⟩ := List.nodup_cons.mp once
      obtain ⟨ownValid, valid⟩ := List.forall_mem_cons.mp valid
      obtain ⟨ownOpen, unset⟩ := List.forall_mem_cons.mp unset
      obtain ⟨next, gave, taken⟩ := exists_give ownValid ownOpen
      have stillOpen : ∀ other ∈ line, next.isGiven other.flag = false := by
        intro other member
        have different : other.flag ≠ occurrence.flag := by
          intro same
          exact fresh (same ▸ List.mem_map.mpr ⟨other, member, rfl⟩)
        rw [taken.isGiven_other different]
        exact unset other member
      obtain ⟨given, gaveAll, held, others⟩ := ih once valid stillOpen
      refine ⟨given, ?_, ?_, ?_⟩
      · rw [giveAll_cons, gave]
        exact gaveAll
      · refine List.forall_mem_cons.mpr ⟨?_, held⟩
        rw [Choices.Holds, others occurrence.flag fresh]
        exact taken.holds
      · intro flag notMember
        obtain ⟨different, notLater⟩ := not_or.mp (mt List.mem_cons.mpr notMember)
        rw [others flag notLater, taken.others flag different]

theorem once_of_giveAll {line : List Occurrence} {choices given : Choices}
    (gave : giveAll choices line = .ok given) :
    (line.map Occurrence.flag).Nodup ∧
      ∀ occurrence ∈ line, choices.isGiven occurrence.flag = false := by
  induction line generalizing choices with
  | nil => exact ⟨List.nodup_nil, by simp⟩
  | cons occurrence line ih =>
      rw [giveAll_cons] at gave
      obtain ⟨next, gaveFirst, gaveRest⟩ := bind_eq_ok_iff.mp gave
      obtain ⟨notGiven, taken⟩ := Choices.takes_of_give gaveFirst
      obtain ⟨once, unset⟩ := ih gaveRest
      have different : ∀ other ∈ line, other.flag ≠ occurrence.flag := by
        intro other member same
        have later := unset other member
        rw [same, taken.holds.isGiven] at later
        cases later
      constructor
      · refine List.nodup_cons.mpr ⟨?_, once⟩
        intro again
        obtain ⟨other, member, same⟩ := List.mem_map.mp again
        exact different other member same
      · refine List.forall_mem_cons.mpr ⟨notGiven, fun other member => ?_⟩
        rw [← taken.isGiven_other (different other member)]
        exact unset other member

theorem eq_repeatedFlag_of_giveAll {line : List Occurrence} {choices : Choices} {refusal : Refusal}
    (valid : ∀ occurrence ∈ line, occurrence.IsValid)
    (refused : giveAll choices line = .error refusal) : refusal = .repeatedFlag := by
  induction line generalizing choices with
  | nil => cases refused
  | cons occurrence line ih =>
      obtain ⟨ownValid, valid⟩ := List.forall_mem_cons.mp valid
      rw [giveAll_cons] at refused
      cases given : choices.isGiven occurrence.flag with
      | true =>
          have repeated : choices.give occurrence.flag occurrence.text = .error .repeatedFlag := by
            rw [Choices.give, given, if_pos rfl]
          rw [repeated] at refused
          exact (Except.error.inj refused).symm
      | false =>
          obtain ⟨next, gave, _⟩ := exists_give ownValid given
          rw [gave] at refused
          exact ih valid refused

end CommandLine

/-! ### The environment -/

namespace Choices

theorem exists_addVariable {environment : String → Option String} {flag : Flag} {before : Choices}
    (accepted : before.isGiven flag = false →
      ∀ text, environment flag.variableName = some text → flag.Accepts text) :
    ∃ after, before.addVariable environment flag = .ok after := by
  unfold addVariable
  cases given : before.isGiven flag with
  | true => exact ⟨before, rfl⟩
  | false =>
      cases set : environment flag.variableName with
      | none => exact ⟨before, rfl⟩
      | some text => exact before.exists_choose (accepted given text set)

theorem exists_addVariables {environment : String → Option String} {flags : List Flag}
    {before : Choices} (distinct : flags.Nodup)
    (accepted : ∀ flag ∈ flags, before.isGiven flag = false →
      ∀ text, environment flag.variableName = some text → flag.Accepts text) :
    ∃ after, flags.foldlM (addVariable environment) before = .ok after := by
  induction flags generalizing before with
  | nil => exact ⟨before, rfl⟩
  | cons flag flags ih =>
      obtain ⟨fresh, distinct⟩ := List.nodup_cons.mp distinct
      obtain ⟨own, later⟩ := List.forall_mem_cons.mp accepted
      obtain ⟨middle, added⟩ := exists_addVariable own
      have laterAccepted : ∀ other ∈ flags, middle.isGiven other = false →
          ∀ text, environment other.variableName = some text → other.Accepts text := by
        intro other member notGiven
        have different : other ≠ flag := fun same => fresh (same ▸ member)
        rw [isGiven_eq, (supplied_of_addVariable added).2 other different, ← isGiven_eq] at notGiven
        exact later other member notGiven
      obtain ⟨after, addedAll⟩ := ih distinct laterAccepted
      exact ⟨after, foldlM_cons_eq_ok_iff.mpr ⟨middle, added, addedAll⟩⟩

end Choices

/-! ### The settings of a line -/

namespace CommandLine

structure IsLine (line : List Occurrence) : Prop where
  once : (line.map Occurrence.flag).Nodup
  legible : ∀ occurrence ∈ line, occurrence.IsLegible
  valid : ∀ occurrence ∈ line, occurrence.IsValid

/-- An environment in which the variables of the flags that are not on the line are unset or stand for
values. -/
def Complements (environment : String → Option String) (line : List Occurrence) : Prop :=
  ∀ flag, flag ∉ line.map Occurrence.flag →
    ∀ text, environment flag.variableName = some text → flag.Accepts text

/-- Two lines give the same flags the same texts, in whatever order and form, and the environments agree
on the other flags. -/
structure Agrees (line : List Occurrence) (environment : String → Option String)
    (other : List Occurrence) (otherEnvironment : String → Option String) : Prop where
  pairs : (other.map fun occurrence => (occurrence.flag, occurrence.text)).Perm
    (line.map fun occurrence => (occurrence.flag, occurrence.text))
  others : ∀ flag, flag ∉ line.map Occurrence.flag →
    otherEnvironment flag.variableName = environment flag.variableName

structure Settles (line : List Occurrence) (environment : String → Option String)
    (settings : Settings) : Prop where
  given : ∀ occurrence ∈ line,
    settings.value? occurrence.flag = occurrence.flag.read? occurrence.text
  set : ∀ flag, flag ∉ line.map Occurrence.flag →
    ∀ text, environment flag.variableName = some text → settings.value? flag = flag.read? text
  unset : ∀ flag, flag ∉ line.map Occurrence.flag → environment flag.variableName = none →
    settings.value? flag = Settings.default.value? flag

theorem settings_argumentsOf {line : List Occurrence}
    (legible : ∀ occurrence ∈ line, occurrence.IsLegible) (environment : String → Option String) :
    settings (argumentsOf line) environment =
      giveAll .empty line >>= fun given =>
        Flag.all.foldlM (Choices.addVariable environment) given >>= fun choices =>
          .ok choices.toSettings := by
  rw [settings, read_argumentsOf legible]
  rfl

theorem exists_settings {line : List Occurrence} {environment : String → Option String}
    (isLine : IsLine line) (complements : Complements environment line) :
    ∃ accepted, settings (argumentsOf line) environment = .ok accepted ∧
      Settles line environment accepted := by
  have unset : ∀ flag, Choices.empty.isGiven flag = false := by
    intro flag
    cases flag <;> rfl
  obtain ⟨given, gave, held, others⟩ :=
    exists_giveAll isLine.once isLine.valid fun occurrence _ => unset occurrence.flag
  have notGiven : ∀ flag, flag ∉ line.map Occurrence.flag → given.isGiven flag = false := by
    intro flag notMember
    rw [Choices.isGiven_eq, others flag notMember, ← Choices.isGiven_eq, unset]
  have wasGiven : ∀ flag, flag ∈ line.map Occurrence.flag → given.isGiven flag = true := by
    intro flag member
    obtain ⟨occurrence, within, rfl⟩ := List.mem_map.mp member
    exact (held occurrence within).isGiven
  obtain ⟨choices, added⟩ : ∃ choices,
      Flag.all.foldlM (Choices.addVariable environment) given = .ok choices := by
    refine Choices.exists_addVariables (by decide) fun flag _ stillOpen => complements flag ?_
    intro member
    rw [wasGiven flag member] at stillOpen
    cases stillOpen
  have supplied : ∀ flag, Choices.Supplied environment flag given choices := by
    intro flag
    exact (Choices.supplied_of_foldlM (by decide) added).1 flag flag.mem_all
  refine ⟨choices.toSettings, ?_, ?_, ?_, ?_⟩
  · rw [settings_argumentsOf isLine.legible, gave]
    exact bind_eq_ok_iff.mpr ⟨given, rfl, bind_eq_ok_iff.mpr ⟨choices, added, rfl⟩⟩
  · intro occurrence member
    have was := (held occurrence member).isGiven
    cases supplied occurrence.flag with
    | given _ stays =>
        have kept : choices.Holds occurrence.flag occurrence.text := by
          rw [Choices.Holds, stays]
          exact held occurrence member
        exact kept.value?_toSettings
    | filled notWas => exact absurd (notWas.symm.trans was) Bool.false_ne_true
    | unset notWas => exact absurd (notWas.symm.trans was) Bool.false_ne_true
  · intro flag notMember text set
    have was := notGiven flag notMember
    cases supplied flag with
    | given isWas => exact absurd (was.symm.trans isWas) Bool.false_ne_true
    | filled _ own holds =>
        rw [set] at own
        obtain rfl := Option.some.inj own
        exact holds.value?_toSettings
    | unset _ none =>
        rw [set] at none
        cases none
  · intro flag notMember none
    have was := notGiven flag notMember
    cases supplied flag with
    | given isWas => exact absurd (was.symm.trans isWas) Bool.false_ne_true
    | filled _ own =>
        rw [none] at own
        cases own
    | unset _ _ stays =>
        rw [Choices.value?_toSettings, Choices.value?_eq_none_of_isGiven stays, Option.none_or]

theorem Agrees.flags {line other : List Occurrence} {environment otherEnvironment : String → Option String}
    (agrees : Agrees line environment other otherEnvironment) (flag : Flag) :
    flag ∈ other.map Occurrence.flag ↔ flag ∈ line.map Occurrence.flag := by
  have perm := agrees.pairs.map Prod.fst
  simp only [List.map_map, Function.comp_def] at perm
  exact perm.mem_iff

theorem Agrees.complements {line other : List Occurrence}
    {environment otherEnvironment : String → Option String}
    (agrees : Agrees line environment other otherEnvironment)
    (complements : Complements environment line) : Complements otherEnvironment other := by
  intro flag notMember text set
  have lineNotMember := mt (agrees.flags flag).mpr notMember
  rw [agrees.others flag lineNotMember] at set
  exact complements flag lineNotMember text set

theorem Settles.eq {line other : List Occurrence} {environment otherEnvironment : String → Option String}
    {accepted otherAccepted : Settings} (settles : Settles line environment accepted)
    (otherSettles : Settles other otherEnvironment otherAccepted)
    (agrees : Agrees line environment other otherEnvironment) : otherAccepted = accepted := by
  refine Settings.eq_of_value? fun flag => ?_
  by_cases member : flag ∈ line.map Occurrence.flag
  · obtain ⟨occurrence, within, rfl⟩ := List.mem_map.mp member
    have pair := agrees.pairs.mem_iff.mpr (List.mem_map.mpr ⟨occurrence, within, rfl⟩)
    obtain ⟨own, ownWithin, equal⟩ := List.mem_map.mp pair
    obtain ⟨sameFlag, sameText⟩ := Prod.mk.inj equal
    have value := otherSettles.given own ownWithin
    rw [sameFlag, sameText] at value
    rw [value, settles.given occurrence within]
  · have otherMember := mt (agrees.flags flag).mp member
    cases set : environment flag.variableName with
    | none =>
        have otherUnset := (agrees.others flag member).trans set
        rw [settles.unset flag member set, otherSettles.unset flag otherMember otherUnset]
    | some text =>
        have otherSet := (agrees.others flag member).trans set
        rw [settles.set flag member text set, otherSettles.set flag otherMember text otherSet]

theorem exists_refusal {line : List Occurrence} (legible : ∀ occurrence ∈ line, occurrence.IsLegible)
    (repeated : ¬ (line.map Occurrence.flag).Nodup) (environment : String → Option String) :
    ∃ refusal, settings (argumentsOf line) environment = .error refusal ∧
      ((∀ occurrence ∈ line, occurrence.IsValid) → refusal = .repeatedFlag) := by
  rw [settings_argumentsOf legible]
  cases gave : giveAll .empty line with
  | ok given => exact absurd (once_of_giveAll gave).1 repeated
  | error refusal => exact ⟨refusal, rfl, fun valid => eq_repeatedFlag_of_giveAll valid gave⟩

/-- Flags that are given once, in any order, settle themselves alone, and what is not given is settled
by its variable, or else as it is by default. A flag given again, anywhere between two others or at an
end, is refused. -/
theorem settings_in_any_order {line : List Occurrence} {environment : String → Option String}
    (isLine : IsLine line) (complements : Complements environment line) :
    (∃ accepted, settings (argumentsOf line) environment = .ok accepted ∧
      Settles line environment accepted) ∧
    (∀ other otherEnvironment, IsLine other → Agrees line environment other otherEnvironment →
      settings (argumentsOf other) otherEnvironment = settings (argumentsOf line) environment) ∧
    ∀ before after again otherEnvironment, line = before ++ after →
      again.flag ∈ line.map Occurrence.flag → again.IsLegible →
      ∃ refusal, settings (argumentsOf (before ++ again :: after)) otherEnvironment =
        .error refusal ∧ (again.IsValid → refusal = .repeatedFlag) := by
  obtain ⟨accepted, settled, settles⟩ := exists_settings isLine complements
  refine ⟨⟨accepted, settled, settles⟩, ?_, ?_⟩
  · intro other otherEnvironment otherIsLine agrees
    obtain ⟨otherAccepted, otherSettled, otherSettles⟩ :=
      exists_settings otherIsLine (agrees.complements complements)
    rw [settled, otherSettled, settles.eq otherSettles agrees]
  · rintro before after again otherEnvironment rfl member legible
    have repeated : ¬ ((before ++ again :: after).map Occurrence.flag).Nodup := by
      have moved : ((before ++ again :: after).map Occurrence.flag).Perm
          (again.flag :: (before ++ after).map Occurrence.flag) := List.perm_middle.map _
      exact fun once => (List.nodup_cons.mp (moved.nodup once)).1 member
    have among : ∀ {Own : Occurrence → Prop}, Own again → (∀ own ∈ before ++ after, Own own) →
        ∀ own ∈ before ++ again :: after, Own own := by
      intro Own first others own within
      obtain rfl | rest := List.mem_cons.mp (List.perm_middle.mem_iff.mp within)
      · exact first
      · exact others own rest
    obtain ⟨refusal, refused, cause⟩ :=
      exists_refusal (among legible isLine.legible) repeated otherEnvironment
    exact ⟨refusal, refused, fun valid => cause (among valid isLine.valid)⟩

theorem settings_in_any_order_port :
    let environment (name : String) : Option String :=
      [("REPLIER_PORT", "none"), ("REPLIER_STORAGE_TTL", "60")].lookup name
    let accepted : Settings :=
      { host := "::1", port := 80, storageTtl := 60, sweepInterval := none, logFormat := .text }
    settings ["--port=80", "--host", "::1"] environment = .ok accepted ∧
      settings ["--host=::1", "--port", "80"] environment = .ok accepted ∧
      settings ["--port=80", "--port", "81", "--host", "::1"] environment = .error .repeatedFlag := by
  intro environment accepted
  have portValid : (Occurrence.mk .port "80" false).IsValid := ⟨(80 : Nat), rfl⟩
  have hostValid : (Occurrence.mk .host "::1" true).IsValid := ⟨"::1", rfl⟩
  have isLine : IsLine [⟨.port, "80", false⟩, ⟨.host, "::1", true⟩] :=
    { once := by decide
      legible := by
        simp [Occurrence.IsLegible]
      valid := by simp [portValid, hostValid] }
  have otherIsLine : IsLine [⟨.host, "::1", false⟩, ⟨.port, "80", true⟩] :=
    { once := by decide
      legible := by
        simp [Occurrence.IsLegible]
      valid := by
        simp only [List.forall_mem_cons, List.not_mem_nil, false_implies, implies_true, and_true]
        exact ⟨hostValid, portValid⟩ }
  have complements : Complements environment [⟨.port, "80", false⟩, ⟨.host, "::1", true⟩] := by
    intro flag notMember text set
    cases flag with
    | host => exact absurd (by decide) notMember
    | port => exact absurd (by decide) notMember
    | storageTtl =>
        obtain rfl := Option.some.inj set
        exact ⟨(60 : Nat), rfl⟩
    | sweepInterval => cases set
    | logFormat => cases set
  obtain ⟨⟨own, settled, settles⟩, order, repeated⟩ := settings_in_any_order isLine complements
  have whole : own = accepted := by
    refine Settings.eq_of_value? fun flag => ?_
    cases flag with
    | host => exact settles.given ⟨.host, "::1", true⟩ (by simp)
    | port => exact settles.given ⟨.port, "80", false⟩ (by simp)
    | storageTtl => exact settles.set .storageTtl (by decide) "60" rfl
    | sweepInterval => exact settles.unset .sweepInterval (by decide) rfl
    | logFormat => exact settles.unset .logFormat (by decide) rfl
  subst whole
  refine ⟨settled, ?_, ?_⟩
  · exact (order _ environment otherIsLine ⟨List.Perm.swap _ _ _, fun _ _ => rfl⟩).trans settled
  · obtain ⟨refusal, refused, cause⟩ := repeated [⟨.port, "80", false⟩] [⟨.host, "::1", true⟩]
      ⟨.port, "81", true⟩ environment rfl (by decide) (by simp [Occurrence.IsLegible])
    rw [cause ⟨(81 : Nat), rfl⟩] at refused
    exact refused

end CommandLine

end ScriptedResponder
