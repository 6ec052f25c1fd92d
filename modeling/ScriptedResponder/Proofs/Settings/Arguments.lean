import ScriptedResponder.Proofs.Except
import ScriptedResponder.Proofs.Settings.Values

/-!
What the settings owe to the command line and the environment. Whatever has been read of the
arguments, the state of the reader is determined by what they give to which flag
(`CommandLine.State.Follows`): one argument more keeps that so, hence all of them do. A variable
then settles a flag only where the command line left it open, and each flag of an accepted
configuration is as it was asked for (`CommandLine.Asked`).
-/

set_option autoImplicit false

namespace ScriptedResponder

namespace CommandLine

def Gives (arguments : List Argument) (flag : Flag) (text : String) : Prop :=
  .assignment flag text ∈ arguments ∨ [.flag flag, .plain text] <:+: arguments

theorem gives_concat {arguments : List Argument} {last : Argument} {flag : Flag} {text : String} :
    Gives (arguments ++ [last]) flag text ↔
      Gives arguments flag text ∨ last = .assignment flag text ∨
        ([.flag flag] <:+ arguments ∧ last = .plain text) := by
  have ending : [.flag flag, .plain text] <:+ arguments ++ [last] ↔
      [.flag flag] <:+ arguments ∧ last = .plain text := by
    rw [List.suffix_concat_iff]
    constructor
    · rintro (impossible | ⟨front, split, suffix⟩)
      · cases impossible
      · have joined : [Argument.flag flag] ++ [.plain text] = front ++ [last] := split
        obtain ⟨rfl, lastText⟩ := List.append_inj' joined rfl
        exact ⟨suffix, (List.singleton_inj.mp lastText).symm⟩
    · rintro ⟨suffix, rfl⟩
      exact .inr ⟨[.flag flag], rfl, suffix⟩
  rw [Gives, Gives, List.mem_append, List.mem_singleton, List.infix_concat_iff, ending]
  constructor
  · rintro ((given | assigned) | (plain | given))
    · exact .inl (.inl given)
    · exact .inr (.inl assigned.symm)
    · exact .inr (.inr plain)
    · exact .inl (.inr given)
  · rintro ((given | given) | assigned | plain)
    · exact .inl (.inl given)
    · exact .inr (.inr given)
    · exact .inl (.inr assigned.symm)
    · exact .inr (.inl plain)

end CommandLine

structure Choices.Obeys (choices : Choices) (told : Flag → String → Prop) : Prop where
  holds : ∀ flag text, told flag text → choices.Holds flag text
  wasTold : ∀ flag, choices.isGiven flag = true → ∃ text, told flag text

theorem Choices.obeys_of_give {choices given : Choices} {told : Flag → String → Prop} {flag : Flag}
    {text : String} (gave : choices.give flag text = .ok given)
    (holds : ∀ other otherText, told other otherText →
      choices.Holds other otherText ∨ (other = flag ∧ otherText = text))
    (wasTold : ∀ other, choices.isGiven other = true → ∃ otherText, told other otherText)
    (last : told flag text) : given.Obeys told := by
  obtain ⟨notGiven, taken⟩ := takes_of_give gave
  constructor
  · intro other otherText toldOther
    rcases holds other otherText toldOther with held | ⟨rfl, rfl⟩
    · have different : other ≠ flag := by
        rintro rfl
        rw [held.isGiven] at notGiven
        cases notGiven
      exact taken.holds_other different held
    · exact taken.holds
  · intro other otherGiven
    by_cases same : other = flag
    · subst same
      exact ⟨text, last⟩
    · rw [taken.isGiven_other same] at otherGiven
      exact wasTold other otherGiven

namespace CommandLine

/-! ### Reading the arguments -/

/-- The reader after some arguments: every text given is held or waits to be judged, nothing else is
held, and a flag that waits for its value is the last argument. -/
structure State.Follows (state : State) (seen : List Argument) : Prop where
  holds : ∀ flag text, Gives seen flag text →
    state.choices.Holds flag text ∨ state.pending = .value flag text
  wasTold : ∀ flag, state.choices.isGiven flag = true → ∃ text, Gives seen flag text
  flag : ∀ flag, state.pending = .flag flag → [.flag flag] <:+ seen
  value : ∀ flag text, state.pending = .value flag text → Gives seen flag text

theorem follows_start : State.Follows { choices := .empty, pending := .nothing } [] where
  holds := by
    rintro flag text (assigned | plain)
    · cases assigned
    · cases List.infix_nil.mp plain
  wasTold := by
    intro flag given
    cases flag <;> cases given
  flag := by
    intro flag waiting
    cases waiting
  value := by
    intro flag text waiting
    cases waiting

theorem follows_of_obeys {choices : Choices} {seen : List Argument}
    (obeyed : choices.Obeys (Gives seen)) :
    State.Follows { choices, pending := .nothing } seen where
  holds flag text given := .inl (obeyed.holds flag text given)
  wasTold := obeyed.wasTold
  flag := by
    intro flag waiting
    cases waiting
  value := by
    intro flag text waiting
    cases waiting

theorem State.Follows.settle {state : State} {seen : List Argument} {choices : Choices}
    (follows : state.Follows seen) (settled : settle state = .ok choices) :
    choices.Obeys (Gives seen) := by
  unfold CommandLine.settle at settled
  split at settled
  · rename_i idle
    cases settled
    refine ⟨fun flag text given => ?_, follows.wasTold⟩
    rcases follows.holds flag text given with held | waiting
    · exact held
    · rw [idle] at waiting
      cases waiting
  · cases settled
  · rename_i flag text waits
    refine Choices.obeys_of_give settled (fun other otherText given => ?_) follows.wasTold
      (follows.value flag text waits)
    rcases follows.holds other otherText given with held | waiting
    · exact .inl held
    · rw [waits] at waiting
      cases waiting
      exact .inr ⟨rfl, rfl⟩

theorem obeys_concat {choices : Choices} {seen : List Argument} {last : Argument}
    (obeyed : choices.Obeys (Gives seen))
    (givesNothing : ∀ flag text, last ≠ .assignment flag text ∧ last ≠ .plain text) :
    choices.Obeys (Gives (seen ++ [last])) where
  holds flag text given := by
    rcases gives_concat.mp given with given | assigned | ⟨_, plain⟩
    · exact obeyed.holds flag text given
    · exact absurd assigned (givesNothing flag text).1
    · exact absurd plain (givesNothing flag text).2
  wasTold flag given := by
    obtain ⟨text, told⟩ := obeyed.wasTold flag given
    exact ⟨text, gives_concat.mpr (.inl told)⟩

theorem State.Follows.readArgument {state next : State} {seen : List Argument} {last : Argument}
    (follows : state.Follows seen) (read : readArgument state last = .ok next) :
    next.Follows (seen ++ [last]) := by
  cases last with
  | flag flag =>
      obtain ⟨choices, settled, rest⟩ := bind_eq_ok_iff.mp read
      cases rest
      have obeyed : choices.Obeys (Gives (seen ++ [.flag flag])) :=
        obeys_concat (follows.settle settled) fun _ _ => by simp
      refine ⟨fun other text given => .inl (obeyed.holds other text given), obeyed.wasTold, ?_, ?_⟩
      · intro other waiting
        cases waiting
        exact List.suffix_append seen _
      · intro other text waiting
        cases waiting
  | assignment flag text =>
      obtain ⟨settledChoices, settled, rest⟩ := bind_eq_ok_iff.mp read
      obtain ⟨choices, gave, rest⟩ := bind_eq_ok_iff.mp rest
      cases rest
      have obeyed := follows.settle settled
      refine follows_of_obeys (Choices.obeys_of_give gave (fun other otherText given => ?_)
        (fun other given => ?_) (gives_concat.mpr (.inr (.inl rfl))))
      · rcases gives_concat.mp given with given | assigned | ⟨_, plain⟩
        · exact .inl (obeyed.holds other otherText given)
        · cases assigned
          exact .inr ⟨rfl, rfl⟩
        · cases plain
      · obtain ⟨otherText, told⟩ := obeyed.wasTold other given
        exact ⟨otherText, gives_concat.mpr (.inl told)⟩
  | plain text =>
      simp only [CommandLine.readArgument] at read
      split at read
      · rename_i flag waits
        cases read
        have lastFlag := follows.flag flag waits
        -- A plain argument goes to the flag right before it; its value is judged later.
        constructor
        · intro other otherText given
          rcases gives_concat.mp given with given | assigned | ⟨otherLast, plain⟩
          · rcases follows.holds other otherText given with held | waiting
            · exact .inl held
            · rw [waits] at waiting
              cases waiting
          · cases assigned
          · cases plain
            have sameEnd := List.suffix_of_suffix_length_le otherLast lastFlag (Nat.le_refl 1)
            cases sameEnd.eq_of_length rfl
            exact .inr rfl
        · intro other given
          obtain ⟨otherText, told⟩ := follows.wasTold other given
          exact ⟨otherText, gives_concat.mpr (.inl told)⟩
        · intro other waiting
          cases waiting
        · intro other otherText waiting
          cases waiting
          exact gives_concat.mpr (.inr (.inr ⟨lastFlag, rfl⟩))
      · cases read
  | help =>
      obtain ⟨choices, _, refused⟩ := bind_eq_ok_iff.mp read
      cases refused
  | helpAssignment => cases read
  | separator => cases read
  | unknownFlag => cases read

theorem State.Follows.read {state : State} {seen : List Argument} {arguments : List String}
    {choices : Choices} (follows : state.Follows seen)
    (accepted : read state arguments = .ok choices) :
    choices.Obeys (Gives (seen ++ arguments.map classify)) := by
  -- By induction on the arguments still to be read: what has been seen grows at its end.
  induction arguments generalizing state seen with
  | nil =>
      rw [List.map_nil, List.append_nil]
      exact follows.settle accepted
  | cons argument rest ih =>
      rw [CommandLine.read] at accepted
      split at accepted
      · rename_i separator
        split at accepted
        · rename_i lastOne
          obtain rfl := List.isEmpty_iff.mp lastOne
          rw [List.map_cons, List.map_nil, separator]
          exact obeys_concat (follows.settle accepted) fun _ _ => by simp
        · cases accepted
      · split at accepted
        · cases accepted
        · rename_i next readOne
          rw [List.map_cons, ← List.singleton_append, ← List.append_assoc]
          exact ih (follows.readArgument readOne) accepted

end CommandLine

/-! ### Filling in from the environment -/

/-- How the environment settles one flag: not at all if it is given, else by its variable. -/
inductive Choices.Supplied (environment : String → Option String) (flag : Flag)
    (before after : Choices) : Prop
  | given (was : before.isGiven flag = true) (stays : after.value? flag = before.value? flag)
  | filled {text : String} (was : before.isGiven flag = false)
      (set : environment flag.variableName = some text) (holds : after.Holds flag text)
  | unset (was : before.isGiven flag = false) (none : environment flag.variableName = none)
      (stays : after.isGiven flag = false)

namespace Choices

theorem supplied_of_addVariable {environment : String → Option String} {flag : Flag}
    {before after : Choices} (added : before.addVariable environment flag = .ok after) :
    Supplied environment flag before after ∧
      ∀ other, other ≠ flag → after.value? other = before.value? other := by
  unfold addVariable at added
  split at added
  · rename_i given
    cases added
    exact ⟨.given given rfl, fun _ _ => rfl⟩
  · rename_i notGiven
    have was := eq_false_of_ne_true notGiven
    split at added
    · rename_i none
      cases added
      exact ⟨.unset was none was, fun _ _ => rfl⟩
    · rename_i text set
      have taken := takes_of_choose added
      exact ⟨.filled was set taken.holds, taken.others⟩

theorem Supplied.congr {environment : String → Option String} {flag : Flag}
    {before after before' after' : Choices} (supplied : Supplied environment flag before after)
    (sameBefore : before'.value? flag = before.value? flag)
    (sameAfter : after'.value? flag = after.value? flag) :
    Supplied environment flag before' after' := by
  cases supplied with
  | given was stays =>
      refine .given ?_ (by rw [sameAfter, sameBefore, stays])
      rw [isGiven_eq, sameBefore, ← isGiven_eq, was]
  | filled was set holds =>
      refine .filled ?_ set (by rw [Holds, sameAfter]; exact holds)
      rw [isGiven_eq, sameBefore, ← isGiven_eq, was]
  | unset was none stays =>
      refine .unset ?_ none ?_
      · rw [isGiven_eq, sameBefore, ← isGiven_eq, was]
      · rw [isGiven_eq, sameAfter, ← isGiven_eq, stays]

theorem supplied_of_foldlM {environment : String → Option String} {flags : List Flag}
    {before after : Choices} (distinct : flags.Nodup)
    (added : flags.foldlM (addVariable environment) before = .ok after) :
    (∀ flag ∈ flags, Supplied environment flag before after) ∧
      ∀ flag, flag ∉ flags → after.value? flag = before.value? flag := by
  induction flags generalizing before with
  | nil =>
      cases added
      exact ⟨fun _ member => absurd member List.not_mem_nil, fun _ _ => rfl⟩
  | cons first rest ih =>
      obtain ⟨middle, addedFirst, addedRest⟩ := foldlM_cons_eq_ok_iff.mp added
      obtain ⟨firstSupplied, firstAlone⟩ := supplied_of_addVariable addedFirst
      obtain ⟨firstApart, restDistinct⟩ := List.nodup_cons.mp distinct
      obtain ⟨restSupplied, restAlone⟩ := ih restDistinct addedRest
      constructor
      · intro flag member
        rcases List.mem_cons.mp member with rfl | later
        · exact firstSupplied.congr rfl (restAlone _ firstApart)
        · have apart : flag ≠ first := fun same => firstApart (same ▸ later)
          exact (restSupplied flag later).congr (firstAlone flag apart).symm rfl
      · intro flag notMember
        obtain ⟨apart, notLater⟩ := not_or.mp (mt List.mem_cons.mpr notMember)
        rw [restAlone flag notLater, firstAlone flag apart]

end Choices

/-! ### What was asked for -/

namespace CommandLine

/-- What a command line and an environment ask of a flag: the value of the text that the arguments
give it, of its variable where they give it none, and nothing where it has no variable either. -/
inductive Asked (arguments : List String) (environment : String → Option String) (flag : Flag) :
    Option flag.Value → Prop
  | byArgument {text : String} {value : flag.Value}
      (given : Gives (arguments.map classify) flag text) (read : flag.read? text = some value) :
      Asked arguments environment flag (some value)
  | byVariable {text : String} {value : flag.Value}
      (notGiven : ∀ other, ¬Gives (arguments.map classify) flag other)
      (set : environment flag.variableName = some text) (read : flag.read? text = some value) :
      Asked arguments environment flag (some value)
  | unset (notGiven : ∀ text, ¬Gives (arguments.map classify) flag text)
      (unset : environment flag.variableName = none) : Asked arguments environment flag none

/-- Settings that are accepted are as they were asked for, flag by flag. -/
theorem asked_of_settings {arguments : List String} {environment : String → Option String}
    {accepted : Settings} (settled : settings arguments environment = .ok accepted) :
    ∃ choices : Choices, choices.toSettings = accepted ∧
      ∀ flag, Asked arguments environment flag (choices.value? flag) := by
  obtain ⟨given, read, rest⟩ := bind_eq_ok_iff.mp settled
  obtain ⟨choices, added, rest⟩ := bind_eq_ok_iff.mp rest
  cases rest
  refine ⟨choices, rfl, fun flag => ?_⟩
  have obeyed : given.Obeys (Gives (arguments.map classify)) := follows_start.read read
  have notTold : given.isGiven flag = false → ∀ text, ¬Gives (arguments.map classify) flag text :=
    fun was text told => by simp [(obeyed.holds flag text told).isGiven] at was
  cases (Choices.supplied_of_foldlM (by decide) added).1 flag flag.mem_all with
  | given was stays =>
      obtain ⟨text, told⟩ := obeyed.wasTold flag was
      obtain ⟨value, read, held⟩ := obeyed.holds flag text told
      rw [stays, held]
      exact .byArgument told read
  | filled was set holds =>
      obtain ⟨value, read, held⟩ := holds
      rw [held]
      exact .byVariable (notTold was) set read
  | unset was unset stays =>
      rw [Choices.value?_eq_none_of_isGiven stays]
      exact .unset (notTold was) unset

end CommandLine

end ScriptedResponder
