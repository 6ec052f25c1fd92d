import ScriptedResponder.Action
import ScriptedResponder.Proofs.Phrase.Grammar

/-!
Which texts are actions. Reading an action is reading by a grammar of six verbs, of which one takes a
number of seconds; the name of an action is the verb that it was read from.
-/

set_option autoImplicit false

namespace ScriptedResponder.Action

open Phrase (IsSplit)

def grammar : Phrase.Grammar Nat Action ActionError where
  plain :=
    [("ack", .ack), ("nack", .nack), ("ack+event", .ackWithEvent), ("nack+event", .nackWithEvent),
      ("reset", .reset)]
  numbered := [("delay-ack", .delayAck)]
  writes := Numeral.IsUnsigned
  unknown := .unknown
  missing := .missingParameter
  notAnInteger := .notAnInteger
  unexpected := .unexpectedParameter

theorem grammar_isRead : grammar.IsRead Numeral.unsigned? where
  once := by decide
  reads := fun _ _ => Numeral.unsigned?_eq_some_iff_isUnsigned
  marked := fun _ _ written => written.1.isMarked

theorem refusal_eq (verb : String) : grammar.refusal verb = ActionError.ofParameter verb := by
  funext defect
  cases defect <;> rfl

theorem finished_eq (phrase : Phrase) (action : Action) :
    finished phrase action =
      (phrase.finish.map fun _ => action).mapError (ActionError.ofParameter phrase.verb) := by
  unfold finished
  cases phrase.finish <;> rfl

theorem lookup_named (actions : List Action) (verb : String) :
    (actions.map fun action => (action.name, action)).lookup verb =
      actions.find? fun action => action.name = verb := by
  induction actions with
  | nil => rfl
  | cons action actions ih =>
      rw [List.map_cons, List.lookup_cons, List.find?_cons, ih]
      by_cases same : verb = action.name
      · simp [same]
      · rw [beq_false_of_ne same, decide_eq_false (Ne.symm same)]

theorem delayed_eq (verb : String) (parameters : List String) :
    (match Phrase.takeUnsigned ⟨verb, parameters⟩ with
      | (.error defect, _) => .error (.ofParameter verb defect)
      | (.ok seconds, rest) => finished rest (.delayAck seconds)) =
        ((Phrase.Grammar.takeOnly Numeral.unsigned? ⟨verb, parameters⟩).map .delayAck).mapError
          (ActionError.ofParameter verb) := by
  unfold Phrase.takeUnsigned Phrase.Grammar.takeOnly
  have kept : (Phrase.takeNumber Numeral.unsigned? ⟨verb, parameters⟩).2.verb = verb := by
    cases parameters <;> rfl
  generalize Phrase.takeNumber Numeral.unsigned? ⟨verb, parameters⟩ = result at kept ⊢
  obtain ⟨taken, rest⟩ := result
  cases taken with
  | error defect => rfl
  | ok seconds =>
      have same : rest.verb = verb := kept
      simp only [finished_eq, same]
      cases rest.finish <;> rfl

theorem ofPhrase_eq_read (phrase : Phrase) :
    ofPhrase phrase = grammar.read Numeral.unsigned? phrase := by
  obtain ⟨verb, parameters⟩ := phrase
  have found : plain.find? (fun action => action.name = verb) = grammar.plain.lookup verb :=
    (lookup_named plain verb).symm
  by_cases delayed : verb = "delay-ack"
  · subst delayed
    exact (delayed_eq "delay-ack" parameters).trans (by rw [← refusal_eq]; rfl)
  · have counted : grammar.numbered.lookup verb = none :=
      Phrase.Grammar.lookup_eq_none_iff_unlisted.mpr (by simp [grammar, delayed])
    simp only [ofPhrase, Phrase.Grammar.read, refusal_eq, finished_eq, found, if_neg delayed,
      counted]
    cases grammar.plain.lookup verb <;> rfl

theorem ofText_eq_iff_reads {text : String} {result : Except ActionError Action} :
    ofText text = result ↔
      ∃ verb parameters, IsSplit text verb parameters ∧ grammar.Reads verb parameters result := by
  rw [ofText, ofPhrase_eq_read]
  exact grammar_isRead.read_ofText_eq_iff

/-! ### The name of an action -/

theorem name_of_mem_plain {verb : String} {action : Action}
    (listed : (verb, action) ∈ grammar.plain) : action.name = verb := by
  have named : grammar.plain = plain.map fun action => (action.name, action) := rfl
  rw [named] at listed
  obtain ⟨own, _, same⟩ := List.mem_map.mp listed
  obtain ⟨rfl, rfl⟩ := Prod.mk.inj same
  rfl

/-- The text is the name of the action, for an action that takes seconds with a colon and the seconds
after it. -/
inductive IsNamed (action : Action) (text : String) : Prop
  | alone (split : IsSplit text action.name []) (whole : text = action.name)
      (undelayed : action ∈ plain) : IsNamed action text
  | delayed {parameter : String} {seconds : Nat} (split : IsSplit text action.name [parameter])
      (whole : text = action.name ++ ":" ++ parameter) (held : grammar.Holds parameter seconds)
      (delay : action = .delayAck seconds) : IsNamed action text

theorem isNamed_of_ofText {text : String} {action : Action} (read : ofText text = .ok action) :
    IsNamed action text := by
  obtain ⟨verb, parameters, split, reads⟩ := ofText_eq_iff_reads.mp read
  obtain ⟨listed, rfl⟩ | ⟨make, parameter, seconds, listed, rfl, held, rfl⟩ :=
    Phrase.Grammar.reads_ok_iff.mp reads
  · obtain rfl := name_of_mem_plain listed
    refine .alone split ?_ ?_
    · simp [← split.joined]
    · have named : grammar.plain.map Prod.snd = plain := rfl
      rw [← named]
      exact List.mem_map.mpr ⟨_, listed, rfl⟩
  · obtain ⟨rfl, rfl⟩ : verb = "delay-ack" ∧ make = .delayAck := by
      simpa [grammar] using listed
    refine .delayed split ?_ held rfl
    simp [← split.joined, String.intercalate_cons_cons, name]

/-- What a text is read as, when it is an action and when it is none: just what the grammar of actions
gives it. The name of an action is the verb of every text that it was read from, and every number of
seconds of an unsigned word can be written, with any zeros in front and any blanks around it. -/
theorem ofText_by_action_grammar :
    (∀ (text : String) (result : Except ActionError Action), ofText text = result ↔
      ∃ verb parameters, IsSplit text verb parameters ∧ grammar.Reads verb parameters result) ∧
    (∀ (text : String) (action : Action), ofText text = .ok action → IsNamed action text) ∧
    ∀ seconds : Nat, seconds ≤ 18446744073709551615 →
      ∀ (zeros : Nat) (before after : String), Text.IsBlanks before.toList →
        Text.IsBlanks after.toList →
        ofText ("delay-ack" ++ ":" ++
          (before ++ String.ofList (Numeral.written zeros seconds) ++ after)) =
            .ok (.delayAck seconds) := by
  refine ⟨fun _ _ => ofText_eq_iff_reads, fun _ _ => isNamed_of_ofText, ?_⟩
  intro seconds greatest zeros before after beforeBlanks afterBlanks
  rw [ofText, ofPhrase_eq_read]
  have listed : ("delay-ack", Action.delayAck) ∈ grammar.numbered := by simp [grammar]
  exact grammar_isRead.read_padded listed (by decide)
    ⟨.inl (Numeral.isRun_written zeros seconds), greatest⟩ beforeBlanks afterBlanks

theorem ofText_by_action_grammar_thirty :
    ofText "delay-ack:\t030\u3000" = .ok (.delayAck 30) ∧
      IsNamed (.delayAck 30) "delay-ack:\t030\u3000" := by
  have spelled : "delay-ack" ++ ":" ++ ("\t" ++ String.ofList (Numeral.written 1 30) ++ "\u3000") =
      "delay-ack:\t030\u3000" := by decide +kernel
  obtain ⟨_, named, written⟩ := ofText_by_action_grammar
  have read : ofText "delay-ack:\t030\u3000" = .ok (.delayAck 30) := by
    rw [← spelled]
    exact written 30 (by decide) 1 _ _ (by decide) (by decide)
  exact ⟨read, named _ _ read⟩

end ScriptedResponder.Action
