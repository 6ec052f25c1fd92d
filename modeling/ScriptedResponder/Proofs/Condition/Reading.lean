import ScriptedResponder.Condition
import ScriptedResponder.Proofs.Phrase.Grammar

/-!
Which texts are conditions. Reading a condition is reading by a grammar of four verbs, so every text
has the condition or the defect that the grammar gives it; a condition has one verb, the empty text
and `always` taken as one, and one bound.
-/

set_option autoImplicit false

namespace ScriptedResponder.Condition

open Phrase (IsSplit)

def grammar : Phrase.Grammar Int Condition ConditionError where
  plain := [("", .always), ("always", .always)]
  numbered := [("retrycount_lt", .retriesBelow), ("retrycount_gt", .retriesAbove)]
  writes := Numeral.IsSigned
  unknown := .unknown
  missing := .missingParameter
  notAnInteger := .notAnInteger
  unexpected := .unexpectedParameter

theorem grammar_isRead : grammar.IsRead Numeral.signed? where
  once := by decide
  reads := fun _ _ => Numeral.signed?_eq_some_iff
  marked := fun _ _ written => written.1.isMarked

theorem refusal_eq (verb : String) : grammar.refusal verb = ConditionError.ofParameter verb := by
  funext defect
  cases defect <;> rfl

theorem ofBound_eq (condition : Int → Condition) (phrase : Phrase) :
    ofBound condition phrase =
      ((Phrase.Grammar.takeOnly Numeral.signed? phrase).map condition).mapError
        (ConditionError.ofParameter phrase.verb) := by
  unfold ofBound Phrase.Grammar.takeOnly Phrase.takeSigned
  cases phrase.takeNumber Numeral.signed? with
  | mk taken rest =>
      cases taken with
      | error defect => rfl
      | ok bound => cases finished : rest.finish <;> simp [finished, Except.map, Except.mapError]

theorem ofPhrase_eq_read (phrase : Phrase) :
    ofPhrase phrase = grammar.read Numeral.signed? phrase := by
  obtain ⟨verb, parameters⟩ := phrase
  simp only [ofPhrase, Phrase.Grammar.read, refusal_eq, ofBound_eq]
  by_cases empty : verb = ""
  · subst empty
    cases parameters <;> rfl
  by_cases always : verb = "always"
  · subst always
    cases parameters <;> rfl
  rw [if_neg (by simp [empty, always])]
  by_cases below : verb = "retrycount_lt"
  · subst below
    rfl
  by_cases above : verb = "retrycount_gt"
  · subst above
    rfl
  have alone : grammar.plain.lookup verb = none :=
    Phrase.Grammar.lookup_eq_none_iff_unlisted.mpr (by simp [grammar, empty, always])
  have counted : grammar.numbered.lookup verb = none :=
    Phrase.Grammar.lookup_eq_none_iff_unlisted.mpr (by simp [grammar, below, above])
  rw [if_neg below, if_neg above, alone, counted]
  rfl

/-! ### One condition, one spelling -/

/-- Two texts with the same verb, where the empty one is the same as `always`, and the same bound. -/
inductive Alike (first second : String) : Prop
  | always {verb other : String} (listed : verb ∈ ["", "always"]) (otherListed : other ∈ ["", "always"])
      (split : IsSplit first verb []) (otherSplit : IsSplit second other []) : Alike first second
  | bounded {verb parameter other : String} {bound : Int} (split : IsSplit first verb [parameter])
      (otherSplit : IsSplit second verb [other]) (held : grammar.Holds parameter bound)
      (otherHeld : grammar.Holds other bound) : Alike first second

theorem mem_plain_iff {verb : String} {condition : Condition} :
    (verb, condition) ∈ grammar.plain ↔ verb ∈ ["", "always"] ∧ condition = .always := by
  simp only [grammar, List.mem_cons, Prod.mk.injEq, List.not_mem_nil, or_false, ← or_and_right]

theorem mem_numbered_iff {verb : String} {make : Int → Condition} :
    (verb, make) ∈ grammar.numbered ↔
      verb = "retrycount_lt" ∧ make = .retriesBelow ∨ verb = "retrycount_gt" ∧ make = .retriesAbove := by
  simp only [grammar, List.mem_cons, Prod.mk.injEq, List.not_mem_nil, or_false]

theorem ne_always_of_numbered {verb : String} {make : Int → Condition}
    (listed : (verb, make) ∈ grammar.numbered) (bound : Int) : make bound ≠ .always := by
  obtain ⟨_, rfl⟩ | ⟨_, rfl⟩ := mem_numbered_iff.mp listed
  · simp
  · simp

theorem eq_of_numbered {verb other : String} {make otherMake : Int → Condition} {bound otherBound : Int}
    (listed : (verb, make) ∈ grammar.numbered) (otherListed : (other, otherMake) ∈ grammar.numbered)
    (same : make bound = otherMake otherBound) : verb = other ∧ bound = otherBound := by
  obtain ⟨rfl, rfl⟩ | ⟨rfl, rfl⟩ := mem_numbered_iff.mp listed
  · obtain ⟨rfl, rfl⟩ | ⟨rfl, rfl⟩ := mem_numbered_iff.mp otherListed
    · exact ⟨rfl, Condition.retriesBelow.inj same⟩
    · cases same
  · obtain ⟨rfl, rfl⟩ | ⟨rfl, rfl⟩ := mem_numbered_iff.mp otherListed
    · cases same
    · exact ⟨rfl, Condition.retriesAbove.inj same⟩

theorem ofText_eq_iff_reads {text : String} {result : Except ConditionError Condition} :
    ofText text = result ↔
      ∃ verb parameters, IsSplit text verb parameters ∧ grammar.Reads verb parameters result := by
  rw [ofText, ofPhrase_eq_read]
  exact grammar_isRead.read_ofText_eq_iff

theorem alike_of_ofText {first second : String} {condition : Condition}
    (read : ofText first = .ok condition) (otherRead : ofText second = .ok condition) :
    Alike first second := by
  obtain ⟨verb, parameters, split, reads⟩ := ofText_eq_iff_reads.mp read
  obtain ⟨other, otherParameters, otherSplit, otherReads⟩ := ofText_eq_iff_reads.mp otherRead
  rw [Phrase.Grammar.reads_ok_iff] at reads otherReads
  obtain ⟨plain, rfl⟩ | ⟨make, parameter, bound, listed, rfl, held, rfl⟩ := reads
  · obtain ⟨listed, rfl⟩ := mem_plain_iff.mp plain
    obtain ⟨otherPlain, rfl⟩ | ⟨_, _, otherBound, otherListed, _, _, same⟩ := otherReads
    · exact .always listed (mem_plain_iff.mp otherPlain).1 split otherSplit
    · exact absurd same.symm (ne_always_of_numbered otherListed otherBound)
  · obtain ⟨otherPlain, _⟩ | ⟨_, _, _, otherListed, rfl, otherHeld, same⟩ := otherReads
    · exact absurd (mem_plain_iff.mp otherPlain).2 (ne_always_of_numbered listed bound)
    · obtain ⟨rfl, rfl⟩ := eq_of_numbered listed otherListed same
      exact .bounded split otherSplit held otherHeld

/-- What a text is read as, when it is a condition and when it is none: just what the grammar of
conditions gives it. Every bound of a signed word can be written, with any zeros in front and any
blanks around it, and texts that are the same condition differ in nothing else. -/
theorem ofText_by_condition_grammar :
    (∀ (text : String) (result : Except ConditionError Condition), ofText text = result ↔
      ∃ verb parameters, IsSplit text verb parameters ∧ grammar.Reads verb parameters result) ∧
    (∀ verb condition, (verb, condition) ∈ grammar.numbered →
      ∀ bound : Int, -9223372036854775808 ≤ bound → bound ≤ 9223372036854775807 →
        ∀ (zeros : Nat) (before after : String), Text.IsBlanks before.toList →
          Text.IsBlanks after.toList →
          ofText (verb ++ ":" ++
            (before ++ String.ofList (Numeral.writtenSigned zeros bound) ++ after)) =
              .ok (condition bound)) ∧
    ∀ (first second : String) (condition : Condition), ofText first = .ok condition →
      ofText second = .ok condition → Alike first second := by
  refine ⟨fun _ _ => ofText_eq_iff_reads, ?_, fun _ _ _ => alike_of_ofText⟩
  · intro verb condition listed bound least greatest zeros before after beforeBlanks afterBlanks
    have colonless : ':' ∉ verb.toList := by
      have apart : (grammar.numbered.map Prod.fst).all (fun verb => ':' ∉ verb.toList) = true := by
        decide
      simpa using List.all_eq_true.mp apart verb (List.mem_map.mpr ⟨_, listed, rfl⟩)
    rw [ofText, ofPhrase_eq_read]
    exact grammar_isRead.read_padded listed colonless
      ⟨Numeral.writesSigned_writtenSigned zeros bound, least, greatest⟩ beforeBlanks afterBlanks

theorem ofText_by_condition_grammar_minus_seven :
    ("retrycount_gt", Condition.retriesAbove) ∈ grammar.numbered ∧
      ofText "retrycount_gt:\u00a0-007 " = .ok (.retriesAbove (-7)) ∧ Alike "" "always" := by
  have listed : ("retrycount_gt", Condition.retriesAbove) ∈ grammar.numbered := by simp [grammar]
  have spelled : "retrycount_gt" ++ ":" ++
      ("\u00a0" ++ String.ofList (Numeral.writtenSigned 2 (-7)) ++ " ") =
        "retrycount_gt:\u00a0-007 " := by decide +kernel
  obtain ⟨_, written, alike⟩ := ofText_by_condition_grammar
  refine ⟨listed, ?_, alike "" "always" .always (by decide) (by decide)⟩
  rw [← spelled]
  exact written _ _ listed (-7) (by decide) (by decide) 2 _ _ (by decide) (by decide)

end ScriptedResponder.Condition
