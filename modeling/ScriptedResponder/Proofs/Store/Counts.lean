import ScriptedResponder.Proofs.Store.Session

/-!
The meaning of a whole run of a store. An observation answers the length of the longest chain that
it ends, and a reading the length of the longest chain there is, if its latest observation is less
than the time to live old. Expiry, renewal and removal are nowhere in that meaning, so sweeps can be
left out of a run, or put anywhere into it, and no count differs.
-/

set_option autoImplicit false

namespace ScriptedResponder

def StoreCall.asksCount : StoreCall → Bool
  | .increase _ | .get _ => true
  | .advance _ | .delete _ | .reset | .removeStale | .size => false

namespace Session

def counts (session : Session) (calls : List StoreCall) : List (StoreCall × Option Nat) :=
  (calls.zip (session.answers calls)).filter fun answered => answered.1.asksCount

theorem counts_cons (session : Session) (call : StoreCall) (rest : List StoreCall) :
    session.counts (call :: rest) =
      if call.asksCount then (call, session.answer call) :: (session.call call).counts rest
      else (session.call call).counts rest :=
  List.filter_cons

end Session

namespace Remembers

variable {period : Nat} {left right : Session} {journal : Journal}

theorem answer_eq (leftRemembers : Remembers period left journal)
    (rightRemembers : Remembers period right journal) {call : StoreCall}
    (asks : call.asksCount = true) : left.answer call = right.answer call := by
  cases call with
  | increase id => rw [leftRemembers.answer_increase, rightRemembers.answer_increase]
  | get id => rw [leftRemembers.answer_get, rightRemembers.answer_get]
  | advance _ | delete _ | reset | removeStale | size => cases asks

/-- Two stores that remember the same answer the same counts, though only one is swept. -/
theorem counts_filter (leftRemembers : Remembers period left journal)
    (rightRemembers : Remembers period right journal) (calls : List StoreCall) :
    left.counts calls = right.counts (calls.filter fun call => call ≠ .removeStale) := by
  induction calls generalizing left right journal with
  | nil => rfl
  | cons call rest ih =>
      by_cases sweeps : call = .removeStale
      -- Only the left store is swept here; both still remember the same journal.
      · subst sweeps
        have skipped := ih leftRemembers.removeStale rightRemembers
        simpa only [Session.counts_cons, StoreCall.asksCount, Bool.false_eq_true, if_false,
          ne_eq, not_true_eq_false, decide_false, List.filter_cons_of_neg, not_false_eq_true]
          using skipped
      · have kept : (call :: rest).filter (fun call => decide (call ≠ .removeStale)) =
            call :: rest.filter fun call => decide (call ≠ .removeStale) :=
          List.filter_cons_of_pos (decide_eq_true sweeps)
        have further := ih (leftRemembers.call call) (rightRemembers.call call)
        rw [kept, Session.counts_cons, Session.counts_cons, further]
        by_cases asks : call.asksCount = true
        · rw [leftRemembers.answer_eq rightRemembers asks]
        · rw [if_neg asks, if_neg asks]

end Remembers

/-- An observation answers the longest chain that ends with it. A reading answers the longest chain
if a period has not passed since, and zero otherwise. Sweeps show in neither. -/
theorem answers_eq_longestChain (ttl start : Nat) :
    let period := min ttl Period.longest
    let journal := (Journal.opened start).after
    (∀ before id rest, ∃ count,
      ((Session.opened ttl start).answers (before ++ .increase id :: rest))[before.length]? =
          some (some count) ∧
        LongestChain period id ((journal before).note (.increase id)).chronicle count
          (journal before).clock) ∧
    (∀ before id rest, ∃ count,
      ((Session.opened ttl start).answers (before ++ .get id :: rest))[before.length]? =
          some (some count) ∧
        ((∃ last, LongestChain period id (journal before).chronicle count last ∧
            (journal before).clock < last + period) ∨
          (count = 0 ∧ ∀ length last, Chain period id (journal before).chronicle length last →
            last + period ≤ (journal before).clock))) ∧
    ∀ calls, (Session.opened ttl start).counts calls =
      (Session.opened ttl start).counts (calls.filter fun call => call ≠ .removeStale) := by
  intro period journal
  have remembers (calls : List StoreCall) :
      Remembers period ((Session.opened ttl start).after calls) (journal calls) :=
    (Remembers.opened ttl start).after calls
  refine ⟨?_, ?_, ?_⟩
  · intro before id rest
    refine ⟨_, ?_, Chronicle.longestChain_observed (journal before).clock (journal before).chronicle⟩
    rw [Session.answers_getElem?, (remembers before).answer_increase]
  · intro before id rest
    refine ⟨_, ?_, Chronicle.count_spec (journal before).clock (journal before).chronicle⟩
    rw [Session.answers_getElem?, (remembers before).answer_get]
  · exact (Remembers.opened ttl start).counts_filter (Remembers.opened ttl start)

end ScriptedResponder
