import ScriptedResponder.Proofs.Chronicle

/-!
A store in use. Whoever its clients are, the lock lets one call happen at a time, so what they do
to it together is one list of calls, between which the clock may advance. The journal of the same
calls keeps the clock and the chronicle of what they did to ids. A store remembers a journal when,
from now on, it counts every id as the chronicle does; `Remembers.after` says that it always will.
-/

set_option autoImplicit false

namespace ScriptedResponder

inductive StoreCall
  | advance (wait : Nat)
  | increase (id : String)
  | get (id : String)
  | delete (id : String)
  | reset
  | removeStale
  | size
  deriving DecidableEq, Repr

structure Session where
  clock : Nat
  store : CountStore
  deriving DecidableEq, Repr

namespace Session

def opened (ttl clock : Nat) : Session := { clock, store := CountStore.ofTtl ttl }

def call (session : Session) : StoreCall → Session
  | .advance wait => { session with clock := session.clock + wait }
  | .increase id => { session with store := session.store.increase session.clock id }
  | .delete id => { session with store := session.store.delete id }
  | .reset => { session with store := session.store.reset }
  | .removeStale => { session with store := session.store.removeStale session.clock }
  | .get _ | .size => session

def answer (session : Session) : StoreCall → Option Nat
  | .increase id => some (session.store.observed session.clock id).count
  | .get id => some (session.store.get session.clock id)
  | .removeStale => some (session.store.staleCount session.clock)
  | .size => some session.store.size
  | .advance _ | .delete _ | .reset => none

def after (session : Session) (calls : List StoreCall) : Session := calls.foldl call session

def answers (session : Session) : List StoreCall → List (Option Nat)
  | [] => []
  | call :: rest => session.answer call :: (session.call call).answers rest

theorem answers_getElem? (session : Session) (before : List StoreCall) (call : StoreCall)
    (rest : List StoreCall) :
    (session.answers (before ++ call :: rest))[before.length]? =
      some ((session.after before).answer call) := by
  induction before generalizing session with
  | nil => rfl
  | cons first before ih => exact ih (session.call first)

end Session

structure Journal where
  clock : Nat
  chronicle : Chronicle
  deriving DecidableEq, Repr

namespace Journal

def opened (clock : Nat) : Journal := { clock, chronicle := [] }

def write (journal : Journal) (fact : Fact) : Journal :=
  { journal with chronicle := (journal.clock, fact) :: journal.chronicle }

def note (journal : Journal) : StoreCall → Journal
  | .advance wait => { journal with clock := journal.clock + wait }
  | .increase id => journal.write (.observed id)
  | .delete id => journal.write (.forgotten id)
  | .reset => journal.write .allForgotten
  | .get _ | .removeStale | .size => journal

def after (journal : Journal) (calls : List StoreCall) : Journal := calls.foldl note journal

end Journal

/-- A store counts every id, now and later, as the chronicle does. -/
structure Remembers (period : Nat) (session : Session) (journal : Journal) : Prop where
  clock : journal.clock = session.clock
  ttl : session.store.ttl = period
  count : ∀ later id, session.clock ≤ later →
    session.store.get later id = journal.chronicle.count period later id

namespace Remembers

variable {period : Nat} {session : Session} {journal : Journal}

theorem opened (ttl clock : Nat) :
    Remembers (min ttl Period.longest) (.opened ttl clock) (.opened clock) where
  clock := rfl
  ttl := rfl
  count _ _ _ := rfl

theorem advance (remembers : Remembers period session journal) (wait : Nat) :
    Remembers period (session.call (.advance wait)) (journal.note (.advance wait)) where
  clock := congrArg (· + wait) remembers.clock
  ttl := remembers.ttl
  count later id since :=
    remembers.count later id (Nat.le_trans (Nat.le_add_right session.clock wait) since)

theorem increase (remembers : Remembers period session journal) (id : String) :
    Remembers period (session.call (.increase id)) (journal.note (.increase id)) where
  clock := remembers.clock
  ttl := remembers.ttl
  count later other since := by
    change (session.store.increase session.clock id).get later other =
      Chronicle.count period later other ((journal.clock, .observed id) :: journal.chronicle)
    rw [CountStore.get_increase, Chronicle.count_observed, remembers.clock, remembers.ttl,
      remembers.count later other since, remembers.count session.clock id (Nat.le_refl _)]
    by_cases same : other = id
    · subst same
      rfl
    · have different : id ≠ other := fun equal => same equal.symm
      rw [if_neg same, if_neg different]

theorem delete (remembers : Remembers period session journal) (id : String) :
    Remembers period (session.call (.delete id)) (journal.note (.delete id)) where
  clock := remembers.clock
  ttl := remembers.ttl
  count later other since := by
    change (session.store.delete id).get later other =
      Chronicle.count period later other ((journal.clock, .forgotten id) :: journal.chronicle)
    rw [CountStore.get_delete, Chronicle.count_forgotten, remembers.count later other since]
    by_cases same : other = id
    · rw [if_pos same, if_pos same.symm]
    · have different : id ≠ other := fun equal => same equal.symm
      rw [if_neg same, if_neg different]

theorem reset (remembers : Remembers period session journal) :
    Remembers period (session.call .reset) (journal.note .reset) where
  clock := remembers.clock
  ttl := remembers.ttl
  count later id _ :=
    (CountStore.get_reset later id session.store).trans
      (Chronicle.count_allForgotten journal.clock later journal.chronicle).symm

theorem removeStale (remembers : Remembers period session journal) :
    Remembers period (session.call .removeStale) journal where
  clock := remembers.clock
  ttl := remembers.ttl
  count later id since :=
    (session.store.get_removeStale id since).trans (remembers.count later id since)

theorem call (remembers : Remembers period session journal) (call : StoreCall) :
    Remembers period (session.call call) (journal.note call) := by
  cases call with
  | advance wait => exact remembers.advance wait
  | increase id => exact remembers.increase id
  | delete id => exact remembers.delete id
  | reset => exact remembers.reset
  | removeStale => exact remembers.removeStale
  | get id => exact remembers
  | size => exact remembers

theorem after (remembers : Remembers period session journal) (calls : List StoreCall) :
    Remembers period (session.after calls) (journal.after calls) := by
  induction calls generalizing session journal with
  | nil => exact remembers
  | cons first rest ih => exact ih (remembers.call first)

/-! ### What is answered -/

theorem answer_increase (remembers : Remembers period session journal) (id : String) :
    session.answer (.increase id) =
      some (journal.chronicle.count period journal.clock id + 1) := by
  rw [remembers.clock, ← remembers.count session.clock id (Nat.le_refl _)]
  rfl

theorem answer_get (remembers : Remembers period session journal) (id : String) :
    session.answer (.get id) = some (journal.chronicle.count period journal.clock id) := by
  rw [remembers.clock, ← remembers.count session.clock id (Nat.le_refl _)]
  rfl

end Remembers

end ScriptedResponder
