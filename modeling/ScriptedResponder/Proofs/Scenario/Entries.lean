import ScriptedResponder.Proofs.Scenario.Account

/-!
The entries of every store that can be reached, by any list of calls or by any run of a timeline
with its sweepers. Their order and their bounds are those of `Recent`; what follows from these for a
counter of limited width is added here.
-/

set_option autoImplicit false

namespace ScriptedResponder

/-- The entries are as the journal has them, and none expires later than an observation made now
would. As long as the number of observations fits a signed word of 64 bits, every count does. -/
structure Orderly (period : Nat) (session : Session) (journal : Journal) : Prop
    extends Recent period session journal where
  expiring : ∀ entry ∈ session.store.entries, entry.expiresAt ≤ session.clock + period
  counting : ∀ id, (session.store.observed session.clock id).count ≤
    (journal.note (.increase id)).chronicle.observations
  fitting : journal.chronicle.observations ≤ Numeral.signedLimit →
    ∀ entry ∈ session.store.entries, entry.count ≤ Numeral.signedLimit
  retrying : ∀ now id, -1 ≤ (session.store.get now id : Int) - 1

theorem Recent.orderly {period : Nat} {session : Session} {journal : Journal}
    (recent : Recent period session journal) : Orderly period session journal where
  toRecent := recent
  expiring := fun _ member => recent.expiresAt_le member
  counting := by
    intro id
    change session.store.get session.clock id + 1 ≤
      Chronicle.observations ((journal.clock, .observed id) :: journal.chronicle)
    rw [Chronicle.observations_observed]
    exact Nat.succ_le_succ (recent.get_le id)
  fitting := by
    intro few entry member
    exact Nat.le_trans (recent.counted entry member).2 few
  retrying := by
    intro now id
    have reading : (0 : Int) ≤ session.store.get now id := Int.natCast_nonneg _
    omega

/-- No list of calls and no run of a timeline leaves a store whose entries are out of order. -/
theorem entries_orderly (ttl : Nat) :
    (∀ start calls,
      Orderly (min ttl Period.longest) ((Session.opened ttl start).after calls)
        ((Journal.opened start).after calls)) ∧
    (∀ moves,
      Orderly (min ttl Period.longest) ((Timeline.start ttl).after moves).session
        (Account.opened.after (min ttl Period.longest)
          ((Timeline.start ttl).history moves)).journal) := by
  constructor
  · intro start calls
    exact ((Recent.opened ttl start).after calls).orderly
  · intro moves
    exact ((Agrees.start ttl).after moves).tracks.recent.orderly

end ScriptedResponder
