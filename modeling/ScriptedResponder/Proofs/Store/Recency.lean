import ScriptedResponder.Proofs.Store.Session

/-!
Why a sweep may stop at the first live entry. Every write renews an entry and puts it in front, so
the entries stand in the order in which they expire, each id at most once, and each expires one
period after the latest observation of its id. No call checks any of this; `Recent.after` says that
all of them keep it.
-/

set_option autoImplicit false

namespace ScriptedResponder

namespace Chronicle

/-- The instant of the latest observation of an id, whatever has happened to the id since. -/
def latest? (id : String) (chronicle : Chronicle) : Option Nat :=
  (chronicle.find? fun entry => entry.2 = .observed id).map Prod.fst

def observations (chronicle : Chronicle) : Nat :=
  chronicle.countP fun entry =>
    match entry.2 with
    | .observed _ => true
    | .forgotten _ | .allForgotten => false

variable {id : String}

theorem latest?_observed (instant : Nat) (past : Chronicle) :
    latest? id ((instant, .observed id) :: past) = some instant :=
  congrArg (Option.map Prod.fst) (List.find?_cons_of_pos (decide_eq_true rfl))

theorem latest?_unobserved (instant : Nat) {fact : Fact} (past : Chronicle)
    (unseen : fact ≠ .observed id) : latest? id ((instant, fact) :: past) = latest? id past :=
  congrArg (Option.map Prod.fst)
    (List.find?_cons_of_neg fun same => unseen (of_decide_eq_true same))

theorem observations_observed (instant : Nat) (past : Chronicle) :
    observations ((instant, .observed id) :: past) = observations past + 1 :=
  List.countP_cons_of_pos rfl

theorem observations_unobserved (instant : Nat) {fact : Fact} (past : Chronicle)
    (unseen : ∀ id, fact ≠ .observed id) :
    observations ((instant, fact) :: past) = observations past := by
  cases fact with
  | observed id => exact absurd rfl (unseen id)
  | forgotten id => exact List.countP_cons_of_neg (by simp)
  | allForgotten => exact List.countP_cons_of_neg (by simp)

end Chronicle

/-! ### Complete sweeps -/

namespace CountStore

theorem dropWhile_eq_filter (now : Nat) (entries : List CountEntry)
    (sorted : entries.Pairwise fun back front => back.expiresAt ≤ front.expiresAt) :
    entries.dropWhile (CountEntry.isExpired now) =
      entries.filter fun entry => !entry.isExpired now := by
  induction entries with
  | nil => rfl
  | cons back rest ih =>
      obtain ⟨least, sortedRest⟩ := List.pairwise_cons.mp sorted
      cases expired : back.isExpired now with
      | true =>
          rw [List.dropWhile_cons_of_pos expired, List.filter_cons_of_neg (by simp [expired]),
            ih sortedRest]
      | false =>
          rw [List.dropWhile_cons_of_neg (by simp [expired])]
          refine (List.filter_eq_self.mpr fun entry member => ?_).symm
          rcases List.mem_cons.mp member with rfl | further
          · simp [expired]
          · have later := least entry further
            simp only [CountEntry.isExpired, decide_eq_false_iff_not, Nat.not_le] at expired
            simp only [CountEntry.isExpired, Bool.not_eq_true', decide_eq_false_iff_not, Nat.not_le]
            omega

/-- Where entries expire from the back, a sweep that stops early has removed all that is expired. -/
theorem entries_removeStale {now : Nat} {store : CountStore}
    (sorted : store.entries.Pairwise fun front back => back.expiresAt ≤ front.expiresAt) :
    (store.removeStale now).entries = store.entries.filter fun entry => !entry.isExpired now := by
  have reversed := dropWhile_eq_filter now store.entries.reverse
    (List.pairwise_reverse.mpr sorted)
  unfold removeStale
  rw [reversed, List.filter_reverse, List.reverse_reverse]

end CountStore

/-- The entries are distinct, expire from the back, and are no older and no higher than the
journal accounts for. -/
structure Recent (period : Nat) (session : Session) (journal : Journal) : Prop where
  clock : journal.clock = session.clock
  ttl : session.store.ttl = period
  distinct : (session.store.entries.map CountEntry.id).Nodup
  sorted : session.store.entries.Pairwise fun front back => back.expiresAt ≤ front.expiresAt
  renewed : ∀ entry ∈ session.store.entries, ∃ last ≤ session.clock,
    journal.chronicle.latest? entry.id = some last ∧ entry.expiresAt = last + period
  counted : ∀ entry ∈ session.store.entries,
    1 ≤ entry.count ∧ entry.count ≤ journal.chronicle.observations

namespace Recent

variable {period : Nat} {session : Session} {journal : Journal}

theorem opened (ttl clock : Nat) :
    Recent (min ttl Period.longest) (.opened ttl clock) (.opened clock) where
  clock := rfl
  ttl := rfl
  distinct := List.nodup_nil
  sorted := List.Pairwise.nil
  renewed := by intro entry member; cases member
  counted := by intro entry member; cases member

theorem expiresAt_le (recent : Recent period session journal) {entry : CountEntry}
    (member : entry ∈ session.store.entries) : entry.expiresAt ≤ session.clock + period := by
  obtain ⟨last, past, _, expires⟩ := recent.renewed entry member
  omega

theorem get_le (recent : Recent period session journal) (id : String) :
    session.store.get session.clock id ≤ journal.chronicle.observations := by
  unfold CountStore.get
  cases found : session.store.find? id with
  | none => exact Nat.zero_le _
  | some entry =>
      by_cases expired : entry.isExpired session.clock = true
      · simp only [if_pos expired, Nat.zero_le]
      · simp only [if_neg expired]
        exact (recent.counted entry (List.mem_of_find?_eq_some found)).2

theorem get_eq_zero (recent : Recent 0 session journal) (id : String) :
    session.store.get session.clock id = 0 := by
  unfold CountStore.get
  cases found : session.store.find? id with
  | none => rfl
  | some entry =>
      have expired : entry.isExpired session.clock = true :=
        decide_eq_true (recent.expiresAt_le (List.mem_of_find?_eq_some found))
      simp only [if_pos expired]

theorem thinned (recent : Recent period session journal) (entries : List CountEntry)
    (kept : entries.Sublist session.store.entries) :
    Recent period { session with store := { session.store with entries } } journal where
  clock := recent.clock
  ttl := recent.ttl
  distinct := recent.distinct.sublist (kept.map CountEntry.id)
  sorted := recent.sorted.sublist kept
  renewed := fun entry member => recent.renewed entry (kept.subset member)
  counted := fun entry member => recent.counted entry (kept.subset member)

theorem write (recent : Recent period session journal) {fact : Fact}
    (unseen : ∀ id, fact ≠ .observed id) : Recent period session (journal.write fact) where
  clock := recent.clock
  ttl := recent.ttl
  distinct := recent.distinct
  sorted := recent.sorted
  renewed := by
    intro entry member
    obtain ⟨last, past, latest, expires⟩ := recent.renewed entry member
    exact ⟨last, past,
      (Chronicle.latest?_unobserved journal.clock journal.chronicle (unseen entry.id)).trans latest,
      expires⟩
  counted := by
    intro entry member
    change 1 ≤ entry.count ∧
      entry.count ≤ Chronicle.observations ((journal.clock, fact) :: journal.chronicle)
    rw [Chronicle.observations_unobserved journal.clock journal.chronicle unseen]
    exact recent.counted entry member

theorem increase (recent : Recent period session journal) (id : String) :
    Recent period (session.call (.increase id)) (journal.note (.increase id)) := by
  have others : (session.store.delete id).entries.Sublist session.store.entries :=
    List.filter_sublist
  have absent : ∀ entry ∈ (session.store.delete id).entries, entry.id ≠ id := by
    intro entry member
    exact of_decide_eq_true (List.mem_filter.mp member).2
  have expiry : (session.store.observed session.clock id).expiresAt = session.clock + period :=
    congrArg (session.clock + ·) recent.ttl
  refine
    { clock := recent.clock
      ttl := recent.ttl
      distinct := ?_
      sorted := ?_
      renewed := ?_
      counted := ?_ }
  · apply List.nodup_cons.mpr
    constructor
    · intro repeated
      obtain ⟨entry, member, same⟩ := List.mem_map.mp repeated
      exact absent entry member same
    · exact recent.distinct.sublist (others.map CountEntry.id)
  · apply List.pairwise_cons.mpr
    constructor
    · intro back member
      rw [expiry]
      exact recent.expiresAt_le (others.subset member)
    · exact recent.sorted.sublist others
  · intro entry member
    rcases List.mem_cons.mp member with rfl | present
    · refine ⟨session.clock, Nat.le_refl _, ?_, expiry⟩
      rw [← recent.clock]
      exact Chronicle.latest?_observed journal.clock journal.chronicle
    · obtain ⟨last, past, latest, expires⟩ := recent.renewed entry (others.subset present)
      have unseen : Fact.observed id ≠ .observed entry.id :=
        fun same => absent entry present (Fact.observed.inj same).symm
      exact ⟨last, past,
        (Chronicle.latest?_unobserved journal.clock journal.chronicle unseen).trans latest, expires⟩
  · intro entry member
    change 1 ≤ entry.count ∧
      entry.count ≤ Chronicle.observations ((journal.clock, .observed id) :: journal.chronicle)
    rw [Chronicle.observations_observed]
    rcases List.mem_cons.mp member with rfl | present
    · exact ⟨Nat.le_add_left 1 _, Nat.succ_le_succ (recent.get_le id)⟩
    · have bounds := recent.counted entry (others.subset present)
      exact ⟨bounds.1, Nat.le_succ_of_le bounds.2⟩

theorem removeStale (recent : Recent period session journal) :
    Recent period (session.call .removeStale) journal := by
  obtain ⟨removed, split, _⟩ :=
    session.store.exists_entries_eq_removeStale_append session.clock
  have kept := List.sublist_append_left (session.store.removeStale session.clock).entries removed
  rw [← split] at kept
  exact recent.thinned _ kept

theorem advance (recent : Recent period session journal) (wait : Nat) :
    Recent period (session.call (.advance wait)) (journal.note (.advance wait)) where
  clock := congrArg (· + wait) recent.clock
  ttl := recent.ttl
  distinct := recent.distinct
  sorted := recent.sorted
  renewed := by
    intro entry member
    obtain ⟨last, past, latest, expires⟩ := recent.renewed entry member
    exact ⟨last, Nat.le_trans past (Nat.le_add_right _ wait), latest, expires⟩
  counted := recent.counted

theorem call (recent : Recent period session journal) (call : StoreCall) :
    Recent period (session.call call) (journal.note call) := by
  cases call with
  | advance wait => exact recent.advance wait
  | increase id => exact recent.increase id
  | delete id =>
      have fewer := recent.thinned (session.store.delete id).entries List.filter_sublist
      exact fewer.write (fun other same => by cases same)
  | reset =>
      have none := recent.thinned [] (List.nil_sublist _)
      exact none.write (fun other same => by cases same)
  | removeStale => exact recent.removeStale
  | get id => exact recent
  | size => exact recent

theorem after (recent : Recent period session journal) (calls : List StoreCall) :
    Recent period (session.after calls) (journal.after calls) := by
  induction calls generalizing session journal with
  | nil => exact recent
  | cons first rest ih => exact ih (recent.call first)

end Recent

end ScriptedResponder
