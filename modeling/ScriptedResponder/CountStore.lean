import ScriptedResponder.Period

/-!
How often each event has been observed. An observation renews the entry of its id and moves it to
the front, so the back of the list is always the next entry to expire; an expired entry counts as
absent whether or not it has been removed. Sweeping removes expired entries from the back and stops
at the first that is still live.
-/

set_option autoImplicit false

namespace ScriptedResponder

structure CountEntry where
  id : String
  count : Nat
  expiresAt : Nat
  deriving DecidableEq, Repr

/-- An entry expires at its instant, not after it. -/
def CountEntry.isExpired (now : Nat) (entry : CountEntry) : Bool := entry.expiresAt ≤ now

/-- The entries, most recently observed first, and how long each lives after an observation. -/
structure CountStore where
  ttl : Nat
  entries : List CountEntry
  deriving DecidableEq, Repr

namespace CountStore

/-- An empty store; a longer time to live than the longest is cut down to it. -/
def ofTtl (ttl : Nat) : CountStore := { ttl := min ttl Period.longest, entries := [] }

def find? (store : CountStore) (id : String) : Option CountEntry :=
  store.entries.find? fun entry => entry.id = id

def get (now : Nat) (id : String) (store : CountStore) : Nat :=
  match store.find? id with
  | none => 0
  | some entry => if entry.isExpired now then 0 else entry.count

def delete (id : String) (store : CountStore) : CountStore :=
  { store with entries := store.entries.filter fun entry => entry.id ≠ id }

def reset (store : CountStore) : CountStore := { store with entries := [] }

def observed (now : Nat) (id : String) (store : CountStore) : CountEntry :=
  { id, count := store.get now id + 1, expiresAt := now + store.ttl }

def increase (now : Nat) (id : String) (store : CountStore) : CountStore :=
  { store with entries := store.observed now id :: (store.delete id).entries }

/-- Remove expired entries from the back, up to the first live one. -/
def removeStale (now : Nat) (store : CountStore) : CountStore :=
  { store with entries := (store.entries.reverse.dropWhile (CountEntry.isExpired now)).reverse }

def size (store : CountStore) : Nat := store.entries.length

def isEmpty (store : CountStore) : Bool := store.entries.isEmpty

def staleCount (now : Nat) (store : CountStore) : Nat :=
  store.size - (store.removeStale now).size

/-! ### What each operation does to the counts -/

theorem get_reset (now : Nat) (id : String) (store : CountStore) : store.reset.get now id = 0 := rfl

theorem get_delete (now : Nat) (id other : String) (store : CountStore) :
    (store.delete id).get now other = if other = id then 0 else store.get now other := by
  unfold get find? delete
  rw [List.find?_filter]
  by_cases same : other = id
  · have absent : (store.entries.find? fun entry =>
        decide (decide (entry.id ≠ id) = true ∧ decide (entry.id = other) = true)) = none := by
      rw [List.find?_eq_none]
      intro entry _
      simp [same]
    rw [if_pos same, absent]
  · have unaffected : (fun entry : CountEntry =>
        decide (decide (entry.id ≠ id) = true ∧ decide (entry.id = other) = true)) =
        fun entry => decide (entry.id = other) := by
      funext entry
      by_cases found : entry.id = other
      · simp [found, same]
      · simp [found]
    rw [if_neg same, unaffected]

theorem get_increase (now later : Nat) (id other : String) (store : CountStore) :
    (store.increase now id).get later other =
      if other = id then
        if now + store.ttl ≤ later then 0 else store.get now id + 1
      else store.get later other := by
  by_cases same : other = id
  · subst same
    simp [get, find?, increase, observed, CountEntry.isExpired]
  · have skipped :
        (store.increase now id).get later other = (store.delete id).get later other := by
      have different : id ≠ other := fun equal => same equal.symm
      simp [get, find?, increase, observed, different]
    rw [skipped, get_delete]
    simp [same]

theorem exists_entries_eq_removeStale_append (now : Nat) (store : CountStore) :
    ∃ removed : List CountEntry,
      store.entries = (store.removeStale now).entries ++ removed ∧
        ∀ entry ∈ removed, entry.isExpired now = true := by
  refine ⟨(store.entries.reverse.takeWhile (CountEntry.isExpired now)).reverse, ?_, ?_⟩
  · have parts := congrArg List.reverse
      (List.takeWhile_append_dropWhile (p := CountEntry.isExpired now)
        (l := store.entries.reverse))
    rw [List.reverse_append, List.reverse_reverse] at parts
    exact parts.symm
  · intro entry member
    exact List.all_eq_true.mp List.all_takeWhile entry (List.mem_reverse.mp member)

theorem get_removeStale {now later : Nat} (id : String) (store : CountStore)
    (since : now ≤ later) : (store.removeStale now).get later id = store.get later id := by
  obtain ⟨removed, split, expired⟩ := store.exists_entries_eq_removeStale_append now
  have found : store.find? id = ((store.removeStale now).find? id).or
      (removed.find? fun entry => entry.id = id) := by
    have appended := congrArg (List.find? fun entry => decide (entry.id = id)) split
    rw [List.find?_append] at appended
    exact appended
  unfold get
  rw [found]
  cases (store.removeStale now).find? id with
  | some entry => rfl
  | none =>
      rw [Option.none_or]
      cases gone : removed.find? fun entry => entry.id = id with
      | none => rfl
      | some entry =>
          have stale := expired entry (List.mem_of_find?_eq_some gone)
          simp only [CountEntry.isExpired, decide_eq_true_eq] at stale
          have staleLater : entry.isExpired later = true :=
            decide_eq_true (Nat.le_trans stale since)
          simp only [staleLater, if_true]

end CountStore

end ScriptedResponder
