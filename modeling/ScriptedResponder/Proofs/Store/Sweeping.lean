import Mathlib.Data.List.Induction
import Mathlib.Data.Set.Card
import ScriptedResponder.Proofs.Scenario.Account

/-!
A sweep against a scan of every entry. A sweep looks at the back of the list only, takes off what is
expired there and stops at the first live entry; in every store that can be reached it leaves what a
scan of the whole list would leave. What it leaves are the ids that are still counted, one entry
each, and no count differs.
-/

set_option autoImplicit false

namespace ScriptedResponder

namespace CountStore

/-- Take expired entries off the back one at a time, and count them, up to the first live one. -/
def evict (now : Nat) (entries : List CountEntry) (removed : Nat) : List CountEntry × Nat :=
  match _found : entries.getLast? with
  | none => (entries, removed)
  | some back =>
      if back.isExpired now then evict now entries.dropLast (removed + 1) else (entries, removed)
  termination_by entries.length
  decreasing_by
    have nonempty : entries ≠ [] := by
      rintro rfl
      cases _found
    have positive := List.length_pos_iff.mpr nonempty
    rw [List.length_dropLast]
    omega

theorem evict_nil (now removed : Nat) : evict now [] removed = ([], removed) := by
  rw [evict]
  rfl

theorem evict_append (now : Nat) (entries : List CountEntry) (back : CountEntry) (removed : Nat) :
    evict now (entries ++ [back]) removed =
      if back.isExpired now then evict now entries (removed + 1)
      else (entries ++ [back], removed) := by
  rw [evict]
  split
  · rename_i none
    simp at none
  · rename_i last found
    rw [List.getLast?_concat] at found
    rw [Option.some.inj found, List.dropLast_concat]

theorem evict_eq (now : Nat) (entries : List CountEntry) (removed : Nat) :
    evict now entries removed =
      ((entries.reverse.dropWhile (CountEntry.isExpired now)).reverse,
        removed + (entries.length -
          (entries.reverse.dropWhile (CountEntry.isExpired now)).reverse.length)) := by
  induction entries using List.reverseRecOn generalizing removed with
  | nil => exact evict_nil now removed
  | append_singleton entries back ih =>
      rw [evict_append]
      cases expired : back.isExpired now with
      | true =>
          have further := (List.dropWhile_sublist (CountEntry.isExpired now)
            (l := entries.reverse)).length_le
          rw [if_pos rfl, ih, List.reverse_append, List.reverse_singleton, List.singleton_append,
            List.dropWhile_cons_of_pos expired]
          simp only [List.length_append, List.length_singleton, List.length_reverse] at further ⊢
          congr 1
          omega
      | false =>
          rw [List.reverse_append, List.reverse_singleton, List.singleton_append,
            List.dropWhile_cons_of_neg (by simp [expired])]
          simp

theorem evict_entries (now : Nat) (store : CountStore) :
    evict now store.entries 0 = ((store.removeStale now).entries, store.staleCount now) := by
  rw [evict_eq, Nat.zero_add]
  rfl

/-! ### Entries of distinct ids -/

section Distinct

variable {now : Nat} {store : CountStore}

theorem id_of_find? {id : String} {entry : CountEntry} (found : store.find? id = some entry) :
    entry.id = id := by
  have selected := List.find?_some (p := fun entry : CountEntry => decide (entry.id = id)) found
  exact of_decide_eq_true selected

theorem find?_eq_some_iff (distinct : (store.entries.map CountEntry.id).Nodup) {id : String}
    {entry : CountEntry} :
    store.find? id = some entry ↔ entry ∈ store.entries ∧ entry.id = id := by
  constructor
  · intro found
    exact ⟨List.mem_of_find?_eq_some found, id_of_find? found⟩
  · rintro ⟨member, rfl⟩
    cases found : store.find? entry.id with
    | none =>
        have absent := List.find?_eq_none.mp found entry member
        simp at absent
    | some other =>
        rw [List.inj_on_of_nodup_map distinct (List.mem_of_find?_eq_some found) member
          (id_of_find? found)]

theorem get_pos_iff (distinct : (store.entries.map CountEntry.id).Nodup)
    (counted : ∀ entry ∈ store.entries, 1 ≤ entry.count) (id : String) :
    0 < store.get now id ↔
      id ∈ (store.entries.filter fun entry => now < entry.expiresAt).map CountEntry.id := by
  rw [List.mem_map]
  constructor
  · intro positive
    unfold get at positive
    cases found : store.find? id with
    | none =>
        rw [found] at positive
        cases positive
    | some entry =>
        obtain ⟨member, same⟩ := (find?_eq_some_iff distinct).mp found
        refine ⟨entry, List.mem_filter.mpr ⟨member, ?_⟩, same⟩
        rw [found] at positive
        by_cases live : now < entry.expiresAt
        · exact decide_eq_true live
        · have expired : entry.isExpired now = true := decide_eq_true (Nat.le_of_not_lt live)
          simp only [if_pos expired] at positive
          cases positive
  · rintro ⟨entry, kept, same⟩
    obtain ⟨member, live⟩ := List.mem_filter.mp kept
    have found := (find?_eq_some_iff distinct).mpr ⟨member, same⟩
    have unexpired : ¬ entry.isExpired now = true := by
      simpa [CountEntry.isExpired] using live
    unfold get
    simp only [found, if_neg unexpired]
    exact counted entry member

end Distinct

/-! ### Stores whose entries expire from the back -/

section Sorted

variable {now : Nat} {store : CountStore}
  (sorted : store.entries.Pairwise fun front back => back.expiresAt ≤ front.expiresAt)

include sorted

theorem entries_removeStale_eq_live :
    (store.removeStale now).entries = store.entries.filter fun entry => now < entry.expiresAt := by
  have live : (fun entry : CountEntry => !entry.isExpired now) =
      fun entry => decide (now < entry.expiresAt) := by
    funext entry
    simp only [CountEntry.isExpired, ← decide_not, Nat.not_le]
  rw [entries_removeStale sorted, live]

theorem staleCount_eq_countP :
    store.staleCount now = store.entries.countP fun entry => entry.expiresAt ≤ now := by
  have stale : (fun entry : CountEntry => decide ¬ decide (now < entry.expiresAt) = true) =
      fun entry => decide (entry.expiresAt ≤ now) := by
    funext entry
    simp only [decide_eq_true_eq, Nat.not_lt]
  have parts := List.length_eq_countP_add_countP (l := store.entries)
    fun entry => decide (now < entry.expiresAt)
  rw [stale] at parts
  unfold staleCount size
  rw [entries_removeStale_eq_live sorted, ← List.countP_eq_length_filter]
  omega

theorem removeStale_removeStale : (store.removeStale now).removeStale now = store.removeStale now := by
  have kept : (store.removeStale now).entries =
      store.entries.filter fun entry => now < entry.expiresAt := entries_removeStale_eq_live sorted
  have keptSorted : (store.removeStale now).entries.Pairwise
      fun front back => back.expiresAt ≤ front.expiresAt := by
    rw [kept]
    exact sorted.sublist List.filter_sublist
  have again : ((store.removeStale now).removeStale now).entries =
      (store.removeStale now).entries.filter fun entry => now < entry.expiresAt :=
    entries_removeStale_eq_live keptSorted
  rw [kept, List.filter_filter] at again
  simp only [Bool.and_self] at again
  rw [← kept] at again
  exact congrArg (CountStore.mk store.ttl) again

theorem size_removeStale (distinct : (store.entries.map CountEntry.id).Nodup)
    (counted : ∀ entry ∈ store.entries, 1 ≤ entry.count) :
    (store.removeStale now).size = {id | 0 < (store.removeStale now).get now id}.ncard := by
  have kept : (store.removeStale now).entries =
      store.entries.filter fun entry => now < entry.expiresAt := entries_removeStale_eq_live sorted
  have ids : {id | 0 < (store.removeStale now).get now id} =
      (((store.removeStale now).entries.map CountEntry.id).toFinset : Set String) := by
    ext id
    rw [Set.mem_ofPred_eq, store.get_removeStale id (Nat.le_refl now),
      get_pos_iff distinct counted, List.coe_toFinset, Set.mem_ofPred_eq, kept]
  have keptDistinct : ((store.removeStale now).entries.map CountEntry.id).Nodup := by
    rw [kept]
    exact distinct.sublist (List.filter_sublist.map CountEntry.id)
  rw [ids, Set.ncard_coe_finset, List.toFinset_card_of_nodup keptDistinct, List.length_map]
  rfl

end Sorted

/-- A sweep at an instant removes what is expired, wherever it stands, and nothing else: the others
keep their fields and their order, no count differs from then on, and there is nothing to be removed
any more. -/
structure SweptWhole (now : Nat) (store : CountStore) : Prop where
  entries : (store.removeStale now).entries =
    store.entries.filter fun entry => now < entry.expiresAt
  ttl : (store.removeStale now).ttl = store.ttl
  removed : store.staleCount now = store.entries.countP fun entry => entry.expiresAt ≤ now
  loop : evict now store.entries 0 = ((store.removeStale now).entries, store.staleCount now)
  counts : ∀ id later, now ≤ later → (store.removeStale now).get later id = store.get later id
  size : (store.removeStale now).size = {id | 0 < (store.removeStale now).get now id}.ncard
  again : (store.removeStale now).staleCount now = 0
  settled : (store.removeStale now).removeStale now = store.removeStale now

end CountStore

theorem Recent.sweptWhole {period : Nat} {session : Session} {journal : Journal}
    (recent : Recent period session journal) (now : Nat) :
    CountStore.SweptWhole now session.store where
  entries := CountStore.entries_removeStale_eq_live recent.sorted
  ttl := rfl
  removed := CountStore.staleCount_eq_countP recent.sorted
  loop := session.store.evict_entries now
  counts := fun id _ since => session.store.get_removeStale id since
  size := CountStore.size_removeStale recent.sorted recent.distinct
    fun entry member => (recent.counted entry member).1
  again := by
    unfold CountStore.staleCount
    rw [CountStore.removeStale_removeStale recent.sorted, Nat.sub_self]
  settled := CountStore.removeStale_removeStale recent.sorted

/-- In every store that can be reached, by any calls or by any run of a timeline, and at every
reading of the clock, a sweep that stops at the first live entry does what a scan of every entry
would do. -/
theorem sweep_misses_nothing (ttl now : Nat) :
    (∀ start calls,
      CountStore.SweptWhole now ((Session.opened ttl start).after calls).store) ∧
    (∀ moves, CountStore.SweptWhole now ((Timeline.start ttl).after moves).store) := by
  constructor
  · intro start calls
    exact ((Recent.opened ttl start).after calls).sweptWhole now
  · intro moves
    exact ((Agrees.start ttl).after moves).tracks.recent.sweptWhole now

end ScriptedResponder
