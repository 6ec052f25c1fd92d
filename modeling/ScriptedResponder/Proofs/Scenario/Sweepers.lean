import ScriptedResponder.Proofs.Scenario.Waits

/-!
Sweepers and what they remove. A sweeper goes round once in each of its periods, counted from the
instant at which it was started, for as long as nobody cancels it under its name; `Tenure` is what
has become of the name. A wait leaves each sweeper there with the rounds that fall into it
(`Sweeps.waits`), brings no other (`exists_sweeper_of_waits`), and takes no entry away but by one of
these rounds (`kept_or_swept`).
-/

set_option autoImplicit false

namespace ScriptedResponder

theorem Session.Elapses.sublist {session next : Session} (elapses : session.Elapses next) :
    next.store.entries.Sublist session.store.entries := by
  induction elapses with
  | refl => exact List.Sublist.refl _
  | advance _ _ ih => exact ih
  | @sweep next _ ih =>
      obtain ⟨removed, split, _⟩ := next.store.exists_entries_eq_removeStale_append next.clock
      have kept := List.sublist_append_left (next.store.removeStale next.clock).entries removed
      rw [← split] at kept
      exact kept.trans ih

def CountStore.Sorted (store : CountStore) : Prop :=
  store.entries.Pairwise fun front back => back.expiresAt ≤ front.expiresAt

namespace Timeline

variable {timeline after : Timeline} {step : ScenarioStep} {entry : CountEntry}

theorem Waits.elapses (waits : timeline.Waits step after) :
    timeline.session.Elapses after.session := by
  induction waits with
  | refl => exact .refl
  | @advance next clock _ later ih => exact ih.trans (.advanceTo next.session later)
  | @run next _ _ ih => exact ih.trans (elapses_runDue next)
  | log records _ ih => exact elapses_log records ih
  | relieve _ _ ih => exact elapses_withTasks _ ih

theorem Waits.sorted (waits : timeline.Waits step after) (sorted : timeline.store.Sorted) :
    after.store.Sorted := List.Pairwise.sublist waits.elapses.sublist sorted

/-! ### What is removed -/

theorem mem_entries_foldl_fire (tasks : List Task) (timeline : Timeline)
    (sorted : timeline.store.Sorted) :
    entry ∈ (tasks.foldl fire timeline).store.entries ↔
      entry ∈ timeline.store.entries ∧
        ∀ label every due, .sweeper label every due ∈ tasks → timeline.clock < entry.expiresAt := by
  induction tasks generalizing timeline with
  | nil => simp
  | cons task rest ih =>
      rw [List.foldl_cons]
      cases task with
      | delivery label event verdict =>
          have unmoved :
              (timeline.fire (.delivery label event verdict)).store = timeline.store := by
            cases verdict <;> rfl
          have rest := ih (timeline.fire (.delivery label event verdict)) (by rwa [unmoved])
          rw [unmoved, clock_fire] at rest
          simpa using rest
      | sweeper label every due =>
          have swept : (timeline.fire (.sweeper label every due)).store.entries =
              timeline.store.entries.filter fun entry => !entry.isExpired timeline.clock :=
            CountStore.entries_removeStale sorted
          have rest := ih (timeline.fire (.sweeper label every due)) (by
            unfold CountStore.Sorted
            rw [swept]
            exact List.Pairwise.sublist List.filter_sublist sorted)
          rw [swept, clock_fire, List.mem_filter] at rest
          rw [rest]
          simp only [CountEntry.isExpired, Bool.not_eq_true', decide_eq_false_iff_not, Nat.not_le,
            List.mem_cons, Task.sweeper.injEq]
          constructor
          · rintro ⟨⟨present, live⟩, _⟩
            exact ⟨present, fun _ _ _ _ => live⟩
          · rintro ⟨present, live⟩
            exact ⟨⟨present, live label every due (.inl ⟨rfl, rfl, rfl⟩)⟩,
              fun other period next member => live other period next (.inr member)⟩

theorem mem_entries_runDue (sorted : timeline.store.Sorted) :
    entry ∈ timeline.runDue.store.entries ↔
      entry ∈ timeline.store.entries ∧
        ∀ label every due, .sweeper label every due ∈ timeline.tasks →
          Instant.ceiling due ≤ timeline.clock → timeline.clock < entry.expiresAt := by
  refine (mem_entries_foldl_fire _
    { timeline with tasks := timeline.tasks.filter fun task => !task.isDue timeline.clock }
    sorted).trans ?_
  simp only [List.mem_filter, and_imp, Task.isDue, Task.wake?, decide_eq_true_eq]

/-! ### Rounds -/

/-- A sweeper that was started at an instant and has gone a number of rounds since. What has expired
by the latest of them is no longer there. -/
structure Sweeps (label : Option String) (start every rounds : Nat) (timeline : Timeline) :
    Prop where
  waiting : .sweeper label every (start + (rounds + 1) * every) ∈ timeline.tasks
  past : start + rounds * every ≤ timeline.clock
  swept : 0 < rounds → ∀ entry ∈ timeline.store.entries, start + rounds * every < entry.expiresAt

namespace Sweeps

variable {label : Option String} {start every rounds : Nat}

theorem runDue (sweeps : timeline.Sweeps label start every rounds) (onTime : timeline.OnTime)
    (sorted : timeline.store.Sorted) :
    ∃ rounds, timeline.runDue.Sweeps label start every rounds := by
  have line := timeline.tasks_runDue
  by_cases due : Instant.ceiling (start + (rounds + 1) * every) ≤ timeline.clock
  · have reached := (Instant.ceiling_le_iff _ onTime.whole).mp due
    refine ⟨rounds + 1, ?_, ?_, ?_⟩
    · have again : start + (rounds + 1 + 1) * every = start + (rounds + 1) * every + every := by
        rw [Nat.succ_mul (rounds + 1), Nat.add_assoc]
      have fires : Task.isDue timeline.clock
          (.sweeper label every (start + (rounds + 1) * every)) = true := decide_eq_true due
      rw [line, again]
      exact List.mem_append_right _
        (List.mem_map.mpr ⟨_, List.mem_filter.mpr ⟨sweeps.waiting, fires⟩, rfl⟩)
    · rw [clock_runDue]
      exact reached
    · intro _ entry member
      have live := ((mem_entries_runDue sorted).mp member).2 label every _ sweeps.waiting due
      exact Nat.lt_of_le_of_lt reached live
  · refine ⟨rounds, ?_, ?_, ?_⟩
    · have waits : Task.isDue timeline.clock
          (.sweeper label every (start + (rounds + 1) * every)) = false := decide_eq_false due
      rw [line]
      exact List.mem_append_left _ (List.mem_filter.mpr ⟨sweeps.waiting, by rw [waits]; rfl⟩)
    · rw [clock_runDue]
      exact sweeps.past
    · intro positive entry member
      exact sweeps.swept positive entry ((mem_entries_runDue sorted).mp member).1

theorem waits (sweeps : timeline.Sweeps label start every rounds)
    (sorted : timeline.store.Sorted) (waits : timeline.Waits step after) :
    ∃ rounds, after.Sweeps label start every rounds := by
  induction waits with
  | refl => exact ⟨rounds, sweeps⟩
  | advance clock _ later ih =>
      obtain ⟨rounds, sweeps⟩ := ih
      exact ⟨rounds, sweeps.waiting, Nat.le_trans sweeps.past later, sweeps.swept⟩
  | run earlier onTime ih =>
      obtain ⟨rounds, sweeps⟩ := ih
      exact sweeps.runDue onTime (earlier.sorted sorted)
  | log records _ ih =>
      obtain ⟨rounds, sweeps⟩ := ih
      exact ⟨rounds, sweeps.waiting, sweeps.past, sweeps.swept⟩
  | relieve _ _ ih =>
      obtain ⟨rounds, sweeps⟩ := ih
      exact ⟨rounds, List.mem_filter.mpr ⟨sweeps.waiting, rfl⟩, sweeps.past, sweeps.swept⟩

theorem lt_next (sweeps : timeline.Sweeps label start every rounds) (settled : timeline.Settled) :
    timeline.clock < start + (rounds + 1) * every := by
  have later := (settled.awaits _ sweeps.waiting).wake _ rfl
  have reached := Instant.ceiling_le_iff (start + (rounds + 1) * every) settled.whole
  omega

/-- After a round nothing is left that had expired by it, whatever came later. -/
theorem lt_expiresAt (sweeps : timeline.Sweeps label start every rounds)
    (settled : timeline.Settled) {earlier : Nat} (some : 0 < earlier)
    (past : start + earlier * every ≤ timeline.clock) (member : entry ∈ timeline.store.entries) :
    start + earlier * every < entry.expiresAt := by
  have gone : earlier ≤ rounds := by
    apply Nat.le_of_not_lt
    intro further
    have next := sweeps.lt_next settled
    have beyond := Nat.mul_le_mul_right every (Nat.succ_le_of_lt further)
    rw [Nat.succ_eq_add_one] at beyond
    omega
  have earlierRound := Nat.mul_le_mul_right every gone
  have future := sweeps.swept (Nat.lt_of_lt_of_le some gone) entry member
  omega

theorem lt_expiresAt_add (sweeps : timeline.Sweeps label start every rounds)
    (settled : timeline.Settled) (first : start + every ≤ timeline.clock)
    (member : entry ∈ timeline.store.entries) : timeline.clock < entry.expiresAt + every := by
  have next := sweeps.lt_next settled
  rw [Nat.succ_mul] at next
  have gone : 0 < rounds := by
    apply Nat.pos_of_ne_zero
    rintro rfl
    omega
  have future := sweeps.swept gone entry member
  omega

end Sweeps

theorem exists_sweeper_of_waits (waits : timeline.Waits step after) {label : Option String}
    {every due : Nat} (member : .sweeper label every due ∈ after.tasks) :
    ∃ earlier rounds, .sweeper label every earlier ∈ timeline.tasks ∧
      due = earlier + rounds * every := by
  induction waits generalizing due with
  | refl => exact ⟨due, 0, member, by rw [Nat.zero_mul, Nat.add_zero]⟩
  | advance clock _ later ih => exact ih member
  | @run next _ _ ih =>
      rw [tasks_runDue, List.mem_append, List.mem_map] at member
      rcases member with waiting | ⟨task, fired, same⟩
      · exact ih (List.mem_filter.mp waiting).1
      · have present := (List.mem_filter.mp fired).1
        cases task with
        | delivery other event verdict => cases same
        | sweeper other period last =>
            obtain ⟨rfl, rfl, rfl⟩ := Task.sweeper.inj same
            obtain ⟨earlier, rounds, there, rfl⟩ := ih present
            exact ⟨earlier, rounds + 1, there, by rw [Nat.succ_mul, Nat.add_assoc]⟩
  | log records _ ih => exact ih member
  | relieve _ _ ih => exact ih (List.mem_filter.mp member).1

/-- What a wait takes away has expired by the round of a sweeper. -/
theorem kept_or_swept (waits : timeline.Waits step after) (sorted : timeline.store.Sorted)
    (member : entry ∈ timeline.store.entries) :
    entry ∈ after.store.entries ∨
      ∃ label every due rounds, .sweeper label every due ∈ timeline.tasks ∧
        Instant.ceiling (due + rounds * every) ≤ after.clock ∧
        entry.expiresAt ≤ Instant.ceiling (due + rounds * every) := by
  induction waits with
  | refl => exact .inl member
  | advance clock _ later ih =>
      rcases ih with kept | ⟨label, every, due, rounds, present, reached, expired⟩
      · exact .inl kept
      · exact .inr ⟨label, every, due, rounds, present, Nat.le_trans reached later, expired⟩
  | @run next earlier onTime ih =>
      rcases ih with kept | ⟨label, every, due, rounds, present, reached, expired⟩
      · by_cases live : ∀ label every due, .sweeper label every due ∈ next.tasks →
            Instant.ceiling due ≤ next.clock → next.clock < entry.expiresAt
        · exact .inl ((mem_entries_runDue (earlier.sorted sorted)).mpr ⟨kept, live⟩)
        · simp only [Classical.not_forall, Nat.not_lt] at live
          obtain ⟨label, every, due, present, reached, expired⟩ := live
          obtain ⟨first, rounds, there, rfl⟩ := exists_sweeper_of_waits earlier present
          have onTime := (onTime.awaits _ present).wake _ rfl
          refine .inr ⟨label, every, first, rounds, there, ?_, Nat.le_trans expired onTime⟩
          rw [clock_runDue]
          exact reached
      · rw [clock_runDue]
        exact .inr ⟨label, every, due, rounds, present, reached, expired⟩
  | log records _ ih => exact ih
  | relieve _ _ ih => exact ih

end Timeline

end ScriptedResponder
