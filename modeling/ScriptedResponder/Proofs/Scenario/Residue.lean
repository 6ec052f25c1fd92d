import Mathlib.Data.List.Dedup
import Mathlib.Data.List.Induction
import Mathlib.Data.List.Perm.Subperm
import ScriptedResponder.Proofs.Scenario.Sweepers

/-!
How much of what has expired a store still holds. Without sweepers there is no bound; with one that
nobody has cancelled no entry outlives its expiry by the sweeper's period. A sweeper is known by the
step that started it, and what has become of it since by the later steps alone: another sweeper of
the same name leaves it running where no cancellation reaches it. `residue_bounded` says what every
such sweeper has done after every scenario, and that nothing but these sweepers, and steps that
discard entries themselves, takes an entry away.
-/

set_option autoImplicit false

namespace ScriptedResponder

def Chronicle.observedAfter (instant period : Nat) (chronicle : Chronicle) : List String :=
  (chronicle.filterMap fun entry =>
    match entry.2 with
    | .observed id => if instant < entry.1 + period then some id else none
    | .forgotten _ | .allForgotten => none).dedup

theorem Chronicle.mem_of_latest? {id : String} {chronicle : Chronicle} {last : Nat}
    (latest : chronicle.latest? id = some last) : (last, .observed id) ∈ chronicle := by
  obtain ⟨⟨instant, fact⟩, found, rfl⟩ := Option.map_eq_some_iff.mp latest
  have same := List.find?_some found
  obtain rfl : fact = .observed id := of_decide_eq_true same
  exact List.mem_of_find?_eq_some found

theorem Recent.size_le {period instant : Nat} {session : Session} {journal : Journal}
    (recent : Recent period session journal)
    (live : ∀ entry ∈ session.store.entries, instant < entry.expiresAt) :
    session.store.size ≤ (journal.chronicle.observedAfter instant period).length := by
  have seen : session.store.entries.map CountEntry.id ⊆
      journal.chronicle.observedAfter instant period := by
    intro id member
    obtain ⟨entry, present, rfl⟩ := List.mem_map.mp member
    obtain ⟨last, _, latest, expires⟩ := recent.renewed entry present
    have late : instant < last + period := by
      rw [← expires]
      exact live entry present
    exact List.mem_dedup.mpr
      (List.mem_filterMap.mpr ⟨_, Chronicle.mem_of_latest? latest, if_pos late⟩)
  have fewer := (List.subperm_of_subset recent.distinct seen).length_le
  rwa [List.length_map] at fewer

/-! ### Tenure -/

/-- What has become of a sweeper: it can be cancelled under its name, or no longer since another
took the name, or it has been cancelled. -/
inductive Tenure
  | named
  | unnamed
  | cancelled
  deriving DecidableEq, Repr

namespace Tenure

def note (name : String) : Tenure → ScenarioStep → Tenure
  | .named, .startSweeper other _ => if other = name then .unnamed else .named
  | .named, .cancelSweeper other => if other = name then .cancelled else .named
  | tenure, _ => tenure

def after (name : String) (later : List ScenarioStep) : Tenure := later.foldl (note name) .named

def label (name : String) : Tenure → Option String
  | .named => some name
  | .unnamed | .cancelled => none

variable {name : String} {tenure : Tenure}

theorem foldl_note_cancelled (later : List ScenarioStep) :
    later.foldl (note name) .cancelled = .cancelled := by
  induction later with
  | nil => rfl
  | cons step rest ih => exact ih

theorem after_append_cancelled {later : List ScenarioStep}
    (cancelled : after name later = .cancelled) (more : List ScenarioStep) :
    after name (later ++ more) = .cancelled := by
  unfold after at *
  rw [List.foldl_append, cancelled, foldl_note_cancelled]

end Tenure

/-- A sweeper that a step of a scenario has started: what has become of it, the instant at which it
was started, and its period. -/
def Started (ttl : Nat) (steps : List ScenarioStep) (name : String) (tenure : Tenure)
    (start every : Nat) : Prop :=
  ∃ before requested later, steps = before ++ .startSweeper name requested :: later ∧
    tenure = Tenure.after name later ∧
    start = ((Timeline.start ttl).played before).clock ∧ every = Period.paced requested

theorem Started.append {ttl start every : Nat} {steps : List ScenarioStep} {name : String}
    {tenure : Tenure} (started : Started ttl steps name tenure start every) (step : ScenarioStep) :
    Started ttl (steps ++ [step]) name (tenure.note name step) start every := by
  obtain ⟨before, requested, later, rfl, rfl, rfl, rfl⟩ := started
  refine ⟨before, requested, later ++ [step], ?_, ?_, rfl, rfl⟩
  · rw [List.append_assoc, List.cons_append]
  · unfold Tenure.after
    rw [List.foldl_append]
    rfl

namespace Timeline

variable {timeline : Timeline}

/-! ### What the sweepers of a scenario have done -/

theorem mem_tasksOf {step : ScenarioStep} {name : String} {tenure : Tenure} {every due : Nat}
    (member : .sweeper (tenure.label name) every due ∈ timeline.tasks)
    (kept : tenure.note name step ≠ .cancelled) :
    .sweeper ((tenure.note name step).label name) every due ∈ timeline.tasksOf step := by
  cases step with
  | startSweeper other requested =>
      refine List.mem_append_left _ (List.mem_map.mpr ⟨_, member, ?_⟩)
      cases tenure with
      | named =>
          by_cases same : other = name
          · simp [Tenure.label, Tenure.note, Task.isSweeper, Task.unnamed, same]
          · have different : name ≠ other := fun equal => same equal.symm
            simp [Tenure.label, Tenure.note, Task.isSweeper, same, different]
      | unnamed => simp [Tenure.label, Tenure.note, Task.isSweeper]
      | cancelled => exact absurd rfl kept
  | cancelSweeper other =>
      cases tenure with
      | named =>
          by_cases same : other = name
          · exact absurd (if_pos same) kept
          · have different : name ≠ other := fun equal => same equal.symm
            simpa [tasksOf, Tenure.label, Tenure.note, Task.isSweeper, same, different] using member
      | unnamed => simpa [tasksOf, Tenure.label, Tenure.note, Task.isSweeper] using member
      | cancelled => exact absurd rfl kept
  | spawn other event =>
      rw [show tenure.note name (.spawn other event) = tenure by cases tenure <;> rfl]
      exact List.mem_append_left _ (List.mem_map.mpr ⟨_, member, rfl⟩)
  | increase id | get id | delete id | reset | removeStale | isEmpty | ttl | sleep period
    | handle event | poll other | join other | exchange request =>
      cases tenure <;> exact member

namespace Sweeps

variable {start every rounds period : Nat} {name : String} {tenure : Tenure}
  {account : Account}

theorem opening (sweeps : timeline.Sweeps (tenure.label name) start every rounds)
    (positive : 0 < timeline.store.ttl) {step : ScenarioStep}
    (kept : tenure.note name step ≠ .cancelled) :
    (timeline.opening step).Sweeps ((tenure.note name step).label name) start every rounds where
  waiting := mem_tasksOf sweeps.waiting kept
  past := sweeps.past
  swept := by
    intro some entry member
    have meets := timeline.session.after_instant (step.instant_calls timeline.session.retries)
    rcases meets.young entry member with earlier | young
    · exact sweeps.swept some entry earlier
    · have past := sweeps.past
      have future : timeline.clock < entry.expiresAt := by
        rw [young]
        exact Nat.lt_add_of_pos_right positive
      omega

theorem step (sweeps : timeline.Sweeps (tenure.label name) start every rounds)
    (settled : timeline.Settled) (agrees : Agrees period timeline account) (positive : 0 < period)
    {step : ScenarioStep} (kept : tenure.note name step ≠ .cancelled) :
    ∃ rounds, (timeline.step step).2.Sweeps ((tenure.note name step).label name) start every
      rounds := by
  have lasting : 0 < timeline.store.ttl := Nat.lt_of_lt_of_eq positive agrees.tracks.recent.ttl.symm
  have opened := agrees.tracks.recent.after (step.calls timeline.session.retries)
  rw [← session_opening] at opened
  exact (sweeps.opening lasting kept).waits opened.sorted (settled.waits_step step)

theorem played (sweeps : timeline.Sweeps (tenure.label name) start every rounds)
    (settled : timeline.Settled) (agrees : Agrees period timeline account) (positive : 0 < period)
    (later : List ScenarioStep) (kept : later.foldl (Tenure.note name) tenure ≠ .cancelled) :
    ∃ rounds, (timeline.played later).Sweeps ((later.foldl (Tenure.note name) tenure).label name)
      start every rounds := by
  induction later generalizing timeline tenure account rounds with
  | nil => exact ⟨rounds, sweeps⟩
  | cons step rest ih =>
      have noted : tenure.note name step ≠ .cancelled := by
        intro cancelled
        rw [List.foldl_cons, cancelled] at kept
        exact kept (Tenure.foldl_note_cancelled rest)
      obtain ⟨rounds, stepped⟩ := sweeps.step settled agrees positive noted
      exact ih stepped (settled.step step) (agrees.move (.take step)) kept

end Sweeps

/-! ### Where the sweepers of a scenario come from -/

/-- The sweepers that wait are those that some step has started and none has cancelled; each waits
for one of its rounds. -/
def Employs (ttl : Nat) (steps : List ScenarioStep) (tasks : List Task) : Prop :=
  ∀ label every due, .sweeper label every due ∈ tasks →
    ∃ name tenure start rounds, Started ttl steps name tenure start every ∧
      tenure ≠ .cancelled ∧ label = tenure.label name ∧ due = start + (rounds + 1) * every

namespace Employs

variable {ttl : Nat} {steps : List ScenarioStep}

theorem waits {step : ScenarioStep} {after : Timeline} (employs : Employs ttl steps timeline.tasks)
    (waits : timeline.Waits step after) : Employs ttl steps after.tasks := by
  intro label every due member
  obtain ⟨earlier, further, there, rfl⟩ := exists_sweeper_of_waits waits member
  obtain ⟨name, tenure, start, rounds, started, live, labelled, rfl⟩ :=
    employs label every earlier there
  refine ⟨name, tenure, start, rounds + further, started, live, labelled, ?_⟩
  rw [Nat.add_assoc, ← Nat.add_mul, Nat.add_right_comm]

theorem noted (employs : Employs ttl steps timeline.tasks) (step : ScenarioStep)
    {label relabelled : Option String} {every due : Nat}
    (member : .sweeper label every due ∈ timeline.tasks)
    (becomes : ∀ name tenure, tenure ≠ .cancelled → label = Tenure.label name tenure →
      tenure.note name step ≠ .cancelled ∧ relabelled = (tenure.note name step).label name) :
    ∃ name tenure start rounds, Started ttl (steps ++ [step]) name tenure start every ∧
      tenure ≠ .cancelled ∧ relabelled = tenure.label name ∧
      due = start + (rounds + 1) * every := by
  obtain ⟨name, tenure, start, rounds, started, live, labelled, same⟩ :=
    employs label every due member
  obtain ⟨kept, relabels⟩ := becomes name tenure live labelled
  exact ⟨name, _, start, rounds, started.append step, kept, relabels, same⟩

theorem tasksOf (employs : Employs ttl steps ((Timeline.start ttl).played steps).tasks)
    (step : ScenarioStep) :
    Employs ttl (steps ++ [step]) (((Timeline.start ttl).played steps).tasksOf step) := by
  intro label every due member
  cases step with
  | startSweeper other requested =>
      rcases List.mem_append.mp member with earlier | new
      · obtain ⟨task, present, renamed⟩ := List.mem_map.mp earlier
        cases task with
        | delivery former event verdict => cases renamed
        | sweeper former period next =>
            by_cases bears : Task.isSweeper other (.sweeper former period next) = true
            · rw [if_pos bears] at renamed
              obtain ⟨rfl, rfl, rfl⟩ := Task.sweeper.inj renamed
              obtain rfl : former = some other := of_decide_eq_true bears
              refine employs.noted _ present fun name tenure live labelled => ?_
              cases tenure with
              | named =>
                  obtain rfl := Option.some.inj labelled
                  simp [Tenure.note, Tenure.label]
              | unnamed => cases labelled
              | cancelled => exact absurd rfl live
            · rw [if_neg bears] at renamed
              obtain ⟨rfl, rfl, rfl⟩ := Task.sweeper.inj renamed
              refine employs.noted _ present fun name tenure live labelled => ?_
              cases tenure with
              | named =>
                  have different : other ≠ name := fun same =>
                    bears (decide_eq_true (by rw [labelled, same]; rfl))
                  simp [Tenure.note, Tenure.label, labelled, different]
              | unnamed => exact ⟨live, labelled⟩
              | cancelled => exact absurd rfl live
      · obtain ⟨rfl, rfl, rfl⟩ := Task.sweeper.inj (List.mem_singleton.mp new)
        refine ⟨other, .named, _, 0, ⟨steps, requested, [], rfl, rfl, rfl, rfl⟩, by decide, rfl, ?_⟩
        rw [Nat.zero_add, Nat.one_mul]
  | cancelSweeper other =>
      obtain ⟨present, spared⟩ := List.mem_filter.mp member
      refine employs.noted _ present fun name tenure live labelled => ?_
      cases tenure with
      | named =>
          have different : other ≠ name := by
            rintro rfl
            simp [Task.isSweeper, labelled, Tenure.label] at spared
          simp [Tenure.note, Tenure.label, labelled, different]
      | unnamed => exact ⟨live, labelled⟩
      | cancelled => exact absurd rfl live
  | spawn other event =>
      rcases List.mem_append.mp member with earlier | new
      · obtain ⟨task, present, renamed⟩ := List.mem_map.mp earlier
        cases task with
        | delivery former event verdict =>
            by_cases bears : Task.isDelivery other (.delivery former event verdict) = true
            · rw [if_pos bears] at renamed
              cases renamed
            · rw [if_neg bears] at renamed
              cases renamed
        | sweeper former period next =>
            obtain ⟨rfl, rfl, rfl⟩ := Task.sweeper.inj renamed
            refine employs.noted _ present fun name tenure live labelled => ?_
            cases tenure <;> exact ⟨live, labelled⟩
      · cases List.mem_singleton.mp new
  | increase id | get id | delete id | reset | removeStale | isEmpty | ttl | sleep period
    | handle event | poll other | join other | exchange request =>
      refine employs.noted _ member fun name tenure live labelled => ?_
      cases tenure <;> exact ⟨live, labelled⟩

end Employs

theorem employs_played (ttl : Nat) (steps : List ScenarioStep) :
    Employs ttl steps ((start ttl).played steps).tasks := by
  induction steps using List.reverseRecOn with
  | nil => exact fun _ _ _ => nofun
  | append_singleton steps step ih =>
      rw [played_append]
      have opened : Employs ttl (steps ++ [step]) (((start ttl).played steps).opening step).tasks :=
        ih.tasksOf step
      exact opened.waits (((settled_start ttl).played steps).waits_step step)

end Timeline

theorem Started.sweeps {ttl start every : Nat} {steps : List ScenarioStep} {name : String}
    {tenure : Tenure} (started : Started ttl steps name tenure start every)
    (live : tenure ≠ .cancelled) (positive : 0 < min ttl Period.longest) :
    ∃ rounds, ((Timeline.start ttl).played steps).Sweeps (tenure.label name) start every
      rounds := by
  obtain ⟨before, requested, later, rfl, rfl, rfl, rfl⟩ := started
  have settled := (Timeline.settled_start ttl).played before
  have agrees := Timeline.agrees_played ttl before
  have started : (((Timeline.start ttl).played before).opening
      (.startSweeper name requested)).Sweeps (some name)
        ((Timeline.start ttl).played before).clock (Period.paced requested) 0 := by
    refine ⟨List.mem_append_right _ ?_, ?_, fun none => by cases none⟩
    · rw [Nat.zero_add, Nat.one_mul]
      exact List.mem_singleton.mpr rfl
    · rw [Nat.zero_mul, Nat.add_zero]
      exact Nat.le_refl _
  obtain ⟨rounds, sweeps⟩ := started.waits agrees.tracks.recent.sorted (settled.waits_step _)
  rw [Timeline.played_append]
  have first : (Tenure.named).label name = some name := rfl
  rw [← first] at sweeps
  exact sweeps.played (settled.step _) (agrees.move (.take _)) positive later live

/-! ### What else takes entries away -/

/-- A step that discards an entry itself, at the instant at which it is taken. -/
inductive Discards (now : Nat) (store : CountStore) (entry : CountEntry) : ScenarioStep → Prop
  | delete : Discards now store entry (.delete entry.id)
  | reset : Discards now store entry .reset
  | removeStale (expired : entry.expiresAt ≤ now) : Discards now store entry .removeStale
  | delivery {step : ScenarioStep} {event : Event} (delivers : step.delivered? = some event)
      (resets : Delivery.action? now event store = some .reset) : Discards now store entry step

theorem CountStore.exists_mem_increase {now : Nat} {store : CountStore} {entry : CountEntry}
    (member : entry ∈ store.entries) (young : entry.expiresAt ≤ now + store.ttl) (id : String) :
    ∃ other ∈ (store.increase now id).entries,
      other.id = entry.id ∧ entry.expiresAt ≤ other.expiresAt := by
  by_cases same : entry.id = id
  · exact ⟨store.observed now id, List.mem_cons_self, same.symm, young⟩
  · refine ⟨entry, List.mem_cons_of_mem _ ?_, rfl, Nat.le_refl _⟩
    exact List.mem_filter.mpr ⟨member, decide_eq_true same⟩

namespace Timeline

variable {timeline : Timeline} {period : Nat} {journal : Journal} {entry : CountEntry}

theorem kept_or_discards (recent : Recent period timeline.session journal) (step : ScenarioStep)
    (member : entry ∈ timeline.store.entries) :
    (∃ other ∈ (timeline.session.after (step.calls timeline.session.retries)).store.entries,
      other.id = entry.id ∧ entry.expiresAt ≤ other.expiresAt) ∨
      Discards timeline.clock timeline.store entry step := by
  have young : entry.expiresAt ≤ timeline.clock + timeline.store.ttl := by
    have bounded := recent.expiresAt_le member
    rw [← recent.ttl] at bounded
    exact bounded
  have increased := CountStore.exists_mem_increase member young
  have kept : ∃ other ∈ timeline.store.entries,
      other.id = entry.id ∧ entry.expiresAt ≤ other.expiresAt :=
    ⟨entry, member, rfl, Nat.le_refl _⟩
  have delivered (event : Event) (delivers : step.delivered? = some event) :
      (∃ other ∈ (timeline.session.after
          (event.calls (timeline.session.retries event.id))).store.entries,
        other.id = entry.id ∧ entry.expiresAt ≤ other.expiresAt) ∨
        Discards timeline.clock timeline.store entry step := by
    unfold Event.calls
    cases read : Instruction.ofBody event.data with
    | error error => exact .inl kept
    | ok instructions =>
        by_cases resets : Delivery.executed? (timeline.session.retries event.id) instructions =
            some .reset
        · refine .inr (.delivery delivers ?_)
          unfold Delivery.action?
          rw [read]
          exact resets
        · simp only [if_neg resets]
          exact .inl (increased event.id)
  cases step with
  | increase id => exact .inl (increased id)
  | delete id =>
      by_cases same : entry.id = id
      · subst same
        exact .inr .delete
      · exact .inl ⟨entry, List.mem_filter.mpr ⟨member, decide_eq_true same⟩, rfl, Nat.le_refl _⟩
  | reset => exact .inr .reset
  | removeStale =>
      obtain ⟨removed, split, expired⟩ :=
        timeline.store.exists_entries_eq_removeStale_append timeline.clock
      rw [split] at member
      rcases List.mem_append.mp member with present | gone
      · exact .inl ⟨entry, present, rfl, Nat.le_refl _⟩
      · exact .inr (.removeStale (of_decide_eq_true (expired entry gone)))
  | handle event => exact delivered event rfl
  | spawn name event => exact delivered event rfl
  | exchange request =>
      simp only [ScenarioStep.calls]
      cases event? : (ScenarioStep.exchange request).delivered? with
      | none => exact .inl kept
      | some event => exact delivered event event?
  | get id | isEmpty | ttl | sleep wait | startSweeper name every | cancelSweeper name | poll name
    | join name => exact .inl kept

theorem Settled.lt_ceiling_due (settled : timeline.Settled) {step : ScenarioStep}
    {label : Option String} {every due : Nat}
    (member : .sweeper label every due ∈ timeline.tasksOf step) :
    timeline.clock < Instant.ceiling due := by
  have present : .sweeper label every due ∈ timeline.tasks → timeline.clock < Instant.ceiling due :=
    fun present => (settled.awaits _ present).wake _ rfl
  cases step with
  | startSweeper name requested =>
      exact ((settled.startSweeper name requested).awaits _ member).wake _ rfl
  | cancelSweeper name => exact present (List.mem_filter.mp member).1
  | spawn name event =>
      rcases List.mem_append.mp member with earlier | new
      · obtain ⟨task, there, renamed⟩ := List.mem_map.mp earlier
        have awaits := (settled.awaits task there).renamed (Task.isDelivery name)
        rw [renamed] at awaits
        exact awaits.wake _ rfl
      · cases List.mem_singleton.mp new
  | increase id | get id | delete id | reset | removeStale | isEmpty | ttl | sleep period
    | handle event | poll name | join name | exchange request => exact present member

/-- A sweeper that nobody has cancelled goes a round between two instants, by which an entry has
expired. -/
def SweptBetween (ttl : Nat) (steps : List ScenarioStep) (first last : Nat) (entry : CountEntry) :
    Prop :=
  ∃ name tenure start every rounds, Started ttl steps name tenure start every ∧
    tenure ≠ .cancelled ∧ 0 < rounds ∧
      let round := Instant.ceiling (start + rounds * every)
      first < round ∧ round ≤ last ∧ entry.expiresAt ≤ round

/-- What is gone after a step has been discarded by it, or removed by the round of a sweeper that
was running while the step waited. -/
theorem discards_or_swept (ttl : Nat) (steps : List ScenarioStep) (step : ScenarioStep) :
    let timeline := (start ttl).played steps
    let next := (timeline.step step).2
    ∀ entry, (entry ∈ timeline.store.entries ∨
        entry ∈ (timeline.session.after (step.calls timeline.session.retries)).store.entries) →
      (∀ other ∈ next.store.entries, other.id ≠ entry.id) →
        Discards timeline.clock timeline.store entry step ∨
          SweptBetween ttl (steps ++ [step]) timeline.clock next.clock entry := by
  intro timeline next entry found gone
  have settled : timeline.Settled := (settled_start ttl).played steps
  have agrees := agrees_played ttl steps
  have swept (other : CountEntry) (same : other.id = entry.id)
      (longer : entry.expiresAt ≤ other.expiresAt)
      (present : other ∈ (timeline.opening step).store.entries) :
      SweptBetween ttl (steps ++ [step]) timeline.clock next.clock entry := by
    have opened := agrees.tracks.recent.after (step.calls timeline.session.retries)
    rw [← session_opening] at opened
    rcases kept_or_swept (settled.waits_step step) opened.sorted present with
      kept | ⟨label, every, due, further, waiting, reached, expired⟩
    · exact absurd same (gone other kept)
    · obtain ⟨name, tenure, start, rounds, started, live, _, rfl⟩ :=
        (employs_played ttl steps).tasksOf step label every due waiting
      have ahead := settled.lt_ceiling_due waiting
      have round : start + (rounds + 1) * every + further * every =
          start + (rounds + 1 + further) * every := by rw [Nat.add_assoc, ← Nat.add_mul]
      rw [round] at reached expired
      have later : start + (rounds + 1) * every ≤ start + (rounds + 1 + further) * every := by
        rw [← round]
        exact Nat.le_add_right _ _
      exact ⟨name, tenure, start, every, rounds + 1 + further, started, live, by omega,
        Nat.lt_of_lt_of_le ahead (Instant.ceiling_mono later), reached, Nat.le_trans longer expired⟩
  rcases found with member | opened
  · rcases kept_or_discards agrees.tracks.recent step member with
      ⟨other, present, same, longer⟩ | discards
    · exact .inr (swept other same longer present)
    · exact .inl discards
  · exact .inr (swept entry rfl (Nat.le_refl _) opened)

end Timeline

/-- After every round of a sweeper that nobody has cancelled the store holds nothing that had
expired by it, so there are no more entries than ids observed later than a period before the round,
and after the first round none that expired a whole period of the sweeper ago. Nothing but such a
round takes an entry away, unless a step discards it. No cancelled sweeper waits for a round, and
none is ever taken back. -/
theorem residue_bounded (ttl : Nat) (steps : List ScenarioStep) :
    let period := min ttl Period.longest
    let timeline := (Timeline.start ttl).played steps
    let account := Account.opened.after period ((Timeline.start ttl).history (steps.map .take))
    (0 < ttl → ∀ name tenure start every,
      Started ttl steps name tenure start every → tenure ≠ .cancelled →
        (∀ rounds, 0 < rounds → start + rounds * every ≤ timeline.clock →
          (∀ entry ∈ timeline.store.entries, start + rounds * every < entry.expiresAt) ∧
          timeline.store.size ≤
            (account.journal.chronicle.observedAfter (start + rounds * every) period).length) ∧
        (start + every ≤ timeline.clock →
          ∀ entry ∈ timeline.store.entries, timeline.clock < entry.expiresAt + every)) ∧
    (∀ step,
      let opened := timeline.session.after (step.calls timeline.session.retries)
      let next := (timeline.step step).2
      ∀ entry, (entry ∈ timeline.store.entries ∨ entry ∈ opened.store.entries) →
        (∀ other ∈ next.store.entries, other.id ≠ entry.id) →
          Discards timeline.clock timeline.store entry step ∨
            Timeline.SweptBetween ttl (steps ++ [step]) timeline.clock next.clock entry) ∧
    Timeline.Employs ttl steps timeline.tasks ∧
    (∀ name later more, Tenure.after name later = .cancelled →
      Tenure.after name (later ++ more) = .cancelled) := by
  intro period timeline account
  refine ⟨?_, Timeline.discards_or_swept ttl steps, Timeline.employs_played ttl steps, ?_⟩
  · intro lasting name tenure start every started live
    have positive : 0 < min ttl Period.longest := Nat.lt_min.mpr ⟨lasting, by decide⟩
    have settled : timeline.Settled := (Timeline.settled_start ttl).played steps
    have recent := (Timeline.agrees_played ttl steps).tracks.recent
    obtain ⟨latest, sweeps⟩ := started.sweeps live positive
    refine ⟨?_, fun first entry member => sweeps.lt_expiresAt_add settled first member⟩
    intro rounds some past
    have live : ∀ entry ∈ timeline.store.entries, start + rounds * every < entry.expiresAt :=
      fun entry member => sweeps.lt_expiresAt settled some past member
    exact ⟨live, recent.size_le live⟩
  · intro name later more cancelled
    exact Tenure.after_append_cancelled cancelled more

theorem residue_bounded_first_round :
    let steps : List ScenarioStep :=
      [.startSweeper "sweeper" (Period.ofMilliseconds 5), .increase "id",
        .sleep (Period.ofMilliseconds 7)]
    ((Timeline.start (Period.ofMilliseconds 2)).played steps).store.size = 0 := by
  intro steps
  have started : Started (Period.ofMilliseconds 2) steps "sweeper" .named 0
      (Period.ofMilliseconds 5) :=
    ⟨[], _, [.increase "id", .sleep (Period.ofMilliseconds 7)], rfl, rfl, rfl, rfl⟩
  have clock : ((Timeline.start (Period.ofMilliseconds 2)).played steps).clock =
      Period.ofMilliseconds 7 := by
    simp only [steps, Timeline.played, List.foldl_cons, List.foldl_nil, Timeline.step,
      Timeline.perform, Timeline.sleep, Timeline.clock_runDue, Timeline.clock_advanceTo]
    decide
  have bounded := ((residue_bounded (Period.ofMilliseconds 2) steps).1 (by decide) _ _ _ _ started
    (by decide)).1 1 (by decide) (by rw [clock]; decide)
  exact Nat.le_zero.mp bounded.2

end ScriptedResponder
