import ScriptedResponder.CountStore

/-!
Counting by memory alone. A chronicle keeps every fact about ids with its instant and never loses
one. A chain of an id is a run of its successive observations, each less than a period after the
one before, with nothing in between or since that forgets the id. `longestChain_iff` says that
`Chronicle.chain` finds the longest of them; no store takes part in any of this.
-/

set_option autoImplicit false

namespace ScriptedResponder

inductive Fact
  | observed (id : String)
  | forgotten (id : String)
  | allForgotten
  deriving DecidableEq, Repr

abbrev Chronicle := List (Nat × Fact)

def Fact.Forgets (id : String) : Fact → Prop
  | .observed _ => False
  | .forgotten other => other = id
  | .allForgotten => True

/-- A number of successive observations of an id, the latest of them at the instant given. Of the
facts in between and since none observes the id, and none forgets it. -/
inductive Chain (period : Nat) (id : String) : Chronicle → Nat → Nat → Prop
  | first (instant : Nat) (past : Chronicle) :
      Chain period id ((instant, .observed id) :: past) 1 instant
  | next {past : Chronicle} {length last instant : Nat} (chain : Chain period id past length last)
      (close : instant < last + period) :
      Chain period id ((instant, .observed id) :: past) (length + 1) instant
  | pass {past : Chronicle} {length last : Nat} (instant : Nat) {fact : Fact}
      (chain : Chain period id past length last)
      (unseen : fact ≠ .observed id) (kept : ¬ fact.Forgets id) :
      Chain period id ((instant, fact) :: past) length last

structure LongestChain (period : Nat) (id : String) (chronicle : Chronicle) (length last : Nat) :
    Prop where
  chain : Chain period id chronicle length last
  longest : ∀ other instant, Chain period id chronicle other instant → other ≤ length

namespace Chronicle

def remembered (period now : Nat) : List Nat → List Nat
  | [] => []
  | last :: earlier => if now < last + period then last :: earlier else []

/-- The instants of the unbroken observations of an id, the latest first. -/
def chain (period : Nat) (id : String) : Chronicle → List Nat
  | [] => []
  | (instant, .observed other) :: past =>
      if other = id then instant :: remembered period instant (chain period id past)
      else chain period id past
  | (_, .forgotten other) :: past => if other = id then [] else chain period id past
  | (_, .allForgotten) :: _ => []

def count (period now : Nat) (id : String) (chronicle : Chronicle) : Nat :=
  (remembered period now (chain period id chronicle)).length

variable {period : Nat} {id : String}

theorem chain_observed (instant : Nat) (past : Chronicle) :
    chain period id ((instant, .observed id) :: past) =
      instant :: remembered period instant (chain period id past) := by
  simp only [chain, if_true]

theorem chain_pass (instant : Nat) {fact : Fact} (past : Chronicle)
    (unseen : fact ≠ .observed id) (kept : ¬ fact.Forgets id) :
    chain period id ((instant, fact) :: past) = chain period id past := by
  cases fact with
  | observed other =>
      have different : other ≠ id := fun same => unseen (congrArg Fact.observed same)
      simp only [chain, if_neg different]
  | forgotten other =>
      have different : other ≠ id := kept
      simp only [chain, if_neg different]
  | allForgotten => exact absurd trivial kept

/-! ### The longest chain -/

theorem chain_isChain (chronicle : Chronicle) : ∀ last earlier,
    chain period id chronicle = last :: earlier →
      Chain period id chronicle (earlier.length + 1) last := by
  induction chronicle with
  | nil => intro last earlier found; cases found
  | cons entry past ih =>
      obtain ⟨instant, fact⟩ := entry
      intro last earlier found
      by_cases seen : fact = .observed id
      · subst seen
        rw [chain_observed] at found
        obtain ⟨rfl, rfl⟩ := List.cons.inj found
        cases before : chain period id past with
        | nil => exact .first instant past
        | cons previous others =>
            by_cases close : instant < previous + period
            · simp only [remembered, if_pos close, List.length_cons]
              exact .next (ih previous others before) close
            · simp only [remembered, if_neg close, List.length_nil]
              exact .first instant past
      · have kept : ¬ fact.Forgets id := by
          intro forgets
          cases fact with
          | observed other => exact forgets
          | forgotten other =>
              have same : other = id := forgets
              simp only [chain, if_pos same] at found
              cases found
          | allForgotten => cases found
        rw [chain_pass instant past seen kept] at found
        exact .pass instant (ih last earlier found) seen kept

theorem exists_chain_of_isChain {chronicle : Chronicle} {length last : Nat}
    (isChain : Chain period id chronicle length last) :
    ∃ earlier, chain period id chronicle = last :: earlier ∧ length ≤ earlier.length + 1 := by
  induction isChain with
  | first instant past => exact ⟨_, chain_observed instant past, Nat.le_add_left 1 _⟩
  | @next past length last instant _ close ih =>
      obtain ⟨earlier, found, bounded⟩ := ih
      refine ⟨last :: earlier, ?_, Nat.succ_le_succ bounded⟩
      rw [chain_observed, found]
      simp only [remembered, if_pos close]
  | @pass past _ _ instant _ _ unseen kept ih =>
      obtain ⟨earlier, found, bounded⟩ := ih
      exact ⟨earlier, (chain_pass instant past unseen kept).trans found, bounded⟩

theorem longestChain_iff {chronicle : Chronicle} {length last : Nat} :
    LongestChain period id chronicle length last ↔
      ∃ earlier, chain period id chronicle = last :: earlier ∧ length = earlier.length + 1 := by
  constructor
  · rintro ⟨isChain, longest⟩
    obtain ⟨earlier, found, bounded⟩ := exists_chain_of_isChain isChain
    exact ⟨earlier, found,
      Nat.le_antisymm bounded (longest _ _ (chain_isChain chronicle last earlier found))⟩
  · rintro ⟨earlier, found, rfl⟩
    refine ⟨chain_isChain chronicle last earlier found, ?_⟩
    intro other instant isChain
    obtain ⟨others, same, bounded⟩ := exists_chain_of_isChain isChain
    obtain ⟨_, rfl⟩ := List.cons.inj (found.symm.trans same)
    exact bounded

theorem longestChain_observed (instant : Nat) (past : Chronicle) :
    LongestChain period id ((instant, .observed id) :: past) (count period instant id past + 1)
      instant :=
  longestChain_iff.mpr ⟨_, chain_observed instant past, rfl⟩

/-- What is remembered of an id is its longest chain, as long as the latest observation is less
than a period old. -/
theorem count_spec (now : Nat) (chronicle : Chronicle) :
    (∃ last, LongestChain period id chronicle (count period now id chronicle) last ∧
        now < last + period) ∨
      (count period now id chronicle = 0 ∧
        ∀ length last, Chain period id chronicle length last → last + period ≤ now) := by
  unfold count
  cases found : chain period id chronicle with
  | nil =>
      right
      refine ⟨rfl, ?_⟩
      intro length last isChain
      obtain ⟨earlier, same, _⟩ := exists_chain_of_isChain isChain
      rw [found] at same
      cases same
  | cons last earlier =>
      by_cases close : now < last + period
      · left
        simp only [remembered, if_pos close, List.length_cons]
        exact ⟨last, longestChain_iff.mpr ⟨earlier, found, rfl⟩, close⟩
      · right
        simp only [remembered, if_neg close, List.length_nil, true_and]
        intro length instant isChain
        obtain ⟨others, same, _⟩ := exists_chain_of_isChain isChain
        obtain ⟨rfl, _⟩ := List.cons.inj (found.symm.trans same)
        omega

-- The wait from 2 to 12 is a whole period, so the chain begins at 12.
example : Chronicle.count 10 21 "a"
    [(20, .observed "a"), (12, .observed "a"), (2, .observed "a")] = 2 := by decide

/-! ### What each fact does to the counts -/

theorem count_observed (now later : Nat) (other : String) (past : Chronicle) :
    count period later id ((now, .observed other) :: past) =
      if other = id then
        if now + period ≤ later then 0 else count period now id past + 1
      else count period later id past := by
  by_cases same : other = id
  · subst same
    rw [if_pos rfl]
    unfold count
    rw [chain_observed]
    by_cases expired : now + period ≤ later
    · have stale : ¬ later < now + period := by omega
      simp only [remembered, if_neg stale, if_pos expired, List.length_nil]
    · have live : later < now + period := by omega
      simp only [remembered, if_pos live, if_neg expired, List.length_cons]
  · simp only [count, chain, if_neg same]

theorem count_forgotten (now later : Nat) (other : String) (past : Chronicle) :
    count period later id ((now, .forgotten other) :: past) =
      if other = id then 0 else count period later id past := by
  by_cases same : other = id
  · simp only [count, chain, if_pos same, remembered, List.length_nil]
  · simp only [count, chain, if_neg same]

theorem count_allForgotten (now later : Nat) (past : Chronicle) :
    count period later id ((now, .allForgotten) :: past) = 0 := rfl

end Chronicle

end ScriptedResponder
