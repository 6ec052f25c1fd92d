/-!
Steps that may be refused, one after another: the whole succeeds exactly when each step does, and is
otherwise refused as the first of them that is.
-/

set_option autoImplicit false

namespace ScriptedResponder

theorem bind_eq_ok_iff {Defect First Second : Type} {first : Except Defect First}
    {next : First → Except Defect Second} {second : Second} :
    (first >>= next) = .ok second ↔ ∃ own, first = .ok own ∧ next own = .ok second := by
  cases first with
  | error defect => simp [bind, Except.bind]
  | ok own => simp [bind, Except.bind]

theorem foldlM_cons_eq_ok_iff {Defect State Input : Type} {step : State → Input → Except Defect State}
    {input : Input} {rest : List Input} {start final : State} :
    (input :: rest).foldlM step start = .ok final ↔
      ∃ middle, step start input = .ok middle ∧ rest.foldlM step middle = .ok final := by
  rw [List.foldlM_cons, bind_eq_ok_iff]

theorem bind_eq_error_iff {Defect First Second : Type} {first : Except Defect First}
    {next : First → Except Defect Second} {defect : Defect} :
    (first >>= next) = .error defect ↔
      first = .error defect ∨ ∃ own, first = .ok own ∧ next own = .error defect := by
  cases first with
  | error other => simp [bind, Except.bind]
  | ok own => simp [bind, Except.bind]

/-- The step at fault is the first one that is refused. -/
theorem mapM_eq_error_iff {Defect Input Output : Type} {step : Input → Except Defect Output}
    {inputs : List Input} {defect : Defect} :
    inputs.mapM step = .error defect ↔
      ∃ earlier input later, inputs = earlier ++ input :: later ∧
        (∀ other ∈ earlier, ∀ own, step other ≠ .error own) ∧ step input = .error defect := by
  induction inputs with
  | nil => simp [pure, Except.pure]
  | cons first rest ih =>
      have unrefused : ∀ outputs : List Output, (pure outputs : Except Defect (List Output)) ≠
          .error defect := by
        intro outputs refused
        cases refused
      simp only [List.mapM_cons, bind_eq_error_iff, ih, unrefused, and_false, exists_false, or_false]
      constructor
      · rintro (refused | ⟨output, passed, earlier, input, later, rfl, sound, refused⟩)
        · exact ⟨[], first, rest, rfl, by simp, refused⟩
        · refine ⟨first :: earlier, input, later, rfl, ?_, refused⟩
          exact List.forall_mem_cons.mpr ⟨by simp [passed], sound⟩
      · rintro ⟨earlier, input, later, split, sound, refused⟩
        cases earlier with
        | nil =>
            obtain ⟨rfl, _⟩ := List.cons.inj split
            exact .inl refused
        | cons head earlier =>
            obtain ⟨rfl, rfl⟩ := List.cons.inj split
            obtain ⟨firstSound, sound⟩ := List.forall_mem_cons.mp sound
            cases own : step first with
            | error other => exact absurd own (firstSound other)
            | ok output => exact .inr ⟨output, rfl, earlier, input, later, rfl, sound, refused⟩

end ScriptedResponder
