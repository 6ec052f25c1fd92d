import ScriptedResponder.Json.Parts

/-!
What the stack of open brackets stands for. Under brackets that are open already the control does
what it does under none, and then resumes; so the lexemes of a value are taken whole wherever they
stand: one token alone, or by `isNested_container` the parts of a container up to its bracket.
-/

set_option autoImplicit false

namespace ScriptedResponder.Json

/-! ### Brackets that are open already -/

def resume (opened : List Bracket) (taken rest : List Lexeme) :
    Option (List Lexeme × List Lexeme) :=
  match opened with
  | [] => some (taken.reverse, rest)
  | opened => takeNested .separator opened taken rest

def Advance.within (outer : List Bracket) : Advance → Advance
  | .refuse => .refuse
  | .proceed expected opened => .proceed expected (opened ++ outer)
  | .finish => .afterValue outer

theorem Advance.afterValue_append (opened outer : List Bracket) :
    Advance.afterValue (opened ++ outer) = (Advance.afterValue opened).within outer := by
  cases opened <;> rfl

theorem Advance.startValue_append (opened outer : List Bracket) (token : Token) :
    Advance.startValue (opened ++ outer) token = (Advance.startValue opened token).within outer := by
  cases token with
  | null | truth _ | number _ | string _ => exact Advance.afterValue_append opened outer
  | openList | openRecord | closeList | closeRecord | comma | colon => rfl

theorem Advance.separate_append (bracket : Bracket) (opened outer : List Bracket) (token : Token) :
    Advance.separate (bracket :: opened ++ outer) token =
      (Advance.separate (bracket :: opened) token).within outer := by
  cases token with
  | closeList =>
      cases bracket with
      | list => exact Advance.afterValue_append opened outer
      | record => rfl
  | closeRecord =>
      cases bracket with
      | list => rfl
      | record => exact Advance.afterValue_append opened outer
  | comma => cases bracket <;> rfl
  | _ => rfl

/-- Under no bracket of its own the control can only stand before a value. -/
theorem Advance.step_append {opened : List Bracket} {expected : Expectation} (outer : List Bracket)
    (token : Token) (own : opened = [] → expected = .value) :
    Advance.step (opened ++ outer) token expected =
      (Advance.step opened token expected).within outer := by
  cases opened with
  | nil =>
      rw [own rfl]
      exact Advance.startValue_append [] outer token
  | cons bracket opened =>
      cases expected with
      | value => exact Advance.startValue_append (bracket :: opened) outer token
      | valueOrClose =>
          by_cases closes : token = .closeList
          · subst closes
            exact Advance.separate_append bracket opened outer .closeList
          · simp only [Advance.step, if_neg closes]
            exact Advance.startValue_append (bracket :: opened) outer token
      | name => cases token <;> rfl
      | nameOrClose =>
          cases token with
          | closeRecord => exact Advance.separate_append bracket opened outer .closeRecord
          | _ => rfl
      | colon =>
          simp only [Advance.step]
          split <;> rfl
      | separator => exact Advance.separate_append bracket opened outer token

theorem Advance.opened_ne_nil {opened next : List Bracket} {expected awaited : Expectation}
    {token : Token} (own : opened = [] → expected = .value)
    (proceeds : Advance.step opened token expected = .proceed awaited next) : next ≠ [] := by
  rintro rfl
  cases opened with
  | nil =>
      rw [own rfl] at proceeds
      cases token <;> simp [Advance.step, Advance.startValue, Advance.afterValue] at proceeds
  | cons bracket opened =>
      cases expected <;> cases token <;> cases bracket <;> cases opened <;>
        simp [Advance.step, Advance.startValue, Advance.afterValue, Advance.separate,
          Advance.closeList, Advance.closeRecord] at proceeds

theorem takeNested_taken (expected : Expectation) (opened : List Bracket)
    (taken input : List Lexeme) :
    takeNested expected opened taken input =
      (takeNested expected opened [] input).map fun found =>
        (taken.reverse ++ found.1, found.2) := by
  induction input generalizing expected opened taken with
  | nil => rfl
  | cons lexeme rest ih =>
      simp only [takeNested]
      cases Advance.step opened lexeme.token expected with
      | refuse => rfl
      | finish => simp
      | proceed awaited next =>
          simp only
          rw [ih awaited next (lexeme :: taken), ih awaited next [lexeme]]
          simp [Function.comp_def]

theorem resume_taken {expected : Expectation} {opened : List Bracket} (outer : List Bracket)
    (taken : List Lexeme) (lexeme : Lexeme) (input : List Lexeme) :
    ((takeNested expected opened [lexeme] input).bind fun found =>
        resume outer (found.1.reverse ++ taken) found.2) =
      (takeNested expected opened [] input).bind fun found =>
        resume outer (found.1.reverse ++ lexeme :: taken) found.2 := by
  rw [takeNested_taken expected opened [lexeme], Option.bind_map]
  simp only [Function.comp_def, List.reverse_append, List.reverse_reverse, List.append_assoc,
    List.singleton_append]

/-- Brackets open underneath do not matter until all above them are closed. -/
theorem takeNested_resume {expected : Expectation} {opened : List Bracket}
    (outer : List Bracket) (taken input : List Lexeme) (own : opened = [] → expected = .value) :
    takeNested expected (opened ++ outer) taken input =
      (takeNested expected opened [] input).bind fun found =>
        resume outer (found.1.reverse ++ taken) found.2 := by
  -- Along the lexemes there is always a bracket of our own open, except before the first of them;
  -- so closing one can end our value, but never reaches into the brackets underneath.
  induction input generalizing expected opened taken with
  | nil => rfl
  | cons lexeme rest ih =>
      simp only [takeNested, Advance.step_append outer lexeme.token own]
      cases proceeds : Advance.step opened lexeme.token expected with
      | refuse => rfl
      | finish => cases outer <;> simp [Advance.within, Advance.afterValue, resume]
      | proceed awaited next =>
          have unclosed := Advance.opened_ne_nil own proceeds
          simp only [Advance.within]
          rw [ih (lexeme :: taken) fun closed => absurd closed unclosed, resume_taken]

theorem takeNested_followed {expected : Expectation} {opened : List Bracket}
    {taken input found more : List Lexeme} (rest : List Lexeme)
    (read : takeNested expected opened taken input = some (found, more)) :
    takeNested expected opened taken (input ++ rest) = some (found, more ++ rest) := by
  induction input generalizing expected opened taken with
  | nil => cases read
  | cons lexeme input ih =>
      simp only [List.cons_append, takeNested] at read ⊢
      cases proceeds : Advance.step opened lexeme.token expected with
      | refuse => simp [proceeds] at read
      | finish =>
          simp only [proceeds, Option.some.injEq, Prod.mk.injEq] at read ⊢
          exact ⟨read.1, by rw [read.2]⟩
      | proceed awaited next =>
          simp only [proceeds] at read ⊢
          exact ih read

theorem takeNested_split {expected : Expectation} {opened : List Bracket}
    {taken input found rest : List Lexeme}
    (read : takeNested expected opened taken input = some (found, rest)) :
    ∃ more, input = more ++ rest ∧ takeNested expected opened taken more = some (found, []) := by
  induction input generalizing expected opened taken with
  | nil => cases read
  | cons lexeme input ih =>
      simp only [takeNested] at read
      cases proceeds : Advance.step opened lexeme.token expected with
      | refuse => simp [proceeds] at read
      | finish =>
          simp only [proceeds, Option.some.injEq, Prod.mk.injEq] at read
          obtain ⟨rfl, rfl⟩ := read
          exact ⟨[lexeme], rfl, by simp [takeNested, proceeds]⟩
      | proceed awaited next =>
          simp only [proceeds] at read
          obtain ⟨more, rfl, ended⟩ := ih read
          exact ⟨lexeme :: more, rfl, by simpa [takeNested, proceeds] using ended⟩

/-! ### Whole values -/

def takeFollowing (first : Token) (input : List Lexeme) : Option (List Lexeme × List Lexeme) :=
  match Advance.step [] first .value with
  | .refuse => none
  | .finish => some ([], input)
  | .proceed expected opened => takeNested expected opened [] input

def Value.lexemes (blank : Bytes) (value : Value) : List Lexeme :=
  ⟨blank, value.first⟩ :: value.following

/-- The lexemes of a value are those of one value, no less and no more. -/
def Value.IsNested (value : Value) : Prop :=
  takeFollowing value.first value.following = some (value.following, [])

theorem takeNested_value (outer : List Bracket) (taken : List Lexeme) (lexeme : Lexeme)
    (rest : List Lexeme) :
    takeNested .value outer taken (lexeme :: rest) =
      (takeFollowing lexeme.token rest).bind fun found =>
        resume outer (found.1.reverse ++ lexeme :: taken) found.2 := by
  have resumed := @takeNested_resume .value [] outer taken (lexeme :: rest) fun _ => rfl
  rw [List.nil_append] at resumed
  rw [resumed]
  simp only [takeNested, takeFollowing]
  cases Advance.step [] lexeme.token .value with
  | refuse => rfl
  | finish => simp
  | proceed awaited next =>
      exact resume_taken outer taken lexeme rest

theorem takeValue?_cons (lexeme : Lexeme) (rest : List Lexeme) :
    takeValue? (lexeme :: rest) =
      (takeFollowing lexeme.token rest).map fun found => (⟨lexeme.token, found.1⟩, found.2) := by
  unfold takeValue?
  rw [takeNested_value]
  cases takeFollowing lexeme.token rest with
  | none => rfl
  | some found => simp [resume]

theorem takeFollowing_split {first : Token} {input found rest : List Lexeme}
    (read : takeFollowing first input = some (found, rest)) :
    input = found ++ rest ∧ (Value.mk first found).IsNested := by
  unfold Value.IsNested
  unfold takeFollowing at read ⊢
  cases proceeds : Advance.step [] first .value with
  | refuse => simp [proceeds] at read
  | finish =>
      simp only [proceeds, Option.some.injEq, Prod.mk.injEq] at read
      obtain ⟨rfl, rfl⟩ := read
      exact ⟨rfl, rfl⟩
  | proceed awaited next =>
      simp only [proceeds] at read ⊢
      obtain ⟨more, rfl, ended⟩ := takeNested_split read
      obtain ⟨all, _, rfl, same⟩ := takeNested_append read
      obtain rfl := List.append_cancel_right same
      exact ⟨rfl, ended⟩

theorem takeFollowing_of {value : Value} (nested : value.IsNested) (rest : List Lexeme) :
    takeFollowing value.first (value.following ++ rest) = some (value.following, rest) := by
  unfold Value.IsNested takeFollowing at nested
  unfold takeFollowing
  cases proceeds : Advance.step [] value.first .value with
  | refuse => simp [proceeds] at nested
  | finish =>
      simp only [proceeds, Option.some.injEq, Prod.mk.injEq] at nested
      simp [← nested.1]
  | proceed awaited next =>
      simp only [proceeds] at nested
      simpa using takeNested_followed rest nested

theorem takeValue?_eq_some_iff {input rest : List Lexeme} {value : Value} :
    takeValue? input = some (value, rest) ↔
      value.IsNested ∧ ∃ blank, input = value.lexemes blank ++ rest := by
  constructor
  · intro read
    cases input with
    | nil => cases read
    | cons lexeme input =>
        rw [takeValue?_cons, Option.map_eq_some_iff] at read
        obtain ⟨⟨found, remaining⟩, followed, same⟩ := read
        obtain ⟨rfl, rfl⟩ := Prod.mk.inj same
        obtain ⟨rfl, nested⟩ := takeFollowing_split followed
        exact ⟨nested, lexeme.blank, rfl⟩
  · rintro ⟨nested, blank, rfl⟩
    rw [Value.lexemes, List.cons_append, takeValue?_cons, takeFollowing_of nested]
    rfl

theorem takeValue?_lexemes {value : Value} (nested : value.IsNested) (blank : Bytes)
    (rest : List Lexeme) : takeValue? (value.lexemes blank ++ rest) = some (value, rest) :=
  takeValue?_eq_some_iff.mpr ⟨nested, blank, rfl⟩

theorem takeNested_lexemes {value : Value} (nested : value.IsNested) (blank : Bytes)
    (outer : List Bracket) (taken rest : List Lexeme) :
    takeNested .value outer taken (value.lexemes blank ++ rest) =
      resume outer ((value.lexemes blank).reverse ++ taken) rest := by
  rw [Value.lexemes, List.cons_append, takeNested_value, takeFollowing_of nested]
  simp

theorem exists_value_of_takeNested {outer : List Bracket} {taken input : List Lexeme}
    {result : List Lexeme × List Lexeme} (read : takeNested .value outer taken input = some result) :
    ∃ (value : Value) (blank : Bytes) (rest : List Lexeme), value.IsNested ∧
      input = value.lexemes blank ++ rest ∧
      resume outer ((value.lexemes blank).reverse ++ taken) rest = some result := by
  cases input with
  | nil => cases read
  | cons lexeme input =>
      rw [takeNested_value, Option.bind_eq_some_iff] at read
      obtain ⟨⟨found, rest⟩, followed, resumed⟩ := read
      obtain ⟨rfl, nested⟩ := takeFollowing_split followed
      refine ⟨⟨lexeme.token, found⟩, lexeme.blank, rest, nested, rfl, ?_⟩
      simpa [Value.lexemes] using resumed

/-! ### The parts of a container -/

/-- The lexemes of one or more parts with commas between them, up to the closing bracket. -/
inductive Items {Part : Type} (Opens : Part → List Lexeme → Prop) (closing : Token) :
    List Part → List Lexeme → Prop
  | last {part : Part} {lexemes : List Lexeme} (opens : Opens part lexemes) (after : Bytes) :
      Items Opens closing [part] (lexemes ++ [⟨after, closing⟩])
  | more {part : Part} {lexemes : List Lexeme} {parts : List Part} {rest : List Lexeme}
      (opens : Opens part lexemes) (after : Bytes) (others : Items Opens closing parts rest) :
      Items Opens closing (part :: parts) (lexemes ++ ⟨after, .comma⟩ :: rest)

/-- The lexemes after an opening bracket, up to the one that closes it. -/
inductive Contents {Part : Type} (Opens : Part → List Lexeme → Prop) (closing : Token) :
    List Part → List Lexeme → Prop
  | empty (blank : Bytes) : Contents Opens closing [] [⟨blank, closing⟩]
  | filled {parts : List Part} {lexemes : List Lexeme}
      (items : Items Opens closing parts lexemes) : Contents Opens closing parts lexemes

def OpensElement (value : Value) (lexemes : List Lexeme) : Prop :=
  value.IsNested ∧ ∃ blank, lexemes = value.lexemes blank

def OpensMember (member : Member) (lexemes : List Lexeme) : Prop :=
  member.2.IsNested ∧ ∃ before between blank,
    lexemes = ⟨before, .string member.1⟩ :: ⟨between, .colon⟩ :: member.2.lexemes blank

def Bracket.closing : Bracket → Token
  | .list => .closeList
  | .record => .closeRecord

def Bracket.opening : Bracket → Token
  | .list => .openList
  | .record => .openRecord

def Bracket.awaited : Bracket → Expectation
  | .list => .value
  | .record => .name

def Bracket.awaitedFirst : Bracket → Expectation
  | .list => .valueOrClose
  | .record => .nameOrClose

/-- The control reads just these parts inside a bracket. -/
structure Bracket.Reads {Part : Type} (bracket : Bracket) (Opens : Part → List Lexeme → Prop) :
    Prop where
  nonempty : ∀ {part lexemes}, Opens part lexemes → lexemes ≠ []
  reads : ∀ {part lexemes}, Opens part lexemes → ∀ taken rest,
    takeNested bracket.awaited [bracket] taken (lexemes ++ rest) =
      takeNested .separator [bracket] (lexemes.reverse ++ taken) rest
  found : ∀ {taken input result},
    takeNested bracket.awaited [bracket] taken input = some result →
      ∃ part lexemes rest, Opens part lexemes ∧ input = lexemes ++ rest ∧
        takeNested .separator [bracket] (lexemes.reverse ++ taken) rest = some result

theorem Bracket.list_reads : Bracket.list.Reads OpensElement where
  nonempty := by
    rintro value lexemes ⟨_, blank, rfl⟩
    simp [Value.lexemes]
  reads := by
    rintro value lexemes ⟨nested, blank, rfl⟩ taken rest
    exact takeNested_lexemes nested blank [.list] taken rest
  found := by
    intro taken input result read
    obtain ⟨value, blank, rest, nested, same, resumed⟩ := exists_value_of_takeNested read
    exact ⟨value, value.lexemes blank, rest, ⟨nested, blank, rfl⟩, same, resumed⟩

theorem Bracket.record_reads : Bracket.record.Reads OpensMember where
  nonempty := by
    rintro member lexemes ⟨_, before, between, blank, rfl⟩
    simp
  reads := by
    rintro ⟨name, value⟩ lexemes ⟨nested, before, between, blank, rfl⟩ taken rest
    have read := takeNested_lexemes nested blank [.record]
      (⟨between, .colon⟩ :: ⟨before, .string name⟩ :: taken) rest
    simpa [takeNested, Advance.step, Bracket.awaited, resume] using read
  found := by
    intro taken input result read
    match input, read with
    | [], read => cases read
    | [⟨_, token⟩], read =>
        cases token <;> simp [takeNested, Advance.step, Bracket.awaited] at read
    | ⟨before, token⟩ :: ⟨between, second⟩ :: input, read =>
        cases token with
        | string name =>
            by_cases colon : second = .colon
            · subst colon
              simp only [takeNested, Advance.step, Bracket.awaited, if_true] at read
              obtain ⟨value, blank, rest, nested, rfl, resumed⟩ := exists_value_of_takeNested read
              refine ⟨(name, value), _, rest, ⟨nested, before, between, blank, rfl⟩, by simp, ?_⟩
              simpa [resume] using resumed
            · simp [takeNested, Advance.step, Bracket.awaited, if_neg colon] at read
        | _ => simp [takeNested, Advance.step, Bracket.awaited] at read

theorem Advance.step_opening (bracket : Bracket) :
    Advance.step [] bracket.opening .value = .proceed bracket.awaitedFirst [bracket] := by
  cases bracket <;> rfl

theorem Advance.step_awaitedFirst (bracket : Bracket) (token : Token) :
    Advance.step [bracket] token bracket.awaitedFirst =
      if token = bracket.closing then .finish
      else Advance.step [bracket] token bracket.awaited := by
  cases bracket <;> cases token <;> rfl

theorem Advance.step_awaited_closing (bracket : Bracket) :
    Advance.step [bracket] bracket.closing bracket.awaited = .refuse := by
  cases bracket <;> rfl

theorem Advance.step_separator (bracket : Bracket) (token : Token) :
    Advance.step [bracket] token .separator =
      if token = .comma then .proceed bracket.awaited [bracket]
      else if token = bracket.closing then .finish
      else .refuse := by
  cases bracket <;> cases token <;> rfl

section

variable {Part : Type} {bracket : Bracket} {Opens : Part → List Lexeme → Prop}

theorem Items.takeNested (reads : bracket.Reads Opens) {parts : List Part} {input : List Lexeme}
    (items : Items Opens bracket.closing parts input) (taken : List Lexeme) :
    Json.takeNested bracket.awaited [bracket] taken input = some (taken.reverse ++ input, []) := by
  have uncommon : bracket.closing ≠ .comma := by cases bracket <;> simp [Bracket.closing]
  induction items generalizing taken with
  | last opens after =>
      rw [reads.reads opens]
      simp [Json.takeNested, Advance.step_separator, uncommon]
  | more opens after others ih =>
      rw [reads.reads opens]
      simp [Json.takeNested, Advance.step_separator, ih]

theorem exists_items_of_takeNested (reads : bracket.Reads Opens) {taken input found : List Lexeme}
    (read : takeNested bracket.awaited [bracket] taken input = some (found, [])) :
    ∃ parts, Items Opens bracket.closing parts input := by
  -- A part may have any number of lexemes, so this goes by the number of those that are left.
  induction length : input.length using Nat.strongRecOn generalizing taken input with
  | ind size ih =>
      obtain ⟨part, lexemes, rest, opens, rfl, separated⟩ := reads.found read
      have positive := List.length_pos_iff.mpr (reads.nonempty opens)
      match rest, separated with
      | [], separated => cases separated
      | ⟨after, token⟩ :: rest, separated =>
          simp only [Json.takeNested, Advance.step_separator] at separated
          by_cases comma : token = .comma
          · subst comma
            simp only [if_true] at separated
            have shorter : rest.length < size := by
              simp only [List.length_append, List.length_cons] at length
              omega
            obtain ⟨parts, others⟩ := ih rest.length shorter separated rfl
            exact ⟨part :: parts, .more opens after others⟩
          · by_cases closes : token = bracket.closing
            · subst closes
              simp only [if_neg comma, if_true, Option.some.injEq, Prod.mk.injEq] at separated
              obtain ⟨_, rfl⟩ := separated
              exact ⟨[part], .last opens after⟩
            · simp [comma, closes] at separated

theorem takeNested_awaitedFirst (lexeme : Lexeme) (taken rest : List Lexeme) :
    Json.takeNested bracket.awaitedFirst [bracket] taken (lexeme :: rest) =
      if lexeme.token = bracket.closing then some ((lexeme :: taken).reverse, rest)
      else Json.takeNested bracket.awaited [bracket] taken (lexeme :: rest) := by
  simp only [Json.takeNested, Advance.step_awaitedFirst]
  by_cases closes : lexeme.token = bracket.closing
  · simp only [if_pos closes]
  · simp only [if_neg closes]

theorem isNested_container (reads : bracket.Reads Opens) (following : List Lexeme) :
    (Value.mk bracket.opening following).IsNested ↔
      ∃ parts, Contents Opens bracket.closing parts following := by
  simp only [Value.IsNested, takeFollowing, Advance.step_opening]
  constructor
  · intro nested
    cases following with
    | nil => cases nested
    | cons lexeme rest =>
        rw [takeNested_awaitedFirst] at nested
        by_cases closes : lexeme.token = bracket.closing
        · rw [if_pos closes] at nested
          obtain ⟨_, rfl⟩ := Prod.mk.inj (Option.some.inj nested)
          obtain ⟨blank, token⟩ := lexeme
          subst closes
          exact ⟨[], .empty blank⟩
        · rw [if_neg closes] at nested
          obtain ⟨parts, items⟩ := exists_items_of_takeNested reads nested
          exact ⟨parts, .filled items⟩
  · rintro ⟨parts, contents⟩
    cases contents with
    | empty blank => simp [takeNested_awaitedFirst]
    | filled items =>
        have read := items.takeNested reads []
        cases following with
        | nil => cases read
        | cons lexeme rest =>
            have unclosed : lexeme.token ≠ bracket.closing := by
              intro closes
              simp [Json.takeNested, closes, Advance.step_awaited_closing] at read
            rw [takeNested_awaitedFirst, if_neg unclosed]
            exact read

end

/-! ### The lexemes of a value -/

theorem isNested_list (following : List Lexeme) :
    (Value.mk .openList following).IsNested ↔
      ∃ elements, Contents OpensElement .closeList elements following :=
  isNested_container Bracket.list_reads following

theorem isNested_record (following : List Lexeme) :
    (Value.mk .openRecord following).IsNested ↔
      ∃ members, Contents OpensMember .closeRecord members following :=
  isNested_container Bracket.record_reads following

theorem isNested_alone {token : Token} (alone : Advance.step [] token .value = .finish)
    (following : List Lexeme) : (Value.mk token following).IsNested ↔ following = [] := by
  simp [Value.IsNested, takeFollowing, alone, eq_comm]

theorem not_isNested {token : Token} (refused : Advance.step [] token .value = .refuse)
    (following : List Lexeme) : ¬ (Value.mk token following).IsNested := by
  simp [Value.IsNested, takeFollowing, refused]

/-! ### Reading the parts -/

theorem elementsFrom_taken {value : Value} {separator : Lexeme} {input rest : List Lexeme}
    (taking : takeValue? input = some (value, separator :: rest)) (taken : List Value) :
    elementsFrom taken input =
      match separator.token, rest with
      | .closeList, [] => some (value :: taken).reverse
      | .comma, rest => elementsFrom (value :: taken) rest
      | _, _ => none := by
  rw [elementsFrom]
  split
  case h_1 refused =>
    rw [taking] at refused
    cases refused
  case h_2 ended =>
    rw [taking] at ended
    cases ended
  case h_3 other next remaining read =>
    rw [taking] at read
    obtain ⟨rfl, followed⟩ := Prod.mk.inj (Option.some.inj read)
    obtain ⟨rfl, rfl⟩ := List.cons.inj followed
    obtain ⟨after, token⟩ := separator
    cases token <;> cases rest <;> rfl

theorem membersFrom_taken {value : Value} {separator : Lexeme} {input rest : List Lexeme}
    (taking : takeValue? input = some (value, separator :: rest)) (before between : Bytes)
    (name : List Piece) (taken : List Member) :
    membersFrom taken (⟨before, .string name⟩ :: ⟨between, .colon⟩ :: input) =
      match separator.token, rest with
      | .closeRecord, [] => some ((name, value) :: taken).reverse
      | .comma, rest => membersFrom ((name, value) :: taken) rest
      | _, _ => none := by
  rw [membersFrom]
  split
  case h_1 refused =>
    rw [taking] at refused
    cases refused
  case h_2 ended =>
    rw [taking] at ended
    cases ended
  case h_3 other next remaining read =>
    rw [taking] at read
    obtain ⟨rfl, followed⟩ := Prod.mk.inj (Option.some.inj read)
    obtain ⟨rfl, rfl⟩ := List.cons.inj followed
    obtain ⟨after, token⟩ := separator
    cases token <;> cases rest <;> rfl

theorem elementsFrom_of {elements : List Value} {input : List Lexeme}
    (items : Items OpensElement .closeList elements input) (taken : List Value) :
    elementsFrom taken input = some (taken.reverse ++ elements) := by
  induction items generalizing taken with
  | last opens after =>
      obtain ⟨nested, blank, rfl⟩ := opens
      rw [elementsFrom_taken (takeValue?_lexemes nested blank _)]
      simp
  | more opens after others ih =>
      obtain ⟨nested, blank, rfl⟩ := opens
      rw [elementsFrom_taken (takeValue?_lexemes nested blank _)]
      simp [ih]

theorem membersFrom_of {members : List Member} {input : List Lexeme}
    (items : Items OpensMember .closeRecord members input) (taken : List Member) :
    membersFrom taken input = some (taken.reverse ++ members) := by
  induction items generalizing taken with
  | last opens after =>
      obtain ⟨nested, before, between, blank, rfl⟩ := opens
      rw [List.cons_append, List.cons_append,
        membersFrom_taken (takeValue?_lexemes nested blank _)]
      simp
  | more opens after others ih =>
      obtain ⟨nested, before, between, blank, rfl⟩ := opens
      rw [List.cons_append, List.cons_append,
        membersFrom_taken (takeValue?_lexemes nested blank _)]
      simp [ih]

theorem Items.two_le_length {Part : Type} {bracket : Bracket} {Opens : Part → List Lexeme → Prop}
    (reads : bracket.Reads Opens) {closing : Token} {parts : List Part} {input : List Lexeme}
    (items : Items Opens closing parts input) : 2 ≤ input.length := by
  have counted : ∀ {part lexemes}, Opens part lexemes → ∀ (next : Lexeme) (rest : List Lexeme),
      2 ≤ (lexemes ++ next :: rest).length := by
    intro part lexemes opens next rest
    have positive := List.length_pos_iff.mpr (reads.nonempty opens)
    simp only [List.length_append, List.length_cons]
    omega
  cases items with
  | last opens after => exact counted opens _ _
  | more opens after others => exact counted opens _ _

theorem Value.elements?_of {elements : List Value} {following : List Lexeme}
    (contents : Contents OpensElement .closeList elements following) :
    (Value.mk .openList following).elements? = some elements := by
  cases contents with
  | empty blank => rfl
  | filled items =>
      simp only [Value.elements?, if_true]
      split
      case h_1 => exact absurd (items.two_le_length Bracket.list_reads) (by simp)
      case h_2 => simpa using elementsFrom_of items []

theorem Value.members?_of {members : List Member} {following : List Lexeme}
    (contents : Contents OpensMember .closeRecord members following) :
    (Value.mk .openRecord following).members? = some members := by
  cases contents with
  | empty blank => rfl
  | filled items =>
      simp only [Value.members?, if_true]
      split
      case h_1 => exact absurd (items.two_le_length Bracket.record_reads) (by simp)
      case h_2 => simpa using membersFrom_of items []

/-- Each part of a container stands in its lexemes as a whole, and something follows it. -/
theorem Contents.exists_infix {Part : Type} {Opens : Part → List Lexeme → Prop} {closing : Token}
    {parts : List Part} {input : List Lexeme} (contents : Contents Opens closing parts input)
    {part : Part} (member : part ∈ parts) :
    ∃ front lexemes back, Opens part lexemes ∧ input = front ++ lexemes ++ back ∧ back ≠ [] := by
  cases contents with
  | empty blank => cases member
  | filled items =>
      induction items with
      | @last only lexemes opens after =>
          obtain rfl := List.mem_singleton.mp member
          exact ⟨[], lexemes, [⟨after, closing⟩], opens, by simp, by simp⟩
      | @more first lexemes others rest opens after _ ih =>
          rcases List.mem_cons.mp member with rfl | later
          · exact ⟨[], lexemes, ⟨after, .comma⟩ :: rest, opens, by simp, by simp⟩
          · obtain ⟨front, own, back, ownOpens, rfl, present⟩ := ih later
            exact ⟨lexemes ++ ⟨after, .comma⟩ :: front, own, back, ownOpens, by simp, present⟩

end ScriptedResponder.Json
