import Mathlib.Data.List.Forall2
import ScriptedResponder.Proofs.Json.Denotation
import ScriptedResponder.Proofs.Json.Reading

/-!
Structures as texts. A record names its fields in any order among other members, a list gives them
by position; reading the fields of a value gives what its text says under each known name. The value
of one field can be exchanged for another, and no other field changes.
-/

set_option autoImplicit false

namespace ScriptedResponder.Json

/-! ### Structures -/

def IsField (field : String × Bytes) (text : Bytes) : Prop :=
  ∃ pieces, Denotes pieces field.1.toList ∧ IsMember (pieces, field.2) text

/-- A spelling of some fields: a record, in which none of the known names occurs twice and members
of other names may stand anywhere, or a list of the first fields in the order of their names. -/
inductive IsStructure (names : List String) (required : Nat) : List (String × Bytes) → Bytes → Prop
  | record {fields : List (String × Bytes)} {text : Bytes}
      (enclosed : Enclosed IsField '\x7b' '\x7d' fields text)
      (values : ∀ field ∈ fields, IsValue field.2)
      (once : ∀ name ∈ names, (fields.map Prod.fst).count name ≤ 1) :
      IsStructure names required fields text
  | list {elements : List Bytes} {text : Bytes} (enclosed : IsList elements text)
      (values : ∀ element ∈ elements, IsValue element) (enough : required ≤ elements.length)
      (known : elements.length ≤ names.length) :
      IsStructure names required (names.zip elements) text

/-! ### Parts told by others -/

section

variable {Part Other : Type} {Related : Other → Part → Prop} {Spelled : Part → Bytes → Prop}
  {OtherSpelled : Other → Bytes → Prop}

theorem forall_of_forall₂ {Own : Other → Prop} {Own' : Part → Prop} {others : List Other}
    {parts : List Part} (related : List.Forall₂ Related others parts)
    (each : ∀ other part, Related other part → Own other → Own' part)
    (all : ∀ other ∈ others, Own other) : ∀ part ∈ parts, Own' part := by
  induction related with
  | nil => simp
  | cons first _ ih =>
      obtain ⟨own, rest⟩ := List.forall_mem_cons.mp all
      exact List.forall_mem_cons.mpr ⟨each _ _ first own, ih rest⟩

theorem Separated.related_iff
    (each : ∀ part text, Spelled part text ↔ ∃ other, Related other part ∧ OtherSpelled other text)
    {parts : List Part} {text : Bytes} :
    Separated Spelled parts text ↔
      ∃ others, List.Forall₂ Related others parts ∧ Separated OtherSpelled others text := by
  constructor
  · intro separated
    induction separated with
    | last spelled =>
        obtain ⟨other, related, otherSpelled⟩ := (each _ _).mp spelled
        exact ⟨[other], .cons related .nil, .last otherSpelled⟩
    | more spelled _ ih =>
        obtain ⟨other, related, otherSpelled⟩ := (each _ _).mp spelled
        obtain ⟨others, allRelated, separated⟩ := ih
        exact ⟨other :: others, .cons related allRelated, .more otherSpelled separated⟩
  · rintro ⟨others, related, separated⟩
    induction separated generalizing parts with
    | last otherSpelled =>
        cases related with
        | cons first rest =>
            cases rest
            exact .last ((each _ _).mpr ⟨_, first, otherSpelled⟩)
    | more otherSpelled _ ih =>
        cases related with
        | cons first rest => exact .more ((each _ _).mpr ⟨_, first, otherSpelled⟩) (ih rest)

theorem Enclosed.related_iff {opening closing : Char}
    (each : ∀ part text, Spelled part text ↔ ∃ other, Related other part ∧ OtherSpelled other text)
    {parts : List Part} {text : Bytes} :
    Enclosed Spelled opening closing parts text ↔
      ∃ others, List.Forall₂ Related others parts ∧
        Enclosed OtherSpelled opening closing others text := by
  constructor
  · intro enclosed
    cases enclosed with
    | empty blanks => exact ⟨[], .nil, .empty blanks⟩
    | filled separated =>
        obtain ⟨others, related, separated⟩ := (Separated.related_iff each).mp separated
        exact ⟨others, related, .filled separated⟩
  · rintro ⟨others, related, enclosed⟩
    cases enclosed with
    | empty blanks =>
        cases related
        exact .empty blanks
    | filled separated => exact .filled ((Separated.related_iff each).mpr ⟨_, related, separated⟩)

end

/-! ### Values and their texts -/

def Value.StandsFor (value : Value) (text : Bytes) : Prop := value.IsSound ∧ value.text = text

theorem Value.string?_eq_some_iff {value : Value} (sound : value.IsSound) {text : String} :
    value.string? = some text ↔ IsString text value.text := by
  constructor
  · intro read
    unfold Value.string? at read
    split at read
    case h_2 => cases read
    case h_1 pieces quoted =>
      obtain ⟨legal, same⟩ := (sound.first_iff rfl).mp quoted
      exact ⟨pieces, legal, same, (decodedText?_eq_some_iff legal).mp read⟩
  · rintro ⟨pieces, legal, same, denotes⟩
    have quoted : value.first = .string pieces := (sound.first_iff rfl).mpr ⟨legal, same⟩
    simp only [Value.string?, quoted]
    exact (decodedText?_eq_some_iff legal).mpr denotes

theorem Value.first_eq_null_iff {value : Value} (sound : value.IsSound) :
    value.first = .null ↔ value.text = Token.null.text := by
  rw [sound.first_iff rfl]
  exact ⟨And.right, And.intro trivial⟩

theorem Value.verbatim?_eq_some_iff {value : Value} {bytes : Bytes} :
    value.verbatim? = some bytes ↔ (Bytes.text? value.text).isSome = true ∧ value.text = bytes := by
  rw [Value.verbatim?, Option.map_eq_some_iff, Option.isSome_iff_exists, exists_and_right]

/-! ### Looking up a field -/

theorem lookup_standsFor {found : Fields} (sound : ∀ field ∈ found, field.2.IsSound)
    (name : String) :
    Option.Rel Value.StandsFor (found.lookup name)
      ((found.map (Prod.map id Value.text)).lookup name) := by
  induction found with
  | nil => exact .none
  | cons field found ih =>
      obtain ⟨own, others⟩ := List.forall_mem_cons.mp sound
      obtain ⟨known, value⟩ := field
      simp only [List.map_cons, Prod.map_apply, id_eq, List.lookup_cons]
      cases name == known with
      | true => exact .some ⟨own, rfl⟩
      | false => exact ih others

theorem lookup_filter_contains {names : List String} {name : String} (member : name ∈ names)
    (found : Fields) :
    (found.filter fun field => names.contains field.1).lookup name = found.lookup name := by
  induction found with
  | nil => rfl
  | cons field found ih =>
      obtain ⟨known, value⟩ := field
      by_cases same : name = known
      · subst same
        simp [member]
      · have apart : (name == known) = false := beq_false_of_ne same
        by_cases kept : known ∈ names <;> simpa [kept, List.lookup_cons, apart] using ih

/-! ### Collecting the fields of a record -/

/-- A member and the field that it gives. -/
def Member.Gives (member : Member) (field : String × Value) : Prop :=
  decodedText? member.1 = some field.1 ∧ member.2 = field.2

theorem exists_gives_cons {pieces : List Piece} {value : Value} {members : List Member}
    {Holds : Fields → Prop} :
    (∃ named, List.Forall₂ Member.Gives ((pieces, value) :: members) named ∧ Holds named) ↔
      ∃ name, decodedText? pieces = some name ∧
        ∃ others, List.Forall₂ Member.Gives members others ∧ Holds ((name, value) :: others) := by
  constructor
  · rintro ⟨named, gives, holds⟩
    cases gives with
    | @cons _ field _ others first rest =>
        obtain ⟨name, _⟩ := field
        obtain ⟨denoted, rfl⟩ := first
        exact ⟨name, denoted, others, rest, holds⟩
  · rintro ⟨name, denoted, others, rest, holds⟩
    exact ⟨_, .cons ⟨denoted, rfl⟩ rest, holds⟩

theorem any_name_iff {found : Fields} {name : String} :
    (found.any fun field => field.1 = name) = true ↔ 0 < (found.map Prod.fst).count name := by
  simp [List.any_eq_true, List.count_pos_iff]

theorem collectFields_eq_some_iff {names : List String} {found fields : Fields}
    {members : List Member} (once : ∀ name ∈ names, (found.map Prod.fst).count name ≤ 1) :
    collectFields names found members = some fields ↔
      ∃ named : Fields, List.Forall₂ Member.Gives members named ∧
        fields = found ++ named.filter (fun field => names.contains field.1) ∧
        ∀ name ∈ names, ((found ++ named).map Prod.fst).count name ≤ 1 := by
  -- Fields found so far count against those to come, so the bound is on both together; a member of
  -- an unknown name changes neither side.
  induction members generalizing found with
  | nil =>
      simp only [collectFields, Option.some.injEq, List.forall₂_nil_left_iff, exists_eq_left,
        List.filter_nil, List.append_nil]
      exact ⟨fun same => ⟨same.symm, once⟩, fun both => both.1.symm⟩
  | cons member members ih =>
      obtain ⟨pieces, value⟩ := member
      rw [exists_gives_cons, collectFields]
      cases decodedText? pieces with
      | none => simp
      | some name =>
          simp only [Option.some.injEq, exists_eq_left', List.contains_iff_mem]
          by_cases known : name ∈ names
          · by_cases repeated : (found.any fun field => field.1 = name) = true
            · have twice := any_name_iff.mp repeated
              simp only [known, repeated, if_true, reduceCtorEq, false_iff]
              rintro ⟨others, _, _, atMost⟩
              have more := atMost name known
              simp only [List.map_append, List.map_cons, List.count_append, List.count_cons_self]
                at more
              omega
            · have fresh : (found.map Prod.fst).count name = 0 :=
                Nat.eq_zero_of_not_pos (mt any_name_iff.mpr repeated)
              rw [if_pos known, if_neg repeated, ih]
              · simp [known]
              · intro other otherKnown
                have before := once other otherKnown
                by_cases same : name = other
                · subst same
                  simp [fresh]
                · simpa [List.count_cons, same] using before
          · rw [if_neg known, ih once]
            have kept : ∀ other ∈ names, ∀ others : List String,
                (name :: others).count other = others.count other := by
              intro other otherKnown others
              have apart : name ≠ other := fun same => known (same ▸ otherKnown)
              exact List.count_cons_of_ne apart
            simp +contextual [known, kept]

/-! ### Fields of a value -/

def Names (member : List Piece × Bytes) (field : String × Bytes) : Prop :=
  Denotes member.1 field.1.toList ∧ member.2 = field.2

theorem fields_iff_record {fields : List (String × Bytes)} {text : Bytes} :
    Enclosed IsField '\x7b' '\x7d' fields text ↔
      ∃ members, List.Forall₂ Names members fields ∧ IsRecord members text := by
  apply Enclosed.related_iff
  rintro ⟨name, value⟩ text
  constructor
  · rintro ⟨pieces, denotes, spelled⟩
    exact ⟨(pieces, value), ⟨denotes, rfl⟩, spelled⟩
  · rintro ⟨⟨pieces, _⟩, ⟨denotes, rfl⟩, spelled⟩
    exact ⟨pieces, denotes, spelled⟩

theorem names_iff_gives {members : List Member} (sound : ∀ member ∈ members, Member.IsSound member)
    {fields : List (String × Bytes)} :
    List.Forall₂ Names (members.map Member.spelled) fields ↔
      ∃ named : Fields, List.Forall₂ Member.Gives members named ∧
        named.map (Prod.map id Value.text) = fields := by
  induction members generalizing fields with
  | nil => simp [eq_comm]
  | cons member members ih =>
      obtain ⟨pieces, value⟩ := member
      obtain ⟨own, others⟩ := List.forall_mem_cons.mp sound
      rw [exists_gives_cons, List.map_cons, List.forall₂_cons_left_iff]
      simp only [ih others]
      constructor
      · rintro ⟨⟨name, _⟩, _, ⟨denotes, rfl⟩, ⟨named, gives, rfl⟩, rfl⟩
        exact ⟨name, (decodedText?_eq_some_iff own.1).mpr denotes, named, gives, rfl⟩
      · rintro ⟨name, denoted, named, gives, rfl⟩
        refine ⟨(name, value.text), _, ⟨?_, rfl⟩, ⟨named, gives, rfl⟩, rfl⟩
        exact (decodedText?_eq_some_iff own.1).mp denoted

theorem names_spelled (named : Fields) :
    (named.map (Prod.map id Value.text)).map Prod.fst = named.map Prod.fst := by
  rw [List.map_map]
  rfl

theorem sound_of_gives {members : List Member} {named : Fields}
    (gives : List.Forall₂ Member.Gives members named)
    (sound : ∀ member ∈ members, Member.IsSound member) : ∀ field ∈ named, field.2.IsSound :=
  forall_of_forall₂ gives (fun _ _ given own => given.2 ▸ own.2) sound

/-- What the fields found say under the known names is what a spelling of the structure says. -/
def Fields.StandFor (names : List String) (found : Fields) (fields : List (String × Bytes)) :
    Prop :=
  ∀ name ∈ names, Option.Rel Value.StandsFor (found.lookup name) (fields.lookup name)

theorem standFor_of_gives {names : List String} {members : List Member} {named : Fields}
    (gives : List.Forall₂ Member.Gives members named)
    (sound : ∀ member ∈ members, Member.IsSound member) :
    Fields.StandFor names (named.filter fun field => names.contains field.1)
      (named.map (Prod.map id Value.text)) := by
  intro name known
  rw [lookup_filter_contains known]
  exact lookup_standsFor (sound_of_gives gives sound) name

theorem standFor_zip {names : List String} {elements : List Value}
    (sound : ∀ element ∈ elements, element.IsSound) :
    Fields.StandFor names (names.zip elements) (names.zip (elements.map Value.text)) := by
  intro name _
  rw [List.zip_map_right]
  exact lookup_standsFor (fun field member => sound field.2 (List.of_mem_zip member).2) name

theorem IsStructure.isValue {names : List String} {required : Nat} {fields : List (String × Bytes)}
    {text : Bytes} (spelled : IsStructure names required fields text) : IsValue text := by
  cases spelled with
  | record enclosed values _ =>
      obtain ⟨members, named, record⟩ := fields_iff_record.mp enclosed
      exact .record record
        (forall_of_forall₂ named.flip (fun _ _ given own => given.2 ▸ own) values)
  | list enclosed values _ _ => exact .list enclosed values

theorem Value.fields?_sound {value : Value} (sound : value.IsSound) {names : List String}
    {required : Nat} {found : Fields} (read : value.fields? names required = some found) :
    ∃ fields, IsStructure names required fields value.text ∧
      Fields.StandFor names found fields := by
  unfold Value.fields? at read
  split at read
  case h_1 =>
    obtain ⟨members, split, collected⟩ := Option.bind_eq_some_iff.mp read
    obtain ⟨memberSound, enclosed⟩ := (Value.members?_eq_some_iff sound).mp split
    obtain ⟨named, gives, rfl, once⟩ := (collectFields_eq_some_iff (by simp)).mp collected
    refine ⟨named.map (Prod.map id Value.text), .record ?_ ?_ ?_, standFor_of_gives gives memberSound⟩
    · exact fields_iff_record.mpr
        ⟨_, (names_iff_gives memberSound).mpr ⟨named, gives, rfl⟩, enclosed⟩
    · intro field member
      obtain ⟨field, within, rfl⟩ := List.mem_map.mp member
      exact (sound_of_gives gives memberSound field within).isValue
    · rw [names_spelled]
      exact once
  case h_2 =>
    split at read
    case h_1 => cases read
    case h_2 elements split =>
      obtain ⟨elementSound, enclosed⟩ := (Value.elements?_eq_some_iff sound).mp split
      obtain ⟨⟨enough, fits⟩, same⟩ := Option.ite_none_right_eq_some.mp read
      obtain rfl := Option.some.inj same
      refine ⟨_, .list enclosed ?_ (by simpa using enough) (by simpa using fits),
        standFor_zip elementSound⟩
      intro text member
      obtain ⟨element, within, rfl⟩ := List.mem_map.mp member
      exact (elementSound element within).isValue
  case h_3 => cases read

theorem Value.fields?_complete {value : Value} (sound : value.IsSound) {names : List String}
    {required : Nat} {fields : List (String × Bytes)}
    (spelled : IsStructure names required fields value.text) :
    ∃ found, value.fields? names required = some found ∧ Fields.StandFor names found fields := by
  cases spelled with
  | record enclosed values once =>
      obtain ⟨spellings, named, record⟩ := fields_iff_record.mp enclosed
      have spellingValues : ∀ spelling ∈ spellings, IsValue spelling.2 :=
        forall_of_forall₂ named.flip (fun _ _ given own => given.2 ▸ own) values
      obtain ⟨members, memberSound, rfl⟩ := exists_members_of_isRecord record
        fun spelling member => exists_value_of_isValue (spellingValues spelling member)
      have split := (Value.members?_eq_some_iff sound).mpr ⟨memberSound, record⟩
      obtain ⟨given, gives, rfl⟩ := (names_iff_gives memberSound).mp named
      refine ⟨_, ?_, standFor_of_gives gives memberSound⟩
      have opens := Value.first_of_members? split
      simp only [Value.fields?, opens, split, Option.bind_some]
      refine (collectFields_eq_some_iff (by simp)).mpr ⟨given, gives, rfl, ?_⟩
      rw [names_spelled] at once
      exact once
  | @list elements _ enclosed values enough known =>
      obtain ⟨elements, elementSound, rfl⟩ :=
        exists_map_eq fun text member => exists_value_of_isValue (values text member)
      have split := (Value.elements?_eq_some_iff sound).mpr ⟨elementSound, enclosed⟩
      have opens := Value.first_of_elements? split
      rw [List.length_map] at enough known
      refine ⟨names.zip elements, ?_, standFor_zip elementSound⟩
      simp only [Value.fields?, opens, split, enough, known, and_self, if_true]

/-! ### Exchanging the value of a field -/

theorem IsElement.exchange {element text : Bytes} (spelled : IsElement element text) :
    ∃ front back, text = front ++ element ++ back ∧
      ∀ other, IsElement other (front ++ other ++ back) := by
  obtain ⟨before, after, beforeBlanks, afterBlanks, rfl⟩ := spelled
  exact ⟨before, after, rfl, fun other => ⟨before, after, beforeBlanks, afterBlanks, rfl⟩⟩

theorem IsField.exchange {name : String} {value text : Bytes} (spelled : IsField (name, value) text) :
    ∃ front back, text = front ++ value ++ back ∧
      ∀ other, IsField (name, other) (front ++ other ++ back) := by
  obtain ⟨pieces, denotes, before, between, whole, beforeBlanks, legal, betweenBlanks, element,
    rfl⟩ := spelled
  obtain ⟨front, back, rfl, exchanged⟩ := element.exchange
  refine ⟨before ++ literal pieces ++ between ++ Bytes.ofAscii ':' :: front, back, by simp, ?_⟩
  intro other
  exact ⟨pieces, denotes, before, between, _, beforeBlanks, legal, betweenBlanks, exchanged other,
    by simp⟩

theorem lookup_exchanged {earlier later : List (String × Bytes)} {name : String} {value : Bytes}
    (absent : ∀ field ∈ earlier, (name != field.1) = true) (other : Bytes) :
    (earlier ++ (name, other) :: later).lookup name = some other ∧
      ∀ unrelated ≠ name, (earlier ++ (name, other) :: later).lookup unrelated =
        (earlier ++ (name, value) :: later).lookup unrelated := by
  constructor
  · exact List.lookup_eq_some_iff.mpr ⟨earlier, later, rfl, absent⟩
  · intro unrelated apart
    simp [List.lookup_append, List.lookup_cons, beq_false_of_ne apart]

theorem forall_exchanged {Item : Type} {Holds : Item → Prop} {earlier later : List Item}
    {item other : Item} (all : ∀ each ∈ earlier ++ item :: later, Holds each)
    (own : Holds other) : ∀ each ∈ earlier ++ other :: later, Holds each := by
  obtain ⟨first, others⟩ := List.forall_mem_append.mp all
  obtain ⟨_, last⟩ := List.forall_mem_cons.mp others
  exact List.forall_mem_append.mpr ⟨first, List.forall_mem_cons.mpr ⟨own, last⟩⟩

theorem IsStructure.exchange {names : List String} {required : Nat}
    {fields : List (String × Bytes)} {text : Bytes} (spelled : IsStructure names required fields text)
    {name : String} {value : Bytes} (given : fields.lookup name = some value) :
    ∃ front back, front ≠ [] ∧ text = front ++ value ++ back ∧ IsValue value ∧
      ∀ other, IsValue other → ∃ others, IsStructure names required others (front ++ other ++ back) ∧
        others.lookup name = some other ∧
        ∀ unrelated ≠ name, others.lookup unrelated = fields.lookup unrelated := by
  obtain ⟨earlier, later, same, absent⟩ := List.lookup_eq_some_iff.mp given
  cases spelled with
  | record enclosed values once =>
      subst same
      obtain ⟨front, own, back, present, rfl, itself, exchanged⟩ := enclosed.exchange
      obtain ⟨before, after, rfl, otherField⟩ := itself.exchange
      refine ⟨front ++ before, after ++ back, by simp [present], by simp,
        values (name, value) (by simp), ?_⟩
      intro other otherValue
      refine ⟨_, .record ?_ ?_ ?_, lookup_exchanged absent other⟩
      · simpa using exchanged (name, other) _ (otherField other)
      · exact forall_exchanged values otherValue
      · simpa using once
  | @list elements _ enclosed values enough known =>
      obtain ⟨firstNames, restNames, firstElements, restElements, aligned, rfl, rfl, rfl, rest⟩ :=
        List.zip_eq_append_iff.mp same
      obtain ⟨lastNames, lastElements, rfl, rfl, rfl⟩ := List.zip_eq_cons_iff.mp rest.symm
      obtain ⟨front, own, back, present, rfl, itself, exchanged⟩ := enclosed.exchange
      obtain ⟨before, after, rfl, otherElement⟩ := itself.exchange
      refine ⟨front ++ before, after ++ back, by simp [present], by simp,
        values value (by simp), ?_⟩
      intro other otherValue
      have zipped : ∀ element : Bytes, (firstNames ++ name :: lastNames).zip
          (firstElements ++ element :: lastElements) = firstNames.zip firstElements ++
            (name, element) :: lastNames.zip lastElements :=
        fun element => by rw [List.zip_append aligned, List.zip_cons_cons]
      refine ⟨(firstNames ++ name :: lastNames).zip (firstElements ++ other :: lastElements),
        .list ?_ ?_ (by simpa using enough) (by simpa using known), ?_⟩
      · have moved : IsList _ _ := exchanged other _ (otherElement other)
        simpa using moved
      · exact forall_exchanged values otherValue
      · rw [zipped, zipped]
        exact lookup_exchanged absent other

end ScriptedResponder.Json
