import DocComments.Proofs.Parameter.TypePrefix

/-!
# Tags as they are written

A tag of a parameter is written from a type, if there is one, a name by itself or in a bracket,
perhaps with a default, and a description. It is read as all of that. A tag whose first brace or
bracket is never closed is read as a description and nothing else. Types with braces of their own
and defaults that leave the bracket open are not treated here.
-/

namespace DocComments
open Text (trim trimStart trimEnd collapseBlanks isBlankText)
open Unicode (isBlank)

theorem TypeName.ofText?_trim {type : List Char} (h : isBlankText type = false) :
    TypeName.ofText? (trim type) = some (String.ofList (TypeName.normal (trim type))) := by
  rw [ofText?, Text.trim_trim, if_neg (Text.trim_ne_nil h)]

theorem Literal.ofDefault?_trim (s : List Char) :
    Literal.ofDefault? (trim s) = Literal.ofDefault? s := by
  rw [ofDefault?, ofDefault?, Text.trim_trim]

namespace Tag

/-- Whether a character has no meaning of its own in front of the default in a bracket. -/
def isNameChar (c : Char) : Bool :=
  !"\x22\x27[\x7b]\x7d=".toList.contains c

/-- A tag in which the brace or the bracket that it starts with is not closed. -/
def IsUnclosed (s : List Char) : Prop :=
  s.head? = some '\x7b' ∧ '\x7d' ∉ s ∨ s.head? = some '[' ∧ ']' ∉ s

end Tag

/-- The name of a parameter as it is written: by itself, or in a bracket with a default or without
one. -/
inductive NameText
  | plain (name : List Char)
  | bracketed (name : List Char) (default? : Option (List Char))

namespace NameText

/-- What stands between the brackets. -/
def inBracket (name : List Char) : Option (List Char) → List Char
  | none => name
  | some value => name ++ '=' :: value

/-- The name with its bracket and its default. -/
def text : NameText → List Char
  | plain name => name
  | bracketed name default? => '[' :: (inBracket name default? ++ [']'])

/-- The name that is meant. -/
def name : NameText → List Char
  | plain name => name
  | bracketed name _ => trim name

/-- The text of the default. -/
def default? : NameText → Option (List Char)
  | plain _ => none
  | bracketed _ default? => default?

/-- Whether the name is in a bracket. -/
def isBracketed : NameText → Bool
  | plain _ => false
  | bracketed _ _ => true

/-- A name by itself has no blanks and opens no bracket, and no brace either where a type could
stand. In a bracket, the name has no marks and the default closes what it opens. -/
def IsReadable (afterType : Bool) : NameText → Prop
  | plain name =>
    name ≠ [] ∧ (∀ c ∈ name, isBlank c = false) ∧ name.head? ≠ some '[' ∧
      (afterType = false → name.head? ≠ some '\x7b')
  | bracketed name default? =>
    (∀ c ∈ name, Tag.isNameChar c = true) ∧ ∀ value ∈ default?, Tag.IsPassed value

end NameText

/-- A parameter as it is written in a tag: a type without a closing brace that is not blank, if
there is one, a name, and a description that starts with a blank unless it is empty. -/
structure FieldText where
  type? : Option (List Char)
  name : NameText
  description : List Char
  type_notBlank : ∀ type ∈ type?, isBlankText type = false
  type_closed : ∀ type ∈ type?, '\x7d' ∉ type
  name_isReadable : name.IsReadable type?.isSome
  description_apart : ∀ c, description.head? = some c → isBlank c = true

namespace FieldText

/-- The type in its braces in front of the rest of a tag. -/
def behindType : Option (List Char) → List Char → List Char
  | none, s => s
  | some type, s => '\x7b' :: (type ++ '\x7d' :: ' ' :: s)

/-- The tag as it is written. -/
def text (x : FieldText) : List Char :=
  behindType x.type? (x.name.text ++ x.description)

/-- The field that is meant: a name in a bracket and a question mark in front of the type make it
optional. -/
def field (x : FieldText) : Field where
  name := String.ofList x.name.name
  declaredType := x.type?.map fun type => String.ofList (TypeName.normal (trim type))
  description := String.ofList (collapseBlanks x.description)
  required := !x.name.isBracketed && !x.type?.any fun type => (trim type).head? = some '?'
  defaultValue := x.name.default?.bind Literal.ofDefault?

end FieldText

namespace Tag

/-- The text in front of the default is the name. -/
theorem nameAndDefault_inBracket {name : List Char} (h : ∀ c ∈ name, isNameChar c = true)
    (default? : Option (List Char)) :
    nameAndDefault (NameText.inBracket name default?) = (trim name, default?.map trim) := by
  have hname : '=' ∉ name := fun hmem => absurd (h '=' hmem) (by decide)
  cases default? with
  | none => exact nameAndDefault_of_not_mem hname
  | some value => exact nameAndDefault_append hname value

theorem isPassed_inBracket {name : List Char} {default? : Option (List Char)}
    (hname : ∀ c ∈ name, isNameChar c = true) (hdefault : ∀ value ∈ default?, IsPassed value) :
    IsPassed (NameText.inBracket name default?) := by
  have hpassed : IsPassed name := isPassed_of_forall (by decide) hname
  cases default? with
  | none => exact hpassed
  | some value =>
    have hequals : IsPassed ['='] := rfl
    exact hpassed.append (hequals.append (hdefault value rfl))

end Tag

namespace NameText.IsReadable
variable {x : NameText} {afterType : Bool} (h : x.IsReadable afterType)
include h

theorem exists_text_eq_cons : ∃ c s, x.text = c :: s ∧ isBlank c = false := by
  cases x with
  | plain name =>
    obtain ⟨c, s, rfl⟩ := List.exists_cons_of_ne_nil h.1
    exact ⟨c, s, rfl, h.2.1 c List.mem_cons_self⟩
  | bracketed name default? => exact ⟨'[', _, rfl, rfl⟩

theorem exists_text_eq_append : ∃ s c, x.text = s ++ [c] ∧ isBlank c = false := by
  cases x with
  | plain name =>
    obtain ⟨s, c, hname⟩ := (List.eq_nil_or_concat name).resolve_left h.1
    rw [List.concat_eq_append] at hname
    exact ⟨s, c, hname, h.2.1 c (by rw [hname]; exact List.mem_concat_self)⟩
  | bracketed name default? => exact ⟨'[' :: inBracket name default?, ']', rfl, rfl⟩

/-- Where no type stands in front, the name does not look like one. -/
theorem head?_text_append (htype : afterType = false) (e : List Char) :
    (x.text ++ e).head? ≠ some '\x7b' := by
  cases x with
  | plain name =>
    rw [text, List.head?_append_of_ne_nil _ h.1]
    exact h.2.2.2 htype
  | bracketed name default? =>
    intro heq
    cases heq

/-- Behind the type, the name is read as it is written. -/
theorem afterType?_text {e : List Char} (he : ∀ c, e.head? = some c → isBlank c = true)
    (type? : Option (List Char)) :
    Field.afterType? type? (x.text ++ e) =
      some
        { name := String.ofList x.name
          declaredType := type?.bind TypeName.ofText?
          description := String.ofList (collapseBlanks e)
          required := !x.isBracketed && !type?.any fun type => type.head? = some '?'
          defaultValue := x.default?.bind Literal.ofDefault? } := by
  cases x with
  | plain name => exact Field.afterType?_solid h.2.1 h.2.2.1 he
  | bracketed name default? =>
    obtain ⟨hname, hdefault⟩ := h
    have hvalue : (default?.map trim).bind Literal.ofDefault? = default?.bind Literal.ofDefault? := by
      cases default? with
      | none => rfl
      | some value => exact Literal.ofDefault?_trim value
    have hread := @Field.afterType?_bracket type? _ (Tag.isPassed_inBracket hname hdefault) e
    rw [Tag.nameAndDefault_inBracket hname, hvalue] at hread
    rw [text, List.cons_append, List.append_assoc, List.singleton_append, hread]
    rfl

end NameText.IsReadable

namespace FieldText
variable (x : FieldText)

/-- Only at the end of the description is anything trimmed. -/
theorem trim_text :
    trim x.text = behindType x.type? (x.name.text ++ trimEnd x.description) := by
  obtain ⟨c, s, hstart, hc⟩ := x.name_isReadable.exists_text_eq_cons
  obtain ⟨t, d, hend, hd⟩ := x.name_isReadable.exists_text_eq_append
  unfold text
  cases x.type? with
  | none =>
    have htrim := Text.trim_append hc hd (hstart.symm.trans hend) x.description
    rwa [← hstart] at htrim
  | some type =>
    have htrim := Text.trim_append (c := '\x7b') (s := type ++ '\x7d' :: ' ' :: x.name.text)
      (t := '\x7b' :: (type ++ '\x7d' :: ' ' :: t)) rfl hd (by simp [hend]) x.description
    simpa [behindType] using htrim

theorem ofTrimmed?_text (e : List Char) :
    Field.ofTrimmed? (behindType x.type? (x.name.text ++ e)) =
      Field.afterType? (x.type?.map trim) (x.name.text ++ e) := by
  cases htype : x.type? with
  | none =>
    have hread := x.name_isReadable.head?_text_append (by rw [htype]; rfl) e
    rw [behindType, Field.ofTrimmed?, if_neg hread]
    rfl
  | some type =>
    obtain ⟨c, s, hstart, hc⟩ := x.name_isReadable.exists_text_eq_cons
    have hbraced := Tag.braced?_append (x.type_closed type htype) (' ' :: (x.name.text ++ e))
    have hspace : trimStart (' ' :: (x.name.text ++ e)) = x.name.text ++ e := by
      rw [hstart, ← List.singleton_append, Text.trimStart_append_of_blank rfl, List.cons_append,
        Text.trimStart_cons_of_not_blank hc]
    rw [behindType, Field.ofTrimmed?, if_pos List.head?_cons, hbraced]
    simp only [hspace, Option.map_some]

/-- A tag is read as it is written. -/
theorem ofTag_text : Field.ofTag x.text = x.field := by
  have hapart : ∀ c, (trimEnd x.description).head? = some c → isBlank c = true := fun c hc =>
    x.description_apart c (Text.head?_trimEnd hc)
  have hdeclared : (x.type?.map trim).bind TypeName.ofText? =
      x.type?.map fun type => String.ofList (TypeName.normal (trim type)) := by
    cases htype : x.type? with
    | none => rfl
    | some type => exact TypeName.ofText?_trim (x.type_notBlank type htype)
  rw [Field.ofTag, x.trim_text, x.ofTrimmed?_text,
    x.name_isReadable.afterType?_text hapart]
  simp only [hdeclared, Text.collapseBlanks_trimEnd, Option.any_map]
  rfl

end FieldText

theorem Tag.braced?_eq_none {s : List Char} (h : '\x7d' ∉ s) : braced? s = none := by
  unfold braced?
  split
  · rename_i t
    have hall : ∀ c ∈ t, decide (c ≠ '\x7d') = true := fun c hc =>
      decide_eq_true fun heq => h (heq ▸ List.mem_cons_of_mem _ hc)
    rw [List.dropWhile_eq_nil_iff.mpr hall]
  · rfl

theorem Tag.closeBracket_eq_none {s : List Char} (h : ']' ∉ s) : closeBracket 0 none s = none := by
  cases hread : closeBracket 0 none s with
  | none => rfl
  | some x =>
    obtain ⟨rfl, -⟩ := closeBracket_eq_some_iff.mp (hread : _ = some (x.1, x.2))
    exact absurd (List.mem_append_right _ List.mem_cons_self) h

/-- All of a tag that starts with a brace or bracket without end is its description. -/
theorem Field.ofTag_of_isUnclosed {s : List Char} (h : Tag.IsUnclosed (trim s)) :
    ofTag s = { name := "", description := String.ofList (collapseBlanks s) } := by
  have hread : ofTrimmed? (trim s) = none := by
    rcases h with ⟨hstart, hend⟩ | ⟨hstart, hend⟩
    · rw [ofTrimmed?, if_pos hstart, Tag.braced?_eq_none hend]
    · obtain ⟨t, ht⟩ := List.head?_eq_some_iff.mp hstart
      rw [ht] at hend ⊢
      rw [ofTrimmed?, if_neg (by simp), afterType?,
        Tag.closeBracket_eq_none fun hmem => hend (List.mem_cons_of_mem _ hmem)]
      rfl
  rw [ofTag, hread]

/-- A tag that is written from a type, a name and a description is read as these, and a tag whose
first brace or bracket is never closed is read as a description that loses nothing of it. -/
theorem FieldText.ofTag_written :
    (∀ x : FieldText, Field.ofTag x.text = x.field) ∧
      ∀ s, Tag.IsUnclosed (trim s) →
        Field.ofTag s = { name := "", description := String.ofList (collapseBlanks s) } :=
  ⟨ofTag_text, fun _ => Field.ofTag_of_isUnclosed⟩

/-- A name in a bracket with a bracket in its default, behind a type that is a union; and a type
without end. -/
theorem FieldText.ofTag_written_default :
    ∃ x : FieldText,
      x.text = "\x7b ?int|void \x7d [ max = [1, \x22]\x22]] The\n  limit".toList ∧
        Field.ofTag x.text =
          { name := "max"
            declaredType := some "Number|undefined"
            description := "The limit"
            required := false
            defaultValue := Literal.ofDefault? " [1, \x22]\x22]".toList } ∧
        Tag.IsUnclosed (trim " \x7bNumber  broken   tag".toList) ∧
        Field.ofTag " \x7bNumber  broken   tag".toList =
          { name := "", description := "\x7bNumber broken tag" } := by
  let x : FieldText :=
    { type? := some " ?int|void ".toList
      name := .bracketed " max ".toList (some " [1, \x22]\x22]".toList)
      description := " The\n  limit".toList
      type_notBlank := fun type h => Option.some.inj h ▸ rfl
      type_closed := fun type h => Option.some.inj h ▸ by decide
      name_isReadable := ⟨List.all_eq_true.mp (by decide), fun value h => Option.some.inj h ▸ rfl⟩
      description_apart := fun c h => Option.some.inj h ▸ rfl }
  have hunclosed : Tag.IsUnclosed (trim " \x7bNumber  broken   tag".toList) :=
    .inl ⟨rfl, by decide⟩
  refine ⟨x, rfl, (ofTag_written.1 x).trans ?_, hunclosed, ofTag_written.2 _ hunclosed⟩
  rfl

end DocComments
