import DocComments.Proofs.Record.TagReading
import DocComments.Proofs.Signature.Arguments
import DocComments.Proofs.Signature.Declared
import DocComments.Record.Json

/-!
# The fields of a record

The parameters of a record and all properties in it are fields, and each of them was read either
from one tag or from one argument of the code. So what holds of both ways to read a field holds of
every field of every record, whatever the tags in between do. That properties have no properties is
in the type of a field; here it is said of the data that is written.
-/

namespace DocComments

/-- What the default of a tag stands for is defined. -/
theorem Literal.ofDefault?_ne_undefined (s : List Char) : ofDefault? s ≠ some undefined := by
  simp only [ofDefault?]
  split
  · exact nofun
  · split
    · exact nofun
    · rename_i l hl
      exact fun heq => hl (Option.some.inj heq)

namespace Field

/-- A field with a default is optional, and the default is defined. -/
structure IsSound (f : Field) : Prop where
  optional : f.defaultValue.isSome = true → f.required = false
  defined : f.defaultValue ≠ some .undefined

/-- All that is known of a field besides its name is its default. -/
structure IsInferred (f : Field) : Prop where
  present : f.declaredType.isSome = true ↔ f.defaultValue.isSome = true
  type : ∀ l, f.defaultValue = some l → f.declaredType = l.typeName

theorem isSound_of_none {f : Field} (h : f.defaultValue = none) : f.IsSound := by
  constructor
  · intro hsome
    rw [h] at hsome
    cases hsome
  · rw [h]
    exact nofun

theorem isSound_of_afterType? {type? : Option (List Char)} {s : List Char} {f : Field}
    (h : afterType? type? s = some f) : f.IsSound := by
  unfold afterType? at h
  split at h
  · obtain ⟨found, -, rfl⟩ := Option.map_eq_some_iff.mp h
    refine ⟨fun _ => rfl, fun heq => ?_⟩
    obtain ⟨value, -, hvalue⟩ := Option.bind_eq_some_iff.mp heq
    exact Literal.ofDefault?_ne_undefined value hvalue
  · cases h
    exact isSound_of_none rfl

/-- A field that a tag describes is sound. -/
theorem isSound_ofTag (s : List Char) : (ofTag s).IsSound := by
  unfold ofTag
  split
  · rename_i f hf
    unfold ofTrimmed? at hf
    split at hf
    · split at hf
      · exact isSound_of_afterType? hf
      · cases hf
    · exact isSound_of_afterType? hf
  · exact isSound_of_none rfl

end Field

namespace Signature

/-- A field that an argument declares is sound, and all that is known of it is its default. -/
theorem Argument.isSound_toField (scope : List String) (a : Argument) :
    (a.toField scope).IsSound ∧ (a.toField scope).IsInferred := by
  have hnone : ∀ f : Field, f.defaultValue = none → f.declaredType = none →
      f.IsSound ∧ f.IsInferred := by
    intro f hdefault htype
    refine ⟨Field.isSound_of_none hdefault, by simp [hdefault, htype], ?_⟩
    intro l hl
    rw [hdefault] at hl
    cases hl
  unfold Argument.toField
  split
  · exact hnone _ rfl rfl
  · split
    · exact hnone _ rfl rfl
    · rename_i l _
      cases l with
      | undefined => exact hnone _ rfl rfl
      | _ =>
        refine ⟨⟨fun _ => rfl, fun h => ?_⟩, by simp [Literal.isUndefined, Literal.typeName], ?_⟩
        · cases h
        · intro l hl
          cases hl
          rfl

/-- The parameters of a declaration are arguments of the code. -/
theorem Declared.exists_argument_of_mem {s : List Char} {d : Declaration} (h : Declared s d)
    {p : Parameter} (hp : p ∈ d.parameters?.getD []) :
    ∃ scope piece a, argument? piece = some a ∧ p = (Argument.toField scope a).toParameter := by
  cases h with
  | anonymous isAsync => exact Signature.exists_argument_of_mem hp
  | named role isAsync h => exact Signature.exists_argument_of_mem hp
  | _ => cases hp

theorem Declared.exists_of_mem {s : List Char} {d : Declaration} (h : Declared s d) {p : Parameter}
    (hp : p ∈ d.parameters?.getD []) : ∃ scope a, p = (Argument.toField scope a).toParameter := by
  obtain ⟨scope, -, a, -, rfl⟩ := h.exists_argument_of_mem hp
  exact ⟨scope, a, rfl⟩

end Signature

namespace Tag

theorem exists_of_mem_leadingProperties {ts : List Tag} {f : Field}
    (h : f ∈ leadingProperties ts) : ∃ t ∈ ts, f = Field.ofTag t.value.toList := by
  obtain ⟨t, ht, hf⟩ := List.mem_filterMap.mp h
  unfold property? at hf
  split at hf <;> cases hf
  exact ⟨t, (List.takeWhile_prefix _).subset ht, rfl⟩

theorem mem_of_mem_owners {keys : List String} {ts : List Tag} {x : Tag × List Field}
    (hx : x ∈ owners keys ts) : x.1 ∈ ts := by
  induction ts with
  | nil => cases hx
  | cons t ts ih =>
    rw [owners] at hx
    split at hx
    · rcases List.mem_cons.mp hx with rfl | hx
      · exact List.mem_cons_self
      · exact List.mem_cons_of_mem t (ih hx)
    · exact List.mem_cons_of_mem t (ih hx)

/-- The properties of a tag are read from tags. -/
theorem exists_of_mem_owners {keys : List String} {ts : List Tag} {x : Tag × List Field}
    (hx : x ∈ owners keys ts) {f : Field} (hf : f ∈ x.2) :
    ∃ t ∈ ts, f = Field.ofTag t.value.toList := by
  induction ts with
  | nil => cases hx
  | cons t ts ih =>
    have hbehind : (∃ u ∈ ts, f = Field.ofTag u.value.toList) →
        ∃ u ∈ t :: ts, f = Field.ofTag u.value.toList := fun ⟨u, hu, hread⟩ =>
      ⟨u, List.mem_cons_of_mem t hu, hread⟩
    rw [owners] at hx
    split at hx
    · rcases List.mem_cons.mp hx with rfl | hx
      · exact hbehind (exists_of_mem_leadingProperties hf)
      · exact hbehind (ih hx)
    · exact hbehind (ih hx)

theorem exists_of_mem_parameters {ts : List Tag} {p : Parameter} (hp : p ∈ parameters ts)
    {f : Field} (hf : f = p.toField ∨ f ∈ p.properties) :
    ∃ t ∈ ts, f = Field.ofTag t.value.toList := by
  obtain ⟨x, hx, rfl⟩ := List.mem_map.mp hp
  rcases hf with rfl | hf
  · exact ⟨x.1, mem_of_mem_owners hx, rfl⟩
  · exact exists_of_mem_owners hx hf

theorem exists_of_mem_errors {ts : List Tag} {o : Outcome} (ho : o ∈ errors ts) {f : Field}
    (hf : f ∈ o.properties) : ∃ t ∈ ts, f = Field.ofTag t.value.toList := by
  obtain ⟨x, hx, rfl⟩ := List.mem_map.mp ho
  exact exists_of_mem_owners hx hf

theorem exists_of_mem_result? {ts : List Tag} {f : Field}
    (hf : f ∈ ((result? ts).getD {}).properties) : ∃ t ∈ ts, f = Field.ofTag t.value.toList := by
  unfold result? at hf
  cases hlast : (owners ["returns", "return"] ts).getLast? with
  | none =>
    rw [hlast] at hf
    cases hf
  | some x =>
    rw [hlast] at hf
    exact exists_of_mem_owners (List.mem_of_getLast? hlast) hf

end Tag

/-- The properties that stand in the data of a field. -/
def Json.properties? : Json → Option Json
  | object entries => entries.lookup "properties"
  | _ => none

theorem Field.properties?_toJson (f : Field) : f.toJson.properties? = some (.array []) := by
  obtain ⟨name, declaredType, description, required, defaultValue⟩ := f
  cases declaredType <;> cases defaultValue <;> rfl

namespace Record

/-- All properties in a record: those of its parameters, its result and its errors. -/
def properties (r : Record) : List Field :=
  r.parameters.flatMap Parameter.properties ++ (r.returns :: r.throws).flatMap Outcome.properties

/-- The parameters of a record and all properties in it. -/
def fields (r : Record) : List Field :=
  r.parameters.map Parameter.toField ++ r.properties

/-- A parameter of a record and its properties were read from tags, or the parameter is one of the
declaration. -/
theorem exists_tag_of_mem_parameters {d : Declaration} {c : Comment} {p : Parameter}
    (hp : p ∈ (ofComment d c).parameters) :
    (∀ f, f = p.toField ∨ f ∈ p.properties → ∃ t ∈ c.tags, f = Field.ofTag t.value.toList) ∨
      p ∈ d.parameters?.getD [] := by
  rw [ofComment_eq, reading] at hp
  simp only at hp
  split at hp
  · exact Or.inl fun f => Tag.exists_of_mem_parameters hp
  · exact Or.inr hp

/-- Each field of a record was read from a tag, or it is a parameter of the declaration or one of
its properties. -/
theorem exists_of_mem_fields {d : Declaration} {c : Comment} {f : Field}
    (hf : f ∈ (ofComment d c).fields) :
    (∃ s, f = Field.ofTag s) ∨ ∃ p ∈ d.parameters?.getD [], f = p.toField ∨ f ∈ p.properties := by
  have hparameter : ∀ p ∈ (ofComment d c).parameters, (f = p.toField ∨ f ∈ p.properties) →
      (∃ s, f = Field.ofTag s) ∨
        ∃ p ∈ d.parameters?.getD [], f = p.toField ∨ f ∈ p.properties := by
    intro p hp hfield
    rcases exists_tag_of_mem_parameters hp with htags | hp
    · obtain ⟨t, -, hread⟩ := htags f hfield
      exact Or.inl ⟨t.value.toList, hread⟩
    · exact Or.inr ⟨p, hp, hfield⟩
  rcases List.mem_append.mp hf with hf | hf
  · obtain ⟨p, hp, rfl⟩ := List.mem_map.mp hf
    exact hparameter p hp (Or.inl rfl)
  · rcases List.mem_append.mp hf with hf | hf
    · obtain ⟨p, hp, hf⟩ := List.mem_flatMap.mp hf
      exact hparameter p hp (Or.inr hf)
    · rw [ofComment_eq] at hf
      obtain ⟨o, ho, hf⟩ := List.mem_flatMap.mp hf
      rcases List.mem_cons.mp ho with rfl | ho
      · obtain ⟨t, -, hread⟩ := Tag.exists_of_mem_result? hf
        exact Or.inl ⟨t.value.toList, hread⟩
      · obtain ⟨t, -, hread⟩ := Tag.exists_of_mem_errors ho hf
        exact Or.inl ⟨t.value.toList, hread⟩

/-- Every parameter and every property in the records of a text is optional if it has a default,
and the default is defined; a property has no properties of its own. Where the comment has no tag
of a parameter, no parameter has properties, and its type is that of its default. -/
theorem all_fields_isSound (source : List Char) :
    (∀ r ∈ all source, (∀ f ∈ r.fields, f.IsSound) ∧
      ∀ f ∈ r.properties, f.toJson.properties? = some (.array [])) ∧
    ∀ b ∈ Block.all source, (∀ t ∈ (Comment.read b.comment.toList).tags, t.key ≠ "param") →
      ∀ p ∈ (ofBlock b).parameters, p.properties = [] ∧ p.toField.IsInferred := by
  constructor
  · intro r hr
    obtain ⟨b, -, rfl⟩ := List.mem_map.mp hr
    refine ⟨fun f hf => ?_, fun f _ => f.properties?_toJson⟩
    rcases exists_of_mem_fields hf with ⟨s, rfl⟩ | ⟨p, hp, hf⟩
    · exact Field.isSound_ofTag s
    · obtain ⟨scope, a, rfl⟩ := (Signature.declared_ofCode b.code.toList).exists_of_mem hp
      rcases hf with rfl | hf
      · exact (a.isSound_toField scope).1
      · cases hf
  · intro b _ htags p hp
    have hnone : (Comment.read b.comment.toList).tags.any (·.key = "param") = false :=
      List.any_eq_false.mpr fun t ht => by simpa using htags t ht
    rw [ofBlock, ofComment_eq, reading] at hp
    simp only [hnone, Bool.false_eq_true, if_false] at hp
    obtain ⟨scope, a, rfl⟩ := (Signature.declared_ofCode b.code.toList).exists_of_mem hp
    exact ⟨rfl, (a.isSound_toField scope).2⟩

/-- A parameter with a default in the code, behind one with a property that has a default. -/
theorem all_fields_isSound_default :
    let source := ("/** @param [size]\n@property {Number} [size.width=3] */ function fill(size) " ++
      "\x7b\x7d /** Grow. */ function grow(by = 1) \x7b\x7d").toList
    (∃ r ∈ all source, ∃ f ∈ r.properties, f.defaultValue.isSome = true ∧ f.required = false ∧
      f.toJson.properties? = some (.array [])) ∧
    ∃ b ∈ Block.all source, ∃ p ∈ (ofBlock b).parameters, p.defaultValue.isSome = true ∧
      p.properties = [] ∧ p.declaredType.isSome = true := by
  intro source
  have hrecord : ∃ r ∈ all source, ∃ f ∈ r.properties, f.defaultValue.isSome = true := by
    decide +kernel
  have hblock : ∃ b ∈ Block.all source,
      (∀ t ∈ (Comment.read b.comment.toList).tags, t.key ≠ "param") ∧
        ∃ p ∈ (ofBlock b).parameters, p.defaultValue.isSome = true := by
    decide +kernel
  obtain ⟨r, hr, f, hf, hdefault⟩ := hrecord
  obtain ⟨b, hb, htags, p, hp, hgiven⟩ := hblock
  obtain ⟨hsound, hnested⟩ := (all_fields_isSound source).1 r hr
  obtain ⟨hproperties, hinferred⟩ := (all_fields_isSound source).2 b hb htags p hp
  exact ⟨⟨r, hr, f, hf, hdefault, (hsound f (List.mem_append_right _ hf)).optional hdefault,
    hnested f hf⟩, b, hb, p, hp, hgiven, hproperties, hinferred.present.mpr hgiven⟩

end Record

end DocComments
