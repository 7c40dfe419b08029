import DocComments.Proofs.Signature.Declared
import DocComments.Record.Reader

/-!
# Declarations and records that are well formed

What is told of a declaration is told in several fields, and not all that could stand in them goes
together. Here is what does, field by field, for whatever is read from a code, and what follows from
it for the records of a text. Of tags nothing is said: they have no bearing on these fields.
-/

namespace DocComments

namespace Construct
variable (x : Construct)

theorem kind?_mem : x.kind? ∈ [none, some "class", some "variable", some "function"] := by
  cases x <;> simp [kind?]

theorem kind?_eq_none_iff : x.kind? = none ↔ x = unrecognised := by
  cases x <;> simp [kind?]

theorem kind?_eq_variable_iff : x.kind? = some "variable" ↔ x = property := by
  cases x <;> simp [kind?]

theorem isCallable_iff : x.isCallable = true ↔ x.kind? = some "function" := by
  cases x <;> simp [isCallable, kind?]

theorem isSome_isAsync?_iff : x.isAsync?.isSome = true ↔ x.kind? = some "function" := by
  cases x <;> simp [isAsync?, kind?]

theorem isSome_isStatic?_iff : x.isStatic?.isSome = true ↔ x.kind? = some "function" := by
  cases x with
  | callable role isAsync => cases role <;> simp [isStatic?, kind?]
  | _ => simp [isStatic?, kind?]

theorem subtype?_of_class (h : x.kind? = some "class") : x.subtype? = none := by
  cases x with
  | classHead => rfl
  | _ => exact absurd h (by simp [kind?])

theorem subtype?_of_function (h : x.kind? = some "function") :
    x.subtype? ∈ [none, some "constructor", some "method", some "variable"] := by
  cases x with
  | callable role isAsync => cases role <;> simp [subtype?]
  | _ => exact absurd h (by simp [kind?])

theorem subtype?_of_isStatic? (h : x.isStatic? = some true) : x.subtype? = some "method" := by
  cases x with
  | callable role isAsync =>
    cases role with
    | method isStatic => rfl
    | _ => exact absurd (Option.some.inj h) Bool.false_ne_true
  | _ => cases h

/-- Something can be attached to a function with a name and to one that is assigned. -/
theorem of_attachable {name : String} (h : x.attachable name = true)
    (hassigned : ∀ isAsync, x = callable .assigned isAsync → name ≠ "") :
    x.kind? = some "function" ∧ name ≠ "" ∧ x.subtype? ∈ [none, some "variable"] := by
  cases x with
  | callable role isAsync =>
    cases role with
    | plain => exact ⟨rfl, of_decide_eq_true h, by simp [subtype?]⟩
    | assigned => exact ⟨rfl, hassigned isAsync rfl, by simp [subtype?]⟩
    | _ => cases h
  | _ => cases h

end Construct

namespace Declaration

/-- What is told of a declaration that a code holds goes together. -/
structure IsWellFormed (code : List Char) (d : Declaration) : Prop where
  kind : d.construct.kind? ∈ [none, some "class", some "variable", some "function"]
  isAsync : d.construct.isAsync?.isSome = true ↔ d.construct.kind? = some "function"
  isStatic : d.construct.isStatic?.isSome = true ↔ d.construct.kind? = some "function"
  parameters : d.parameters?.isSome = true ↔ d.construct.kind? = some "function"
  text : d.construct.kind? ≠ some "function" → d.arguments.text = ""
  nothing : d.construct.kind? = none → d = {}
  classHead : d.construct.kind? = some "class" → d.construct.subtype? = none
  property : d.construct.kind? = some "variable" →
    d.construct.subtype? = some "property" ∧ "this.".toList <+: d.name.toList
  function : d.construct.kind? = some "function" →
    d.construct.subtype? ∈ [none, some "constructor", some "method", some "variable"]
  method : d.construct.isStatic? = some true → d.construct.subtype? = some "method"
  attachable : d.attachable = true → d.construct.kind? = some "function" ∧ d.name ≠ "" ∧
    d.construct.subtype? ∈ [none, some "variable"]
  name : d.name ≠ "" → Signature.Holds code d.name.toList

section
variable {code : List Char} {d : Declaration} (h : Signature.Declared code d)
include h

theorem arguments_of_declared (hkind : d.construct.isCallable = false) : d.arguments = {} := by
  cases h with
  | anonymous isAsync => cases hkind
  | named role isAsync h => cases hkind
  | _ => rfl

theorem eq_of_declared (hkind : d.construct = .unrecognised) : d = {} := by
  cases h with
  | nothing => rfl
  | _ => cases hkind

theorem prefix_of_declared (hkind : d.construct = .property) :
    "this.".toList <+: d.name.toList := by
  cases h with
  | @property name h => exact ⟨name, String.toList_ofList.symm⟩
  | _ => cases hkind

theorem name_of_declared (hne : d.name ≠ "") : Signature.Holds code d.name.toList := by
  cases h with
  | nothing => exact absurd rfl hne
  | anonymous isAsync => exact absurd rfl hne
  | classHead h => rwa [String.toList_ofList]
  | property h => rwa [String.toList_ofList]
  | named role isAsync h => rwa [Signature.callable, String.toList_ofList]

theorem name_ne_of_declared (isAsync : Bool) (hkind : d.construct = .callable .assigned isAsync) :
    d.name ≠ "" := by
  cases h with
  | named role isAsync h => simpa [Signature.callable] using h.ne_nil
  | _ => cases hkind

/-- Whatever can be read from a code is well formed. -/
theorem isWellFormed_of_declared : d.IsWellFormed code where
  kind := d.construct.kind?_mem
  isAsync := d.construct.isSome_isAsync?_iff
  isStatic := d.construct.isSome_isStatic?_iff
  parameters := by
    rw [← d.construct.isCallable_iff, parameters?]
    cases d.construct.isCallable <;> simp
  text hkind := by
    rw [Ne, ← d.construct.isCallable_iff, Bool.not_eq_true] at hkind
    rw [arguments_of_declared h hkind]
  nothing hkind := eq_of_declared h (d.construct.kind?_eq_none_iff.mp hkind)
  classHead := d.construct.subtype?_of_class
  property hkind := by
    have hproperty := d.construct.kind?_eq_variable_iff.mp hkind
    exact ⟨by rw [hproperty, Construct.subtype?], prefix_of_declared h hproperty⟩
  function := d.construct.subtype?_of_function
  method := d.construct.subtype?_of_isStatic?
  attachable hattach := d.construct.of_attachable hattach (name_ne_of_declared h)
  name := name_of_declared h

end

theorem IsWellFormed.mono {s code : List Char} {d : Declaration} (h : d.IsWellFormed s)
    (hs : s <:+: code) : d.IsWellFormed code :=
  { h with name := fun hne => ⟨(h.name hne).isPath, (h.name hne).isInfix.trans hs⟩ }

end Declaration

namespace Record

end Record

end DocComments
