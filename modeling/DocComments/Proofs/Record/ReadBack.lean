import DocComments.Page.Format
import DocComments.Proofs.Json.RoundTrip
import DocComments.Proofs.Literal.Plain
import DocComments.Proofs.Record.Fields

/-!
# Records are read back from their data

A reader of records takes each part from the entry with its key, and knows nothing of how the data
was written. An entry that may be left out is told apart from one that is null, and a word for an
access from any other text. What is read from the data of the records of a text are these records,
as long as their defaults are literals without fractions; for other defaults nothing is said. A
default with a key that occurs twice needs a reader of literals that keeps both.
-/

namespace DocComments

namespace Json

section
variable {α : Type}

/-- The value of the first entry with a key. -/
def get? (key : String) : Json → Option Json
  | object entries => entries.lookup key
  | _ => none

/-- The text that data is. -/
def text? : Json → Option String
  | string s => some s
  | _ => none

/-- The truth value that data is. -/
def truth? : Json → Option Bool
  | bool b => some b
  | _ => none

/-- The flag that data is: set if it is true, and not set if it is null. -/
def flag? : Json → Option Bool
  | bool true => some true
  | null => some false
  | _ => none

/-- What data is if it is not null. -/
def nullable? (f : Json → Option α) : Json → Option (Option α)
  | null => some none
  | j => (f j).map some

/-- The list that data is. -/
def list? (f : Json → Option α) : Json → Option (List α)
  | array items => items.mapM f
  | _ => none

/-- What stands under a key, which must be there. -/
def given? (f : Json → Option α) (key : String) (j : Json) : Option α :=
  (j.get? key).bind f

/-- What stands under a key if the key is there. -/
def ifGiven? (f : Json → Option α) (key : String) (j : Json) : Option (Option α) :=
  match j.get? key with
  | some x => (f x).map some
  | none => some none

end

end Json

section
variable (literal : Json → Literal)

/-- The field that data stands for. -/
def Field.ofJson? (j : Json) : Option Field := do
  let name ← j.given? Json.text? "name"
  let declaredType ← j.ifGiven? Json.text? "declaredType"
  let description ← j.given? Json.text? "description"
  let required ← j.given? Json.truth? "required"
  let defaultValue ← j.ifGiven? (fun x => some (literal x)) "defaultValue"
  return { name, declaredType, description, required, defaultValue }

/-- The parameter that data stands for. -/
def Parameter.ofJson? (j : Json) : Option Parameter := do
  let field ← Field.ofJson? literal j
  let properties ← j.given? (Json.list? (Field.ofJson? literal)) "properties"
  return ⟨field, properties⟩

/-- The outcome that data stands for. -/
def Outcome.ofJson? (j : Json) : Option Outcome := do
  let type ← j.ifGiven? Json.text? "type"
  let description ← j.given? Json.text? "description"
  let properties ← j.given? (Json.list? (Field.ofJson? literal)) "properties"
  return { type, description, properties }

/-- Where an example was written, by its word. -/
def ExampleForm.ofText? : String → Option ExampleForm
  | "javadoc" => some tagged
  | "gfm" => some fenced
  | _ => none

/-- The example that data stands for. -/
def Example.ofJson? (j : Json) : Option Example := do
  let language ← j.given? Json.text? "language"
  let description ← j.given? Json.text? "description"
  let kind ← j.given? Json.text? "kind"
  let form ← ExampleForm.ofText? kind
  let text ← j.given? Json.text? "text"
  return { language, description, form, text }

/-- The tag that data stands for. -/
def Tag.ofJson? (j : Json) : Option Tag := do
  let key ← j.given? Json.text? "tag"
  let value ← j.given? Json.text? "value"
  return { key, value }

/-- The construct of which all this is told: its kind and sort, whether it is asynchronous, and
whether it belongs to the class. -/
def Construct.ofParts? :
    Option String → Option String → Option Bool → Option Bool → Option Construct
  | none, none, none, none => some .unrecognised
  | some "class", none, none, none => some .classHead
  | some "variable", some "property", none, none => some .property
  | some "function", none, some isAsync, some false => some (.callable .plain isAsync)
  | some "function", some "variable", some isAsync, some false =>
    some (.callable .assigned isAsync)
  | some "function", some "constructor", some isAsync, some false =>
    some (.callable .initializer isAsync)
  | some "function", some "method", some isAsync, some isStatic =>
    some (.callable (.method isStatic) isAsync)
  | _, _, _, _ => none

/-- The construct that data tells of. -/
def Construct.ofJson? (j : Json) : Option Construct := do
  let kind ← j.given? (Json.nullable? Json.text?) "kind"
  let subtype ← j.given? (Json.nullable? Json.text?) "subtype"
  let isAsync ← j.given? (Json.nullable? Json.truth?) "isAsync"
  let isStatic ← j.given? (Json.nullable? Json.truth?) "isStatic"
  Construct.ofParts? kind subtype isAsync isStatic

/-- The record that data stands for, unless the data is wrong about what can be attached. -/
def Record.ofJson? (j : Json) : Option Record := do
  let name ← j.given? Json.text? "name"
  let construct ← Construct.ofJson? j
  let description ← j.given? Json.text? "description"
  let access ← j.given? Json.text? "access"
  let chainable ← j.given? Json.flag? "chainable"
  let deprecated ← j.given? Json.flag? "deprecated"
  let version ← j.given? (Json.nullable? Json.text?) "version"
  let since ← j.given? (Json.nullable? Json.text?) "since"
  let todos ← j.given? (Json.list? Json.text?) "todos"
  let seeAlso ← j.given? (Json.list? Json.text?) "seeAlso"
  let throws ← j.given? (Json.list? (Outcome.ofJson? literal)) "throws"
  let examples ← j.given? (Json.list? Example.ofJson?) "examples"
  let parameters ← j.given? (Json.list? (Parameter.ofJson? literal)) "parameters"
  let returns ← j.given? (Outcome.ofJson? literal) "returns"
  let customTags ← j.given? (Json.list? Tag.ofJson?) "customTags"
  let ignore ← j.given? Json.truth? "ignore"
  let signature ← j.ifGiven? Json.text? "signature"
  let canAttach ← j.given? Json.truth? "canAttach"
  let r : Record :=
    { name, construct, description, access := Access.ofText access, chainable, deprecated, version,
      since, todos, seeAlso, throws, examples, parameters, returns, customTags, ignore, signature }
  if canAttach = r.canAttach then some r else none

/-- The records that the text of a data file stands for. -/
def Record.listOfText? (s : String) : Option (List Record) :=
  (Json.readAll? s.toList).bind (Json.list? (Record.ofJson? literal))

end

/-! ### Entries -/

namespace Json

section
variable {α β : Type} {f : Json → Option α} {k : String} {es : List (String × Option Json)}

theorem lookup_present {x : Json} (h : es.lookup k = some (some x)) :
    (present es).lookup k = some x := by
  induction es with
  | nil => cases h
  | cons e es ih =>
    rw [List.lookup_cons] at h
    cases hk : k == e.1 with
    | true =>
      rw [hk] at h
      simp only [present, List.filterMap_cons, Option.some.inj h, Option.map_some,
        List.lookup_cons, hk]
    | false =>
      rw [hk] at h
      have hbehind := ih h
      unfold present at hbehind ⊢
      cases hvalue : e.2 <;> simpa [List.filterMap_cons, hvalue, List.lookup_cons, hk]

/-- An entry that is not there leaves its key out. -/
theorem lookup_present_of_none (h : ∀ e ∈ es, e.1 = k → e.2 = none) :
    (present es).lookup k = none := by
  rw [List.lookup_eq_none_iff]
  intro e he
  obtain ⟨d, hd, hmap⟩ := List.mem_filterMap.mp he
  obtain ⟨x, hx, rfl⟩ := Option.map_eq_some_iff.mp hmap
  rw [bne_iff_ne]
  rintro rfl
  rw [h d hd rfl] at hx
  cases hx

theorem given?_present {x : Json} {a : α} (h : es.lookup k = some (some x)) (hx : f x = some a) :
    (object (present es)).given? f k = some a := by
  rw [given?, get?, lookup_present h]
  exact hx

theorem ifGiven?_present {g : α → Json} {o : Option α} (h : es.lookup k = some (o.map g))
    (hkey : ∀ e ∈ es, e.1 = k → e.2 = o.map g) (hread : ∀ a, o = some a → f (g a) = some a) :
    (object (present es)).ifGiven? f k = some o := by
  cases o with
  | some a =>
    rw [ifGiven?, get?, lookup_present h]
    exact congrArg (Option.map some) (hread a rfl)
  | none => rw [ifGiven?, get?, lookup_present_of_none hkey]

theorem list?_map {g : α → Json} {as : List α} (h : ∀ a ∈ as, f (g a) = some a) :
    list? f (array (as.map g)) = some as := by
  rw [list?]
  induction as with
  | nil => rfl
  | cons a as ih =>
    obtain ⟨ha, has⟩ := List.forall_mem_cons.mp h
    rw [List.map_cons, List.mapM_cons, ha, ih has]
    rfl

end

theorem nullable?_text (o : Option String) : nullable? text? (orNull .string o) = some o := by
  cases o <;> rfl

theorem nullable?_truth (o : Option Bool) : nullable? truth? (orNull .bool o) = some o := by
  cases o <;> rfl

theorem flag?_ofFlag (b : Bool) : flag? (ofFlag b) = some b := by
  cases b <;> rfl

theorem list?_ofTexts (texts : List String) : list? text? (ofTexts texts) = some texts :=
  list?_map fun _ _ => rfl

end Json

/-! ### Parts of a record -/

section
variable {literal : Json → Literal}

/-- A reader of literals brings back the default of a field. -/
def Field.KeepsDefault (literal : Json → Literal) (f : Field) : Prop :=
  ∀ l, f.defaultValue = some l → literal l.toJson = l

theorem Field.ofJson?_toJsonWith {f : Field} (h : f.KeepsDefault literal) (properties : List Json) :
    ofJson? literal (f.toJsonWith properties) = some f := by
  have hname : (f.toJsonWith properties).given? Json.text? "name" = some f.name :=
    Json.given?_present rfl rfl
  have htype : (f.toJsonWith properties).ifGiven? Json.text? "declaredType" =
      some f.declaredType :=
    Json.ifGiven?_present rfl (by simp) fun _ _ => rfl
  have hdescription : (f.toJsonWith properties).given? Json.text? "description" =
      some f.description :=
    Json.given?_present rfl rfl
  have hrequired : (f.toJsonWith properties).given? Json.truth? "required" = some f.required :=
    Json.given?_present rfl rfl
  have hdefault : (f.toJsonWith properties).ifGiven? (fun x => some (literal x)) "defaultValue" =
      some f.defaultValue :=
    Json.ifGiven?_present rfl (by simp) fun l hl => congrArg some (h l hl)
  simp only [ofJson?, hname, htype, hdescription, hrequired, hdefault, Option.bind_eq_bind,
    Option.bind_some, Option.pure_def]

theorem Parameter.ofJson?_toJson {p : Parameter} (h : p.toField.KeepsDefault literal)
    (hproperties : ∀ f ∈ p.properties, f.KeepsDefault literal) :
    ofJson? literal p.toJson = some p := by
  have hfield : Field.ofJson? literal p.toJson = some p.toField := Field.ofJson?_toJsonWith h _
  have hnested : p.toJson.given? (Json.list? (Field.ofJson? literal)) "properties" =
      some p.properties :=
    Json.given?_present rfl
      (Json.list?_map fun f hf => Field.ofJson?_toJsonWith (hproperties f hf) [])
  simp only [ofJson?, hfield, hnested, Option.bind_eq_bind, Option.bind_some, Option.pure_def]

theorem Outcome.ofJson?_toJson {o : Outcome} (h : ∀ f ∈ o.properties, f.KeepsDefault literal) :
    ofJson? literal o.toJson = some o := by
  have htype : o.toJson.ifGiven? Json.text? "type" = some o.type :=
    Json.ifGiven?_present rfl (by simp) fun _ _ => rfl
  have hdescription : o.toJson.given? Json.text? "description" = some o.description :=
    Json.given?_present rfl rfl
  have hproperties : o.toJson.given? (Json.list? (Field.ofJson? literal)) "properties" =
      some o.properties :=
    Json.given?_present rfl (Json.list?_map fun f hf => Field.ofJson?_toJsonWith (h f hf) [])
  simp only [ofJson?, htype, hdescription, hproperties, Option.bind_eq_bind, Option.bind_some,
    Option.pure_def]

theorem Example.ofJson?_toJson (e : Example) : ofJson? e.toJson = some e := by
  obtain ⟨language, description, form, text⟩ := e
  cases form <;> rfl

theorem Tag.ofJson?_toJson (t : Tag) : ofJson? t.toJson = some t :=
  rfl

/-- A construct is known from what is told of it. -/
theorem Construct.ofParts?_parts (x : Construct) :
    ofParts? x.kind? x.subtype? x.isAsync? x.isStatic? = some x := by
  cases x with
  | callable role isAsync => cases role <;> rfl
  | _ => rfl

end

namespace Record
variable {literal : Json → Literal} {r : Record}

theorem ofJson?_construct : Construct.ofJson? r.toJson = some r.construct := by
  have hkind : r.toJson.given? (Json.nullable? Json.text?) "kind" = some r.construct.kind? :=
    Json.given?_present rfl (Json.nullable?_text _)
  have hsubtype : r.toJson.given? (Json.nullable? Json.text?) "subtype" =
      some r.construct.subtype? :=
    Json.given?_present rfl (Json.nullable?_text _)
  have hasync : r.toJson.given? (Json.nullable? Json.truth?) "isAsync" =
      some r.construct.isAsync? :=
    Json.given?_present rfl (Json.nullable?_truth _)
  have hstatic : r.toJson.given? (Json.nullable? Json.truth?) "isStatic" =
      some r.construct.isStatic? :=
    Json.given?_present rfl (Json.nullable?_truth _)
  simp only [Construct.ofJson?, hkind, hsubtype, hasync, hstatic, Option.bind_eq_bind,
    Option.bind_some, Construct.ofParts?_parts]

/-- A reader of literals brings back all defaults of a record. -/
def KeepsDefaults (literal : Json → Literal) (r : Record) : Prop :=
  ∀ f ∈ r.fields, f.KeepsDefault literal

theorem toField_mem_fields {p : Parameter} (hp : p ∈ r.parameters) : p.toField ∈ r.fields :=
  List.mem_append_left _ (List.mem_map_of_mem hp)

theorem mem_fields_of_parameter {p : Parameter} (hp : p ∈ r.parameters) {f : Field}
    (hf : f ∈ p.properties) : f ∈ r.fields :=
  List.mem_append_right _ (List.mem_append_left _ (List.mem_flatMap_of_mem hp hf))

theorem mem_fields_of_outcome {o : Outcome} (ho : o ∈ r.returns :: r.throws) {f : Field}
    (hf : f ∈ o.properties) : f ∈ r.fields :=
  List.mem_append_right _ (List.mem_append_right _ (List.mem_flatMap_of_mem ho hf))

/-- A record comes back from its data if the words for accesses are not taken for other texts. -/
theorem ofJson?_toJson (h : r.KeepsDefaults literal)
    (haccess : Access.ofText r.access.text = r.access) : ofJson? literal r.toJson = some r := by
  have hname : r.toJson.given? Json.text? "name" = some r.name := Json.given?_present rfl rfl
  have hconstruct : Construct.ofJson? r.toJson = some r.construct := ofJson?_construct
  have hdescription : r.toJson.given? Json.text? "description" = some r.description :=
    Json.given?_present rfl rfl
  have htext : r.toJson.given? Json.text? "access" = some r.access.text :=
    Json.given?_present rfl rfl
  have hchainable : r.toJson.given? Json.flag? "chainable" = some r.chainable :=
    Json.given?_present rfl (Json.flag?_ofFlag _)
  have hdeprecated : r.toJson.given? Json.flag? "deprecated" = some r.deprecated :=
    Json.given?_present rfl (Json.flag?_ofFlag _)
  have hversion : r.toJson.given? (Json.nullable? Json.text?) "version" = some r.version :=
    Json.given?_present rfl (Json.nullable?_text _)
  have hsince : r.toJson.given? (Json.nullable? Json.text?) "since" = some r.since :=
    Json.given?_present rfl (Json.nullable?_text _)
  have htodos : r.toJson.given? (Json.list? Json.text?) "todos" = some r.todos :=
    Json.given?_present rfl (Json.list?_ofTexts _)
  have hsee : r.toJson.given? (Json.list? Json.text?) "seeAlso" = some r.seeAlso :=
    Json.given?_present rfl (Json.list?_ofTexts _)
  have hthrows : r.toJson.given? (Json.list? (Outcome.ofJson? literal)) "throws" =
      some r.throws :=
    Json.given?_present rfl <| Json.list?_map fun _ ho => Outcome.ofJson?_toJson fun f hf =>
      h f (mem_fields_of_outcome (List.mem_cons_of_mem _ ho) hf)
  have hexamples : r.toJson.given? (Json.list? Example.ofJson?) "examples" = some r.examples :=
    Json.given?_present rfl (Json.list?_map fun e _ => e.ofJson?_toJson)
  have hparameters : r.toJson.given? (Json.list? (Parameter.ofJson? literal)) "parameters" =
      some r.parameters :=
    Json.given?_present rfl <| Json.list?_map fun _ hp =>
      Parameter.ofJson?_toJson (h _ (toField_mem_fields hp)) fun f hf =>
        h f (mem_fields_of_parameter hp hf)
  have hreturns : r.toJson.given? (Outcome.ofJson? literal) "returns" = some r.returns :=
    Json.given?_present rfl <| Outcome.ofJson?_toJson fun f hf =>
      h f (mem_fields_of_outcome List.mem_cons_self hf)
  have htags : r.toJson.given? (Json.list? Tag.ofJson?) "customTags" = some r.customTags :=
    Json.given?_present rfl (Json.list?_map fun t _ => t.ofJson?_toJson)
  have hignore : r.toJson.given? Json.truth? "ignore" = some r.ignore :=
    Json.given?_present rfl rfl
  have hsignature : r.toJson.ifGiven? Json.text? "signature" = some r.signature :=
    Json.ifGiven?_present rfl (by simp) fun _ _ => rfl
  have hattach : r.toJson.given? Json.truth? "canAttach" = some r.canAttach :=
    Json.given?_present rfl rfl
  simp only [ofJson?, hname, hconstruct, hdescription, htext, haccess, hchainable, hdeprecated,
    hversion, hsince, htodos, hsee, hthrows, hexamples, hparameters, hreturns, htags, hignore,
    hsignature, hattach, Option.bind_eq_bind, Option.bind_some]
  exact if_pos trivial

end Record

/-! ### Data without fractions -/

namespace Json

theorem isPlain_present {es : List (String × Option Json)}
    (h : ∀ e ∈ es, ∀ j, e.2 = some j → j.IsPlain) : (object (present es)).IsPlain := by
  refine .object ?_
  intro e he
  obtain ⟨d, hd, hmap⟩ := List.mem_filterMap.mp he
  obtain ⟨x, hx, rfl⟩ := Option.map_eq_some_iff.mp hmap
  exact h d hd x hx

theorem isPlain_map {α : Type} {as : List α} {f : α → Json} (h : ∀ a ∈ as, (f a).IsPlain) :
    (array (as.map f)).IsPlain := by
  refine .array ?_
  intro j hj
  obtain ⟨a, ha, rfl⟩ := List.mem_map.mp hj
  exact h a ha

theorem isPlain_ofFlag (b : Bool) : (ofFlag b).IsPlain := by
  cases b with
  | true => exact .bool true
  | false => exact .null

theorem isPlain_ofTexts (texts : List String) : (ofTexts texts).IsPlain :=
  isPlain_map fun s _ => .string s

theorem isPlain_orNull {α : Type} {f : α → Json} (h : ∀ a, (f a).IsPlain) (o : Option α) :
    (orNull f o).IsPlain := by
  cases o with
  | some a => exact h a
  | none => exact .null

end Json

/-- The default of a field, if it has one, is a literal without fractions. -/
def Field.IsPlain (f : Field) : Prop :=
  ∀ l, f.defaultValue = some l → l.IsPlain

theorem Field.IsPlain.toJsonWith {f : Field} (h : f.IsPlain) {properties : List Json}
    (hproperties : ∀ j ∈ properties, j.IsPlain) : (f.toJsonWith properties).IsPlain := by
  refine Json.isPlain_present ?_
  simp only [List.forall_mem_cons, List.not_mem_nil, false_imp_iff, implies_true, and_true,
    Option.some.injEq, forall_eq', Option.map_eq_some_iff, forall_exists_index, and_imp,
    forall_apply_eq_imp_iff₂]
  exact ⟨.string _, fun _ _ => .string _, .string _, .bool _, fun l hl => (h l hl).isPlain_toJson,
    .array hproperties⟩

theorem Field.IsPlain.toJson {f : Field} (h : f.IsPlain) : f.toJson.IsPlain :=
  h.toJsonWith fun _ hj => absurd hj List.not_mem_nil

theorem Field.IsPlain.keepsDefault {f : Field} (h : f.IsPlain) :
    f.KeepsDefault Literal.ofAllEntries :=
  fun l hl => (h l hl).ofAllEntries_toJson

theorem Parameter.isPlain_toJson {p : Parameter} (h : p.toField.IsPlain)
    (hproperties : ∀ f ∈ p.properties, f.IsPlain) : p.toJson.IsPlain := by
  apply Field.IsPlain.toJsonWith h
  intro j hj
  obtain ⟨f, hf, rfl⟩ := List.mem_map.mp hj
  exact (hproperties f hf).toJson

theorem Outcome.isPlain_toJson {o : Outcome} (h : ∀ f ∈ o.properties, f.IsPlain) :
    o.toJson.IsPlain := by
  refine Json.isPlain_present ?_
  simp only [List.forall_mem_cons, List.not_mem_nil, false_imp_iff, implies_true, and_true,
    Option.some.injEq, forall_eq', Option.map_eq_some_iff, forall_exists_index, and_imp,
    forall_apply_eq_imp_iff₂]
  exact ⟨fun _ _ => .string _, .string _, Json.isPlain_map fun f hf => (h f hf).toJson⟩

theorem Example.isPlain_toJson (e : Example) : e.toJson.IsPlain := by
  refine .object ?_
  simp only [List.forall_mem_cons, List.not_mem_nil, false_imp_iff, implies_true, and_true]
  exact ⟨.string _, .string _, .string _, .string _⟩

theorem Tag.isPlain_toJson (t : Tag) : t.toJson.IsPlain := by
  refine .object ?_
  simp only [List.forall_mem_cons, List.not_mem_nil, false_imp_iff, implies_true, and_true]
  exact ⟨.string _, .string _⟩

namespace Record

/-- The defaults of a record are literals without fractions. -/
def IsPlain (r : Record) : Prop :=
  ∀ f ∈ r.fields, f.IsPlain

/-- No default of a record holds an object in which a key occurs twice. -/
def HasDistinctKeys (r : Record) : Prop :=
  ∀ f ∈ r.fields, ∀ l, f.defaultValue = some l → l.HasDistinctKeys

variable {r : Record}

theorem IsPlain.keepsDefaults (h : r.IsPlain) : r.KeepsDefaults Literal.ofAllEntries :=
  fun f hf => (h f hf).keepsDefault

theorem IsPlain.keepsDefaults_ofJson (h : r.IsPlain) (hkeys : r.HasDistinctKeys) :
    r.KeepsDefaults Literal.ofJson :=
  fun f hf l hl => (h f hf l hl).ofJson_toJson (hkeys f hf l hl)

/-- A record without fractions is data without fractions. -/
theorem IsPlain.toJson (h : r.IsPlain) : r.toJson.IsPlain := by
  have hparameters : ∀ p ∈ r.parameters, p.toJson.IsPlain := fun p hp =>
    Parameter.isPlain_toJson (h _ (toField_mem_fields hp)) fun f hf =>
      h f (mem_fields_of_parameter hp hf)
  have houtcome : ∀ o ∈ r.returns :: r.throws, o.toJson.IsPlain := fun o ho =>
    Outcome.isPlain_toJson fun f hf => h f (mem_fields_of_outcome ho hf)
  obtain ⟨hreturns, hthrows⟩ := List.forall_mem_cons.mp houtcome
  refine Json.isPlain_present ?_
  simp only [List.forall_mem_cons, List.not_mem_nil, false_imp_iff, implies_true, and_true,
    Option.some.injEq, forall_eq', Option.map_eq_some_iff, forall_exists_index, and_imp,
    forall_apply_eq_imp_iff₂]
  refine ⟨.string _, ?kind, ?subtype, .string _, .string _, Json.isPlain_ofFlag _,
    Json.isPlain_ofFlag _, ?version, ?since, Json.isPlain_ofTexts _, Json.isPlain_ofTexts _,
    Json.isPlain_map hthrows, Json.isPlain_map fun e _ => e.isPlain_toJson,
    Json.isPlain_map hparameters, hreturns, Json.isPlain_map fun t _ => t.isPlain_toJson, .bool _,
    ?isAsync, ?isStatic, fun _ _ => .string _, .bool _⟩
  case kind | subtype | version | since => exact Json.isPlain_orNull .string _
  case isAsync | isStatic => exact Json.isPlain_orNull .bool _

/-! ### The records of a text -/

/-- The word for the access of a record is not taken for another text. -/
theorem ofText_text_access {source : List Char} (hr : r ∈ all source) :
    Access.ofText r.access.text = r.access := by
  obtain ⟨b, -, rfl⟩ := List.mem_map.mp hr
  have hname : ∀ name, Access.ofText (Access.ofName name).text = Access.ofName name := by
    intro name
    unfold Access.ofName
    split <;> rfl
  have htag : ∀ (t : Tag) access, t.access? = some access → Access.ofText access.text = access := by
    intro t access h
    unfold Tag.access? at h
    split_ifs at h <;> cases h <;> rw [Access.text_ofText]
  rw [ofBlock, ofComment_eq, reading]
  cases hlast : ((Comment.read b.comment.toList).tags.filterMap Tag.access?).getLast? with
  | none => exact hname _
  | some access =>
    obtain ⟨t, -, ht⟩ := List.mem_filterMap.mp (List.mem_of_getLast? hlast)
    exact htag t access ht

/-- A reader of literals that brings back all defaults brings back all records of a text. -/
theorem listOfText?_dataText {literal : Json → Literal} {source : List Char}
    (hplain : ∀ r ∈ all source, r.IsPlain) (hkeeps : ∀ r ∈ all source, r.KeepsDefaults literal) :
    listOfText? literal (Format.dataText (all source)) = some (all source) := by
  have hdata : (Json.array ((all source).map toJson)).IsPlain :=
    Json.isPlain_map fun r hr => (hplain r hr).toJson
  rw [listOfText?, Format.dataText, hdata.readAll?_pretty, Option.bind_some]
  exact Json.list?_map fun r hr => ofJson?_toJson (hkeeps r hr) (ofText_text_access hr)

/-- From the data file of a text whose records hold no fractions, the records are read back as they
were; keys that occur twice in a default must be kept for that, and if there are none the usual
reader of literals will do. So two such texts with the same data file have the same records. -/
theorem dataText_reads_back (source : List Char) (h : ∀ r ∈ all source, r.IsPlain) :
    listOfText? Literal.ofAllEntries (Format.dataText (all source)) = some (all source) ∧
      ((∀ r ∈ all source, r.HasDistinctKeys) →
        listOfText? Literal.ofJson (Format.dataText (all source)) = some (all source)) ∧
      ∀ other, (∀ r ∈ all other, r.IsPlain) →
        Format.dataText (all other) = Format.dataText (all source) → all other = all source := by
  have hread : ∀ s, (∀ r ∈ all s, r.IsPlain) →
      listOfText? Literal.ofAllEntries (Format.dataText (all s)) = some (all s) :=
    fun s hs => listOfText?_dataText hs fun r hr => (hs r hr).keepsDefaults
  refine ⟨hread source h, fun hkeys => ?_, fun other hother htext => ?_⟩
  · exact listOfText?_dataText h fun r hr => (h r hr).keepsDefaults_ofJson (hkeys r hr)
  · have hsame := hread other hother
    rw [htext, hread source h] at hsame
    exact (Option.some.inj hsame).symm

/-- A tag that gives a parameter a default has another data file than one that gives it none. -/
theorem dataText_reads_back_default :
    let source := "/** Mark.\n@param {?string} [by=\"x\"] The mark.\n@access team */ on(by)".toList
    let other := "/** Mark.\n@param {?string} by The mark.\n@access team */ on(by)".toList
    (∃ r ∈ all source, ∃ f ∈ r.fields, f.defaultValue.isSome = true) ∧
      listOfText? Literal.ofAllEntries (Format.dataText (all source)) = some (all source) ∧
      listOfText? Literal.ofJson (Format.dataText (all source)) = some (all source) ∧
      Format.dataText (all other) ≠ Format.dataText (all source) := by
  intro source other
  have hdefaults : ∀ s ∈ [source, other], ∀ r ∈ all s, ∀ f ∈ r.fields,
      f.defaultValue.map Literal.typeName ∈ [none, some (some "String")] := by
    decide +kernel
  have hstring : ∀ s ∈ [source, other], ∀ r ∈ all s, ∀ f ∈ r.fields, ∀ l,
      f.defaultValue = some l → ∃ text, l = .string text := by
    intro s hs r hr f hf l hl
    have htype := hdefaults s hs r hr f hf
    rw [hl] at htype
    cases l with
    | string text => exact ⟨text, rfl⟩
    | _ => simp [Literal.typeName] at htype
  have hplain : ∀ s ∈ [source, other], ∀ r ∈ all s, r.IsPlain := by
    intro s hs r hr f hf l hl
    obtain ⟨text, rfl⟩ := hstring s hs r hr f hf l hl
    exact .string text
  obtain ⟨hsource, hother⟩ := List.forall_mem_cons.mp hplain
  obtain ⟨hall, hdistinct, hsame⟩ := dataText_reads_back source hsource
  have hdiffer : ((all other).flatMap fields).map (·.defaultValue.isSome) ≠
      ((all source).flatMap fields).map (·.defaultValue.isSome) := by
    decide +kernel
  refine ⟨by decide +kernel, hall, hdistinct ?_, fun htext => hdiffer ?_⟩
  · intro r hr f hf l hl
    obtain ⟨text, rfl⟩ := hstring source List.mem_cons_self r hr f hf l hl
    exact .string text
  · rw [hsame other (hother other List.mem_cons_self) htext]

end Record

end DocComments
