import DocComments.Record.Draft

/-!
# What a draft takes from the tags

A draft is written tag by tag, but each part of it depends on few of them: its parameters, apart
from their properties, on the tags of parameters, the type of its result on the last tag of a
result, its description on the tags that describe. Properties are not followed here.
-/

namespace DocComments

namespace Directive

/-- The field of a directive that names a parameter. -/
def field? : Directive → Option Field
  | parameter field => some field
  | _ => none

/-- The outcome of a directive that tells of a result. -/
def outcome? : Directive → Option Outcome
  | returns outcome => some outcome
  | _ => none

/-- Whether a directive goes on with the description. -/
def describes : Directive → Bool
  | describe _ => true
  | _ => false

end Directive

namespace Tag

/-- The field that a tag declares if it is one of a parameter. -/
def field? (t : Tag) : Option Field :=
  if t.key = "param" then some (Field.ofTag t.value.toList) else none

/-- The outcome that a tag tells of if it is one of a result. -/
def outcome? (t : Tag) : Option Outcome :=
  if t.key = "returns" ∨ t.key = "return" then some (Outcome.ofTag t.value.toList) else none

/-- Whether a tag goes on with the description. -/
def describes (t : Tag) : Bool :=
  t.key == "desc" || t.key == "description"

/-- A tag asks for a parameter, a result or a longer description by its key alone. -/
theorem directive_views (t : Tag) :
    (Directive.ofTag t).field? = t.field? ∧ (Directive.ofTag t).outcome? = t.outcome? ∧
      (Directive.ofTag t).describes = t.describes := by
  unfold Directive.ofTag
  split
  case h_4 | h_5 =>
    rename_i hkey
    split <;> simp [Directive.field?, field?, Directive.outcome?, outcome?, Directive.describes,
      describes, hkey]
  all_goals
    simp_all [Directive.field?, field?, Directive.outcome?, outcome?, Directive.describes,
      describes]

end Tag

namespace Draft

/-- A view that a change does not touch is the same after one element is changed. -/
theorem map_modify {α β : Type} {f : α → α} {g : α → β} (h : ∀ a, g (f a) = g a)
    (as : List α) (i : Nat) : (as.modify i f).map g = as.map g := by
  induction as generalizing i with
  | nil => rw [List.modify_nil]
  | cons a as ih =>
    cases i with
    | zero => rw [List.modify_zero_cons, List.map_cons, h, List.map_cons]
    | succ i => rw [List.modify_succ_cons, List.map_cons, ih, List.map_cons]

section
variable (d : Draft) (f : Field)

theorem addProperty_fields :
    (d.addProperty f).parameters.map Parameter.toField = d.parameters.map Parameter.toField := by
  unfold addProperty
  split
  · rfl
  · have hproperty : ∀ p : Parameter, (p.addProperty f).toField = p.toField := fun _ => rfl
    exact map_modify hproperty _ _
  · rfl
  · rfl

theorem addProperty_type : (d.addProperty f).returns.type = d.returns.type := by
  unfold addProperty
  split <;> rfl

theorem addProperty_description : (d.addProperty f).description = d.description := by
  unfold addProperty
  split <;> rfl

end

section
variable (d : Draft) (x : Directive)

theorem follow_fields :
    (d.follow x).parameters.map Parameter.toField =
      d.parameters.map Parameter.toField ++ x.field?.toList := by
  cases x with
  | parameter field => exact List.map_append
  | property field => exact (d.addProperty_fields field).trans (List.append_nil _).symm
  | _ => exact (List.append_nil _).symm

theorem follow_type :
    (d.follow x).returns.type = (x.outcome?.map Outcome.type).getD d.returns.type := by
  cases x with
  | property field => exact d.addProperty_type field
  | _ => rfl

theorem follow_description (h : x.describes = false) :
    (d.follow x).description = d.description := by
  cases x with
  | property field => exact d.addProperty_description field
  | describe text => cases h
  | _ => rfl

end

/-- The draft after the directives of some more tags. -/
def followAll (d : Draft) (ts : List Tag) : Draft :=
  ts.foldl (fun d t => d.follow (Directive.ofTag t)) d

section
variable {α : Type} (d : Draft) (ts : List Tag)

/-- A list to which each tag adds what it says holds what all tags say. -/
theorem followAll_append {π : Draft → List α} {said : Tag → Option α}
    (h : ∀ d t, π (d.follow (Directive.ofTag t)) = π d ++ (said t).toList) :
    π (d.followAll ts) = π d ++ ts.filterMap said := by
  induction ts generalizing d with
  | nil => exact (List.append_nil _).symm
  | cons t ts ih =>
    rw [followAll, List.foldl_cons, ← followAll, ih, h, List.append_assoc, List.filterMap_cons]
    cases said t <;> rfl

/-- Where each tag that says something takes the place of what was said, the last one counts. -/
theorem followAll_last {π : Draft → Option α} {said : Tag → Option α}
    (h : ∀ d t, π (d.follow (Directive.ofTag t)) = (said t).or (π d)) :
    π (d.followAll ts) = (ts.filterMap said).getLast?.or (π d) := by
  induction ts generalizing d with
  | nil => rfl
  | cons t ts ih =>
    rw [followAll, List.foldl_cons, ← followAll, ih, h, List.filterMap_cons]
    cases said t with
    | none => rfl
    | some a =>
      rw [List.getLast?_cons]
      cases (ts.filterMap said).getLast? <;> rfl

/-- A mark that a tag sets stays set. -/
theorem followAll_mark {π : Draft → Bool} {sets : Tag → Bool}
    (h : ∀ d t, π (d.follow (Directive.ofTag t)) = (π d || sets t)) :
    π (d.followAll ts) = (π d || ts.any sets) := by
  induction ts generalizing d with
  | nil => exact (Bool.or_false _).symm
  | cons t ts ih =>
    rw [followAll, List.foldl_cons, ← followAll, ih, h, List.any_cons, Bool.or_assoc]

theorem followAll_fields :
    (d.followAll ts).parameters.map Parameter.toField =
      d.parameters.map Parameter.toField ++ ts.filterMap Tag.field? := by
  apply followAll_append d ts (π := fun d => d.parameters.map Parameter.toField)
  intro d t
  rw [← (Tag.directive_views t).1]
  exact d.follow_fields (Directive.ofTag t)

/-- Of several results the last one counts. -/
theorem followAll_type :
    (d.followAll ts).returns.type =
      ((ts.filterMap Tag.outcome?).getLast?.map Outcome.type).getD d.returns.type := by
  have hstep : ∀ d t, some (follow d (Directive.ofTag t)).returns.type =
      (t.outcome?.map Outcome.type).or (some d.returns.type) := by
    intro d t
    rw [d.follow_type, (Tag.directive_views t).2.1]
    cases t.outcome? <;> rfl
  have hlast := followAll_last (π := fun d => some d.returns.type) d ts hstep
  rw [← List.map_filterMap, List.getLast?_map] at hlast
  cases hread : (ts.filterMap Tag.outcome?).getLast? with
  | none => simpa [hread] using hlast
  | some outcome => simpa [hread] using hlast

theorem followAll_description (h : ∀ t ∈ ts, t.describes = false) :
    (d.followAll ts).description = d.description := by
  induction ts generalizing d with
  | nil => rfl
  | cons t ts ih =>
    have hstep : (d.follow (Directive.ofTag t)).description = d.description := by
      apply follow_description
      rw [(Tag.directive_views t).2.2]
      exact h t List.mem_cons_self
    rw [followAll, List.foldl_cons, ← followAll,
      ih _ fun u hu => h u (List.mem_cons_of_mem t hu), hstep]

end

section
variable (c : Comment)

/-- The parameters of a draft are those that the comment names, apart from their properties. -/
theorem ofComment_fields :
    (ofComment c).parameters.map Parameter.toField = c.tags.filterMap Tag.field? :=
  followAll_fields _ _

/-- The type of the result is the one that the last tag of a result gives. -/
theorem ofComment_type :
    (ofComment c).returns.type = (c.tags.filterMap Tag.outcome?).getLast?.bind Outcome.type := by
  have hlast := followAll_type { description := c.description } c.tags
  rw [ofComment, ← followAll, hlast]
  cases (c.tags.filterMap Tag.outcome?).getLast? <;> rfl

/-- Without tags that go on with it the description is that of the comment. -/
theorem ofComment_description (h : ∀ t ∈ c.tags, t.describes = false) :
    (ofComment c).description = c.description :=
  followAll_description _ _ h

end

end Draft

end DocComments
