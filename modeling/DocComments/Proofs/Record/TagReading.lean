import DocComments.Proofs.Record.Draft
import DocComments.Record.Reader

/-!
# What a record takes from its tags

A draft is written tag by tag, and where a property goes depends on what came before it. Here each
part of a record is told from the list of tags as a whole, without a draft and without a place that
properties go to: a list of texts holds the values of its tags, the last tag of a sort decides where
only one can hold, and the properties of a parameter, an error or a result are those that stand
between its tag and the next tag that has properties of its own. The main statement says that the
record written tag by tag is this one, for every comment and every declaration, that no property is
looked for beyond the end of a list, and which properties no tag has.
-/

namespace DocComments

namespace Tag

/-- The keys of the tags that have properties of their own. -/
def ownerKeys : List String := ["param", "throws", "returns", "return"]

/-- The keys that have a meaning. -/
def knownKeys : List String :=
  ["public", "private", "protected", "api", "access", "desc", "description", "ignore", "chainable",
   "deprecated", "see", "todo", "version", "since", "throws", "param", "returns", "return",
   "property"]

/-- The value of a tag with one of the given keys. -/
def value? (keys : List String) (t : Tag) : Option String :=
  if t.key ∈ keys then some t.value else none

/-- The values of the tags with one of the given keys, in order. -/
def values (keys : List String) (ts : List Tag) : List String :=
  ts.filterMap (value? keys)

/-- The access that a tag gives, by its key alone or by a value that is not empty. -/
def access? (t : Tag) : Option Access :=
  if t.key ∈ ["public", "private", "protected"] then some (Access.ofText t.key)
  else if t.key ∈ ["api", "access"] ∧ t.value ≠ "" then some (Access.ofText t.value)
  else none

/-- The field that a tag declares if it is one of a property. -/
def property? (t : Tag) : Option Field :=
  if t.key = "property" then some (Field.ofTag t.value.toList) else none

/-- The properties before the first tag that has properties of its own. -/
def leadingProperties (ts : List Tag) : List Field :=
  (ts.takeWhile (·.key ∉ ownerKeys)).filterMap property?

/-- The tags with one of the given keys, in order and each with the properties that stand between
it and the next tag that has properties of its own. -/
def owners (keys : List String) : List Tag → List (Tag × List Field)
  | [] => []
  | t :: behind =>
    if t.key ∈ keys then (t, leadingProperties behind) :: owners keys behind
    else owners keys behind

/-- The parameter that a tag and its properties declare. -/
def toParameter (t : Tag) (properties : List Field) : Parameter :=
  { Field.ofTag t.value.toList with properties := properties }

/-- The outcome that a tag and its properties tell of. -/
def toOutcome (t : Tag) (properties : List Field) : Outcome :=
  { Outcome.ofTag t.value.toList with properties := properties }

/-- The parameters that the tags declare. -/
def parameters (ts : List Tag) : List Parameter :=
  (owners ["param"] ts).map fun owner => owner.1.toParameter owner.2

/-- The errors that the tags tell of. -/
def errors (ts : List Tag) : List Outcome :=
  (owners ["throws"] ts).map fun owner => owner.1.toOutcome owner.2

/-- The result that the last tag of a result tells of. -/
def result? (ts : List Tag) : Option Outcome :=
  (owners ["returns", "return"] ts).getLast?.map fun owner => owner.1.toOutcome owner.2

section
variable (t : Tag) (ts : List Tag)

theorem leadingProperties_cons_owner (h : t.key ∈ ownerKeys) :
    leadingProperties (t :: ts) = [] := by
  simp [leadingProperties, h]

theorem leadingProperties_cons (h : t.key ∉ ownerKeys) :
    leadingProperties (t :: ts) = t.property?.toList ++ leadingProperties ts := by
  rw [leadingProperties, List.takeWhile_cons_of_pos (by simpa using h), List.filterMap_cons]
  cases t.property? <;> rfl

theorem parameters_cons :
    parameters (t :: ts) =
      (if t.key = "param" then [t.toParameter (leadingProperties ts)] else []) ++
        parameters ts := by
  by_cases h : t.key = "param" <;> simp [parameters, owners, h]

theorem errors_cons :
    errors (t :: ts) =
      (if t.key = "throws" then [t.toOutcome (leadingProperties ts)] else []) ++ errors ts := by
  by_cases h : t.key = "throws" <;> simp [errors, owners, h]

theorem result?_cons :
    result? (t :: ts) =
      (result? ts).or
        (if t.key = "returns" ∨ t.key = "return" then some (t.toOutcome (leadingProperties ts))
          else none) := by
  by_cases h : t.key = "returns" ∨ t.key = "return"
  · simp only [result?, owners, List.mem_cons, List.not_mem_nil, or_false, h, if_true,
      List.getLast?_cons]
    cases (owners ["returns", "return"] ts).getLast? <;> rfl
  · simp [result?, owners, h]

/-- There are parameters if there is a tag of one. -/
theorem isEmpty_parameters : (parameters ts).isEmpty = !ts.any (·.key = "param") := by
  induction ts with
  | nil => rfl
  | cons t ts ih =>
    rw [parameters_cons, List.any_cons]
    by_cases h : t.key = "param"
    · simp [h]
    · simp [h, ih]

/-- Each property stands behind exactly one tag that has properties of its own, or before all of
them. -/
theorem filterMap_property? :
    ts.filterMap property? =
      leadingProperties ts ++ (owners ownerKeys ts).flatMap Prod.snd := by
  induction ts with
  | nil => rfl
  | cons t ts ih =>
    by_cases h : t.key ∈ ownerKeys
    · have hnone : t.property? = none := by
        rw [property?, if_neg]
        rintro hkey
        rw [hkey] at h
        exact absurd h (by decide)
      rw [leadingProperties_cons_owner t ts h, List.filterMap_cons_none hnone, ih, owners, if_pos h]
      rfl
    · rw [leadingProperties_cons t ts h, owners, if_neg h, List.append_assoc, ← ih,
        List.filterMap_cons]
      cases t.property? <;> rfl

end

end Tag

/-- The record of a declaration with a comment, each part told from all the tags at once. -/
def Record.reading (d : Declaration) (c : Comment) : Record :=
  let returns := (Tag.result? c.tags).getD {}
  { name := d.name
    construct := d.construct
    description := "\n".intercalate
      ((c.description :: Tag.values ["desc", "description"] c.tags).dropWhile (· = ""))
    access := (c.tags.filterMap Tag.access?).getLast?.getD
      (if d.name.toList.head? = some '_' then .privately else .everyone)
    chainable := c.tags.any (·.key = "chainable")
    deprecated := c.tags.any (·.key = "deprecated")
    version := (Tag.values ["version"] c.tags).getLast?
    since := (Tag.values ["since"] c.tags).getLast?
    todos := Tag.values ["todo"] c.tags
    seeAlso := Tag.values ["see"] c.tags
    throws := Tag.errors c.tags
    examples := c.examples
    parameters :=
      if c.tags.any (·.key = "param") then Tag.parameters c.tags else d.parameters?.getD []
    returns := returns
    customTags := c.tags.filter (·.key ∉ Tag.knownKeys)
    ignore := c.tags.any (·.key = "ignore")
    signature :=
      if d.construct.isCallable then some (Record.signatureText d returns) else none }

/-- An outcome has no properties but those that are added to it. -/
theorem Outcome.properties_ofTag (s : List Char) : (Outcome.ofTag s).properties = [] := by
  unfold Outcome.ofTag
  split <;> rfl

namespace Draft

/-- What following one tag does to a draft, the tags apart that have properties or are one. -/
structure Follows (t : Tag) (d e : Draft) : Prop where
  todos : e.todos = d.todos ++ (t.value? ["todo"]).toList
  seeAlso : e.seeAlso = d.seeAlso ++ (t.value? ["see"]).toList
  customTags : e.customTags = d.customTags ++ (Option.guard (·.key ∉ Tag.knownKeys) t).toList
  version : e.version = (t.value? ["version"]).or d.version
  since : e.since = (t.value? ["since"]).or d.since
  access? : e.access? = t.access?.or d.access?
  ignore : e.ignore = (d.ignore || t.key = "ignore")
  chainable : e.chainable = (d.chainable || t.key = "chainable")
  deprecated : e.deprecated = (d.deprecated || t.key = "deprecated")
  description :
    e.description = (t.value? ["desc", "description"]).toList.foldl describe d.description
  filed : t.key ∉ "property" :: Tag.ownerKeys →
    e.parameters = d.parameters ∧ e.throws = d.throws ∧ e.returns = d.returns ∧
      e.target? = d.target?

/-- A property changes nothing but the lists that properties go to. -/
theorem exists_addProperty_eq (d : Draft) (f : Field) :
    ∃ parameters throws returns, d.addProperty f =
      { d with parameters := parameters, throws := throws, returns := returns } := by
  unfold addProperty
  split <;> exact ⟨_, _, _, rfl⟩

theorem follows (d : Draft) (t : Tag) : Follows t d (d.follow (Directive.ofTag t)) := by
  unfold Directive.ofTag
  split
  case h_4 | h_5 =>
    split <;> constructor <;>
      simp [follow, Tag.value?, Tag.access?, Tag.ownerKeys, Tag.knownKeys, Option.guard, *]
  case h_19 =>
    rename_i hkey
    obtain ⟨parameters, throws, returns, hadd⟩ :=
      d.exists_addProperty_eq (Field.ofTag t.value.toList)
    constructor <;>
      simp [follow, hadd, Tag.value?, Tag.access?, Tag.ownerKeys, Tag.knownKeys, Option.guard, hkey]
  case h_20 =>
    constructor <;>
      simp_all [follow, Tag.value?, Tag.access?, Tag.ownerKeys, Tag.knownKeys, Option.guard]
  all_goals
    rename_i hkey
    constructor <;>
      simp [follow, Tag.value?, Tag.access?, Tag.ownerKeys, Tag.knownKeys, Option.guard, hkey]

section
variable (ts : List Tag) (d : Draft)

theorem followAll_describe :
    (d.followAll ts).description =
      (Tag.values ["desc", "description"] ts).foldl describe d.description := by
  induction ts generalizing d with
  | nil => rfl
  | cons t ts ih =>
    rw [followAll, List.foldl_cons, ← followAll, ih, (d.follows t).description, Tag.values,
      Tag.values, List.filterMap_cons]
    cases t.value? ["desc", "description"] <;> rfl

end

/-- Texts are put on lines of their own from the first one on that is not empty. -/
theorem foldl_describe (s : String) (texts : List String) :
    texts.foldl describe s = "\n".intercalate ((s :: texts).dropWhile (· = "")) := by
  induction texts generalizing s with
  | nil =>
    by_cases hs : s = ""
    · simp [hs]
    · simp [hs]
  | cons text texts ih =>
    rw [List.foldl_cons, ih]
    by_cases hs : s = ""
    · simp [describe, hs]
    · have hne : s ++ "\n" ++ text ≠ "" := by simp
      rw [describe, if_neg hs, List.dropWhile_cons_of_neg (by simp),
        List.dropWhile_cons_of_neg (by simpa using hs)]
      simp [String.intercalate_cons_append]

/-! ### Where properties go -/

/-- The draft with some more properties of the target there is. -/
def addProperties (d : Draft) (fs : List Field) : Draft :=
  fs.foldl addProperty d

/-- The last of some elements is the one at the place where it was put. -/
theorem modify_length_append {α : Type} (as : List α) (a : α) (f : α → α) :
    (as ++ [a]).modify as.length f = as ++ [f a] := by
  induction as with
  | nil => rfl
  | cons b as ih => rw [List.cons_append, List.length_cons, List.modify_succ_cons, ih]; rfl

/-- The parts of a draft to which properties go. -/
def filed (d : Draft) : List Parameter × List Outcome × Outcome :=
  (d.parameters, d.throws, d.returns)

section
variable {d : Draft} (fs : List Field)

/-- Properties behind a parameter are its properties. -/
theorem filed_addProperties_parameter {ps : List Parameter} {p : Parameter}
    (htarget : d.target? = some (.parameter ps.length)) (hlast : d.parameters = ps ++ [p]) :
    (d.addProperties fs).filed =
      (ps ++ [{ p with properties := p.properties ++ fs }], d.throws, d.returns) := by
  induction fs generalizing d p with
  | nil => simp [addProperties, filed, hlast]
  | cons f fs ih =>
    have hstep : d.addProperty f = { d with parameters := ps ++ [p.addProperty f] } := by
      simp only [addProperty, htarget, hlast, modify_length_append]
    have hsame : (d.addProperty f).target? = some (.parameter ps.length) := by
      rw [hstep]
      exact htarget
    have hchanged : (d.addProperty f).parameters = ps ++ [p.addProperty f] := by rw [hstep]
    rw [addProperties, List.foldl_cons, ← addProperties, ih hsame hchanged, hstep]
    simp [Parameter.addProperty]

/-- Properties behind an error are its properties. -/
theorem filed_addProperties_thrown {os : List Outcome} {o : Outcome}
    (htarget : d.target? = some (.thrown os.length)) (hlast : d.throws = os ++ [o]) :
    (d.addProperties fs).filed =
      (d.parameters, os ++ [{ o with properties := o.properties ++ fs }], d.returns) := by
  induction fs generalizing d o with
  | nil => simp [addProperties, filed, hlast]
  | cons f fs ih =>
    have hstep : d.addProperty f = { d with throws := os ++ [o.addProperty f] } := by
      simp only [addProperty, htarget, hlast, modify_length_append]
    have hsame : (d.addProperty f).target? = some (.thrown os.length) := by
      rw [hstep]
      exact htarget
    have hchanged : (d.addProperty f).throws = os ++ [o.addProperty f] := by rw [hstep]
    rw [addProperties, List.foldl_cons, ← addProperties, ih hsame hchanged, hstep]
    simp [Outcome.addProperty]

/-- Properties behind a result are its properties. -/
theorem filed_addProperties_returned (htarget : d.target? = some .returned) :
    (d.addProperties fs).filed =
      (d.parameters, d.throws, { d.returns with properties := d.returns.properties ++ fs }) := by
  induction fs generalizing d with
  | nil => simp [addProperties, filed]
  | cons f fs ih =>
    have hstep : d.addProperty f = { d with returns := d.returns.addProperty f } := by
      simp only [addProperty, htarget]
    have hsame : (d.addProperty f).target? = some .returned := by
      rw [hstep]
      exact htarget
    rw [addProperties, List.foldl_cons, ← addProperties, ih hsame, hstep]
    simp [Outcome.addProperty]

/-- Without a target properties go nowhere. -/
theorem filed_addProperties_none (htarget : d.target? = none) :
    (d.addProperties fs).filed = d.filed := by
  induction fs generalizing d with
  | nil => rfl
  | cons f fs ih =>
    have hstep : d.addProperty f = d := by simp only [addProperty, htarget]
    rw [addProperties, List.foldl_cons, ← addProperties, hstep, ih htarget]

/-- Where properties go depends on nothing but the parts to which they go, and on which is the
target. -/
theorem filed_addProperties_congr {e : Draft} (hfiled : d.filed = e.filed)
    (htarget : d.target? = e.target?) :
    (d.addProperties fs).filed = (e.addProperties fs).filed := by
  induction fs generalizing d e with
  | nil => exact hfiled
  | cons f fs ih =>
    simp only [filed, Prod.mk.injEq] at hfiled
    rw [addProperties, addProperties, List.foldl_cons, List.foldl_cons]
    apply ih
    · unfold addProperty
      rw [htarget]
      split <;> simp [filed, hfiled]
    · unfold addProperty
      rw [htarget]
      split <;> simp [htarget]

end

section
variable (d : Draft) (t : Tag) (fs : List Field)

/-- A tag of a parameter adds one, to which the properties behind it belong. -/
theorem filed_follow_param (hkey : t.key = "param") :
    ((d.follow (Directive.ofTag t)).addProperties fs).filed =
      (d.parameters ++ [t.toParameter fs], d.throws, d.returns) := by
  have htag : Directive.ofTag t = .parameter (Field.ofTag t.value.toList) := by
    simp [Directive.ofTag, hkey]
  rw [htag, filed_addProperties_parameter (d := d.follow _) fs rfl rfl]
  simp [follow, Tag.toParameter, Field.toParameter]

/-- A tag of an error adds one, to which the properties behind it belong. -/
theorem filed_follow_throws (hkey : t.key = "throws") :
    ((d.follow (Directive.ofTag t)).addProperties fs).filed =
      (d.parameters, d.throws ++ [t.toOutcome fs], d.returns) := by
  have htag : Directive.ofTag t = .throws (Outcome.ofTag t.value.toList) := by
    simp [Directive.ofTag, hkey]
  rw [htag, filed_addProperties_thrown (d := d.follow _) fs rfl rfl]
  simp [follow, Tag.toOutcome, Outcome.properties_ofTag]

/-- A tag of a result replaces the result there was, with the properties that it had. -/
theorem filed_follow_returns (hkey : t.key = "returns" ∨ t.key = "return") :
    ((d.follow (Directive.ofTag t)).addProperties fs).filed =
      (d.parameters, d.throws, t.toOutcome fs) := by
  have htag : Directive.ofTag t = .returns (Outcome.ofTag t.value.toList) := by
    rcases hkey with hkey | hkey <;> simp [Directive.ofTag, hkey]
  rw [htag, filed_addProperties_returned (d := d.follow _) fs rfl]
  simp [follow, Tag.toOutcome, Outcome.properties_ofTag]

/-- Any other tag adds a property to those that go to the target there was, or nothing. -/
theorem filed_follow (howner : t.key ∉ Tag.ownerKeys) :
    ((d.follow (Directive.ofTag t)).addProperties fs).filed =
      (d.addProperties (t.property?.toList ++ fs)).filed := by
  by_cases hproperty : t.key = "property"
  · have htag : Directive.ofTag t = .property (Field.ofTag t.value.toList) := by
      simp [Directive.ofTag, hproperty]
    rw [htag, Tag.property?, if_pos hproperty]
    rfl
  · have hsame := (d.follows t).filed (by simp [hproperty, howner])
    have hfiled : (d.follow (Directive.ofTag t)).filed = d.filed := by
      simp only [filed, hsame]
    rw [Tag.property?, if_neg hproperty, filed_addProperties_congr fs hfiled hsame.2.2.2]
    rfl

end

section
variable (d : Draft) (ts : List Tag)

/-- The parts to which properties go, after all tags: the properties before the first tag that has
some of its own belong to the target there was. -/
theorem filed_followAll :
    (d.followAll ts).filed =
      ((d.addProperties (Tag.leadingProperties ts)).filed.1 ++ Tag.parameters ts,
        (d.addProperties (Tag.leadingProperties ts)).filed.2.1 ++ Tag.errors ts,
        (Tag.result? ts).getD (d.addProperties (Tag.leadingProperties ts)).filed.2.2) := by
  induction ts generalizing d with
  | nil =>
    simp [Tag.leadingProperties, Tag.parameters, Tag.errors, Tag.result?, Tag.owners,
      addProperties, followAll, filed]
  | cons t ts ih =>
    rw [followAll, List.foldl_cons, ← followAll, ih, Tag.parameters_cons, Tag.errors_cons,
      Tag.result?_cons]
    by_cases howner : t.key ∈ Tag.ownerKeys
    · rw [Tag.leadingProperties_cons_owner t ts howner]
      simp only [Tag.ownerKeys, List.mem_cons, List.not_mem_nil, or_false] at howner
      rcases howner with hkey | hkey | hkey
      · rw [filed_follow_param d t _ hkey]
        simp [hkey, addProperties, filed]
      · rw [filed_follow_throws d t _ hkey]
        simp [hkey, addProperties, filed]
      · rw [filed_follow_returns d t _ hkey, if_pos hkey]
        rcases hkey with hkey | hkey <;> cases Tag.result? ts <;>
          simp [hkey, addProperties, filed]
    · rw [Tag.leadingProperties_cons t ts howner, filed_follow d t _ howner]
      have hkeys : t.key ≠ "param" ∧ t.key ≠ "throws" ∧
          ¬ (t.key = "returns" ∨ t.key = "return") := by
        simpa [Tag.ownerKeys] using howner
      rw [if_neg hkeys.1, if_neg hkeys.2.1, if_neg hkeys.2.2, List.nil_append, List.nil_append,
        Option.or_none]

/-! ### The place of the target -/

/-- The place of the target, if it has one, is a place in its list. -/
def TargetInRange : Prop :=
  match d.target? with
  | some (.parameter index) => index < d.parameters.length
  | some (.thrown index) => index < d.throws.length
  | _ => True

theorem TargetInRange.follow {d : Draft} (h : d.TargetInRange) (x : Directive) :
    (d.follow x).TargetInRange := by
  cases x with
  | parameter field => simp [TargetInRange, Draft.follow]
  | throws outcome => simp [TargetInRange, Draft.follow]
  | returns outcome => simp [TargetInRange, Draft.follow]
  | property field =>
    rw [Draft.follow, addProperty]
    split
    · exact h
    · rename_i htarget
      simpa [TargetInRange, htarget] using h
    · rename_i htarget
      simpa [TargetInRange, htarget] using h
    · rename_i htarget
      simp [TargetInRange, htarget]
  | _ => exact h

theorem TargetInRange.followAll {d : Draft} (h : d.TargetInRange) :
    (d.followAll ts).TargetInRange := by
  induction ts generalizing d with
  | nil => exact h
  | cons t ts ih => exact ih (h.follow (Directive.ofTag t))

end

end Draft

namespace Record
variable (d : Declaration) (c : Comment)

/-- The record that is written tag by tag is the one that is told from all tags at once. -/
theorem ofComment_eq : ofComment d c = reading d c := by
  have hdraft : Draft.ofComment c = Draft.followAll { description := c.description } c.tags := rfl
  have hfiled := Draft.filed_followAll { description := c.description } c.tags
  rw [Draft.filed_addProperties_none _ rfl, ← hdraft] at hfiled
  simp only [Draft.filed, List.nil_append, Prod.mk.injEq] at hfiled
  obtain ⟨hparameters, hthrows, hreturns⟩ := hfiled
  have hdescription : (Draft.ofComment c).description = (reading d c).description := by
    rw [hdraft, Draft.followAll_describe, Draft.foldl_describe]
    rfl
  have hlists : (Draft.ofComment c).todos = Tag.values ["todo"] c.tags ∧
      (Draft.ofComment c).seeAlso = Tag.values ["see"] c.tags ∧
      (Draft.ofComment c).customTags = c.tags.filter (·.key ∉ Tag.knownKeys) := by
    rw [hdraft]
    refine ⟨?_, ?_, ?_⟩
    · exact Draft.followAll_append _ c.tags fun d t => (d.follows t).todos
    · exact Draft.followAll_append _ c.tags fun d t => (d.follows t).seeAlso
    · have hcustom := Draft.followAll_append { description := c.description } c.tags
        fun d t => (d.follows t).customTags
      rw [List.filterMap_eq_filter] at hcustom
      exact hcustom
  have hlast : (Draft.ofComment c).version = (Tag.values ["version"] c.tags).getLast? ∧
      (Draft.ofComment c).since = (Tag.values ["since"] c.tags).getLast? ∧
      (Draft.ofComment c).access? = (c.tags.filterMap Tag.access?).getLast? := by
    rw [hdraft]
    refine ⟨?_, ?_, ?_⟩
    · exact (Draft.followAll_last _ c.tags fun d t => (d.follows t).version).trans (Option.or_none)
    · exact (Draft.followAll_last _ c.tags fun d t => (d.follows t).since).trans (Option.or_none)
    · exact (Draft.followAll_last _ c.tags fun d t => (d.follows t).access?).trans (Option.or_none)
  have hmarks : (Draft.ofComment c).ignore = c.tags.any (·.key = "ignore") ∧
      (Draft.ofComment c).chainable = c.tags.any (·.key = "chainable") ∧
      (Draft.ofComment c).deprecated = c.tags.any (·.key = "deprecated") := by
    rw [hdraft]
    refine ⟨?_, ?_, ?_⟩
    · exact Draft.followAll_mark _ c.tags fun d t => (d.follows t).ignore
    · exact Draft.followAll_mark _ c.tags fun d t => (d.follows t).chainable
    · exact Draft.followAll_mark _ c.tags fun d t => (d.follows t).deprecated
  simp only [ofComment, reading, hparameters, hthrows, hreturns, hdescription, hlists, hlast,
    hmarks, Tag.isEmpty_parameters, Access.ofName]
  cases c.tags.any (·.key = "param") <;> rfl

/-- A record is told from all its tags at once. On the way through the tags the place of the target
is always a place in its list. The properties before the first tag that has some of its own are
lost, and so are those of a result that is not the last; all others are properties of their
parameter, error or result. -/
theorem ofComment_eq_reading :
    ofComment d c = reading d c ∧
      (∀ n, (Draft.followAll { description := c.description } (c.tags.take n)).TargetInRange) ∧
      c.tags.filterMap Tag.property? =
        Tag.leadingProperties c.tags ++ (Tag.owners Tag.ownerKeys c.tags).flatMap Prod.snd := by
  refine ⟨ofComment_eq d c, ?_, Tag.filterMap_property? c.tags⟩
  intro n
  exact Draft.TargetInRange.followAll (c.tags.take n) trivial

end Record

end DocComments
