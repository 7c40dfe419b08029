import DocComments.Proofs.Expression.Locality
import DocComments.Proofs.Signature.Commas
import DocComments.Proofs.Signature.Words
import DocComments.Signature.Arguments

/-!
# Written arguments

Arguments that are written as names, some with three points in front and some with a default, are
found one for one, each with its name, and with what its own default evaluates to. A default is any
text that closes what it opens and has no dividing comma; whether it is a literal has no bearing on
the other arguments. Patterns in brackets are not written here.
-/

namespace DocComments.Signature
open Text (trim trimStart trimEnd isBlankText)
open Unicode (isBlank)

/-- The value of a default, if there is one that can be evaluated and is not undefined. -/
def defaultValue? (scope : List String) (default? : Option (List Char)) : Option Literal :=
  (default?.bind fun d =>
    (Expression.evaluate ⟨scope, Expression.defaultLimit⟩ d).toOption).filter (!·.isUndefined)

theorem Argument.name_toField (scope : List String) (a : Argument) :
    (a.toField scope).name = String.ofList a.name := by
  unfold Argument.toField
  split
  · rfl
  · split <;> rfl

/-- An argument declares its name, whether it has a default, and the value of that with its type.
Blanks behind the default do not matter. -/
theorem toParameter_trimEnd (scope : List String) (name : List Char)
    (default? : Option (List Char)) :
    ((⟨name, default?.map trimEnd⟩ : Argument).toField scope).toParameter =
      { name := String.ofList name
        declaredType := (defaultValue? scope default?).bind Literal.typeName
        required := default?.isNone
        defaultValue := defaultValue? scope default? } := by
  unfold defaultValue? Argument.toField
  cases default? with
  | none => rfl
  | some d =>
    simp only [Option.map_some, Option.bind_some, ← Expression.toOption_evaluate_trimEnd (s := d)]
    cases Expression.evaluate ⟨scope, Expression.defaultLimit⟩ (trimEnd d) with
    | error e => rfl
    | ok l =>
      cases l <;> rfl

/-- Every parameter is declared by a piece between commas. -/
theorem exists_argument_of_mem {s : List Char} {p : Parameter}
    (h : p ∈ (arguments s).parameters) :
    ∃ scope piece a, argument? piece = some a ∧ p = (Argument.toField scope a).toParameter := by
  unfold arguments at h
  split at h
  · cases h
  · cases h
  · obtain ⟨a, ha, rfl⟩ := List.mem_map.mp h
    obtain ⟨piece, -, hread⟩ := List.mem_filterMap.mp ha
    exact ⟨_, piece, a, hread, rfl⟩

/-- Every parameter is declared by an argument. -/
theorem exists_of_mem_arguments {s : List Char} {p : Parameter}
    (h : p ∈ (arguments s).parameters) : ∃ scope a, p = (Argument.toField scope a).toParameter := by
  obtain ⟨scope, -, a, -, rfl⟩ := exists_argument_of_mem h
  exact ⟨scope, a, rfl⟩

/-- An argument that is written as a name. -/
structure WrittenArgument where
  points : Bool
  name : List Char
  default? : Option (List Char)
  isIdentifier : IsIdentifier name
  notReserved : String.ofList name ∉ reservedWords
  isClosed : ∀ d, default? = some d → IsClosed d

namespace WrittenArgument

/-- The default as it is written, with the equals sign in front. -/
def defaultText : Option (List Char) → List Char
  | none => []
  | some d => '=' :: d

/-- The argument as it is written. -/
def text (a : WrittenArgument) : List Char :=
  (if a.points then "...".toList else []) ++ (a.name ++ defaultText a.default?)

/-- The arguments as they are written, with commas between them. -/
def listText (as : List WrittenArgument) : List Char :=
  List.intercalate [','] (as.map text)

/-- A fragment with the arguments between its parentheses. -/
def fragmentText (lead : List Char) (as : List WrittenArgument) (behind : List Char) : List Char :=
  lead ++ '(' :: (listText as ++ ')' :: behind)

/-- The names of the arguments. -/
def names (as : List WrittenArgument) : List String :=
  as.map fun a => String.ofList a.name

/-- The value of the default, if it has one and is not undefined. -/
def value? (scope : List String) (a : WrittenArgument) : Option Literal :=
  (a.default?.bind fun d =>
    (Expression.evaluate ⟨scope, Expression.defaultLimit⟩ d).toOption).filter (!·.isUndefined)

/-- The parameter that the argument stands for. -/
def parameter (scope : List String) (a : WrittenArgument) : Parameter where
  name := String.ofList a.name
  declaredType := (a.value? scope).bind Literal.typeName
  required := a.default?.isNone
  defaultValue := a.value? scope

/-- The argument with another default. -/
def withDefault (d : List Char) (hd : IsClosed d) (a : WrittenArgument) : WrittenArgument :=
  { a with
    default? := some d
    isClosed := by
      rintro _ ⟨⟩
      exact hd }

/-! ### One argument -/

section
variable (a : WrittenArgument)

theorem exists_name_eq : ∃ c s, a.name = c :: s ∧ isIdentifierStart c = true := by
  have h := a.isIdentifier
  cases hname : a.name with
  | nil =>
    rw [hname] at h
    exact h.elim
  | cons c s =>
    rw [hname] at h
    exact ⟨c, s, rfl, h.1⟩

/-- A character of a name opens nothing and closes nothing. -/
theorem isPlain_of_isIdentifierPart {c : Char} (h : isIdentifierPart c = true) :
    Surrounding.isPlain c = true :=
  Surrounding.isPlain_of_forall (by decide) h

theorem isClosed_text : IsClosed a.text := by
  have hpoints : IsClosed (if a.points then "...".toList else []) := by
    cases a.points <;> rfl
  have hname : IsClosed a.name := Surrounding.through?_of_isPlain fun c hc =>
    isPlain_of_isIdentifierPart (a.isIdentifier.isIdentifierPart c hc)
  have hdefault : IsClosed (defaultText a.default?) := by
    cases hd : a.default? with
    | none => rfl
    | some d => exact IsClosed.append (s := ['=']) rfl (a.isClosed d hd)
  exact hpoints.append (hname.append hdefault)

theorem points_append_eq (t : List Char) :
    ∃ c s, (if a.points then "...".toList else []) ++ (a.name ++ t) = c :: s ∧
      (c = '.' ∨ isIdentifierStart c = true) := by
  cases a.points with
  | true => exact ⟨'.', _, rfl, .inl rfl⟩
  | false =>
    obtain ⟨c, s, hname, hc⟩ := a.exists_name_eq
    exact ⟨c, s ++ t, by rw [hname]; rfl, .inr hc⟩

/-- Trimming takes from an argument the blanks behind its default. -/
theorem trim_text :
    trim a.text = (if a.points then "...".toList else []) ++
      (a.name ++ defaultText (a.default?.map trimEnd)) := by
  have hstart : trimStart a.text = a.text := by
    obtain ⟨c, s, htext, hc⟩ := a.points_append_eq (defaultText a.default?)
    rw [text, htext]
    apply Text.trimStart_cons_of_not_blank
    rcases hc with rfl | hc
    · rfl
    · exact not_isBlank_of_isIdentifierStart hc
  have hpoints : ∀ c ∈ if a.points then "...".toList else [], isBlank c = false := by
    cases a.points with
    | true =>
      have hpoint : isBlank '.' = false := rfl
      simp [hpoint]
    | false => exact fun c hc => absurd hc List.not_mem_nil
  have hname : ∀ c ∈ a.name, isBlank c = false := fun c hc =>
    not_isBlank_of_isPathPart
      (isPathPart_of_isIdentifierPart (a.isIdentifier.isIdentifierPart c hc))
  have hdefault : trimEnd (defaultText a.default?) = defaultText (a.default?.map trimEnd) := by
    cases a.default? with
    | none => rfl
    | some d => exact Text.trimEnd_cons_of_not_blank rfl d
  rw [trim, hstart, text, Text.trimEnd_append_of_forall hpoints,
    Text.trimEnd_append_of_forall hname, hdefault]

/-- An argument that is a name starts with no bracket. -/
theorem patternArgument?_trim_text : patternArgument? (trim a.text) = none := by
  obtain ⟨c, s, htext, hc⟩ := a.points_append_eq (defaultText (a.default?.map trimEnd))
  have hstarts : ∀ d, d ≠ '.' → isIdentifierStart d = false → c ≠ d := by
    rintro d hpoint hstart rfl
    rcases hc with rfl | hc
    · exact hpoint rfl
    · rw [hc] at hstart
      cases hstart
  have hbrace : c ≠ '\x7b' := hstarts _ (by decide) (by decide)
  have hbracket : c ≠ '[' := hstarts _ (by decide) (by decide)
  rw [trim_text, htext]
  unfold patternArgument?
  split
  · rename_i heq
    exact absurd (List.cons.inj heq).1 hbrace
  · rename_i heq
    exact absurd (List.cons.inj heq).1 hbracket
  · rfl

theorem dropPoints_points_append (t : List Char) :
    dropPoints ((if a.points then "...".toList else []) ++ (a.name ++ t)) = a.name ++ t := by
  cases a.points with
  | true => rfl
  | false =>
    obtain ⟨c, s, hname, hc⟩ := a.exists_name_eq
    have hpoint : c ≠ '.' := by
      rintro rfl
      exact absurd hc (by decide)
    have hnone : "...".toList.isPrefixOf? (a.name ++ t) = none := by
      rw [Text.isPrefixOf?_eq_none_iff, hname]
      exact fun h => hpoint (List.cons_prefix_cons.mp h).1.symm
    rw [if_neg Bool.false_ne_true, List.nil_append, dropPoints, hnone, Option.getD_none]

/-- A written argument is read as the name and the default that it is written with. -/
theorem argument?_text : argument? a.text = some ⟨a.name, a.default?.map trimEnd⟩ := by
  have hend : ∀ c, (defaultText (a.default?.map trimEnd)).head? = some c →
      isIdentifierPart c = false := by
    cases a.default? with
    | none =>
      rintro c ⟨⟩
    | some d =>
      rintro c ⟨⟩
      decide
  have hbehind : afterEquals? (defaultText (a.default?.map trimEnd)) = a.default?.map trimEnd := by
    cases a.default? <;> rfl
  rw [argument?, a.patternArgument?_trim_text, a.trim_text]
  simp only [namedArgument?, a.dropPoints_points_append, identifier?_append a.isIdentifier hend,
    if_neg a.notReserved, hbehind]

/-- What is read of a written argument declares the parameter that it stands for. -/
theorem toParameter_eq (scope : List String) :
    ((⟨a.name, a.default?.map trimEnd⟩ : Argument).toField scope).toParameter =
      a.parameter scope :=
  toParameter_trimEnd scope a.name a.default?

end

/-! ### All arguments -/

section
variable {as : List WrittenArgument}

theorem parameters_nil : parameters [] = [] := rfl

theorem parameters_listText : parameters (listText as) = as.map (parameter (names as)) := by
  by_cases hne : as = []
  · subst hne
    exact parameters_nil
  have hpieces : pieces (listText as) = as.map text := by
    refine pieces_intercalate ?_ ?_
    · intro hnil
      exact hne (List.map_eq_nil_iff.mp hnil)
    · intro p hp
      obtain ⟨a, -, rfl⟩ := List.mem_map.mp hp
      exact a.isClosed_text
  have harguments : (as.map text).filterMap argument? =
      as.map fun a => (⟨a.name, a.default?.map trimEnd⟩ : Argument) := by
    rw [List.filterMap_map, ← List.filterMap_eq_map]
    congr 1
    funext a
    exact a.argument?_text
  rw [parameters, hpieces, harguments, List.map_map, List.map_map]
  refine List.map_congr_left ?_
  intro a _
  exact a.toParameter_eq (names as)

/-- Another default for one argument leaves the names as they are. -/
theorem names_modify_withDefault (i : Nat) {d : List Char} (hd : IsClosed d) :
    names (as.modify i (withDefault d hd)) = names as := by
  apply List.ext_getElem?
  intro j
  rw [names, names, List.getElem?_map, List.getElem?_map, List.getElem?_modify]
  split
  · cases as[j]? <;> rfl
  · cases as[j]? <;> rfl

end

end WrittenArgument

open WrittenArgument

/-- The arguments between the parentheses of a fragment. -/
theorem betweenParentheses?_append {lead behind : List Char} (hlead : '(' ∉ lead)
    (hbehind : ')' ∉ behind) (inside : List Char) :
    betweenParentheses? (lead ++ '(' :: (inside ++ ')' :: behind)) = some inside := by
  have hopen : (lead ++ '(' :: (inside ++ ')' :: behind)).dropWhile (· ≠ '(') =
      '(' :: (inside ++ ')' :: behind) := by
    rw [List.dropWhile_append_of_pos]
    · rfl
    · intro c hc
      exact decide_eq_true fun h => hlead (h ▸ hc)
  have hclose : (inside ++ ')' :: behind).reverse.dropWhile (· ≠ ')') = ')' :: inside.reverse := by
    rw [List.reverse_append, List.reverse_cons, List.append_assoc, List.dropWhile_append_of_pos]
    · rfl
    · intro c hc
      exact decide_eq_true fun h => hbehind (h ▸ List.mem_reverse.mp hc)
  rw [betweenParentheses?, hopen, List.tail_cons, if_pos (by simp), hclose, List.tail_cons,
    List.reverse_reverse]

theorem arguments_listText (as : List WrittenArgument) {lead behind : List Char}
    (hlead : '(' ∉ lead) (hbehind : ')' ∉ behind) :
    (arguments (fragmentText lead as behind)).parameters = as.map (parameter (names as)) := by
  rw [← parameters_listText, fragmentText, arguments, betweenParentheses?_append hlead hbehind]
  cases listText as with
  | nil => exact parameters_nil.symm
  | cons c s => rfl

/-- Of arguments written between the first parenthesis of a fragment and the last one, each gives
one parameter, with its name, required unless it has a default, and with the value of its own
default if that evaluates to one. So another default changes the parameter of no other argument. -/
theorem parameters_of_written (as : List WrittenArgument) (lead behind : List Char)
    (hlead : '(' ∉ lead) (hbehind : ')' ∉ behind) :
    (arguments (fragmentText lead as behind)).parameters = as.map (parameter (names as)) ∧
      ∀ (i : Nat) (d : List Char) (hd : IsClosed d) (j : Nat), j ≠ i →
        (arguments (fragmentText lead (as.modify i (withDefault d hd)) behind)).parameters[j]? =
          (arguments (fragmentText lead as behind)).parameters[j]? := by
  have hparameters : ∀ as, (arguments (fragmentText lead as behind)).parameters =
      as.map (parameter (names as)) := fun as => arguments_listText as hlead hbehind
  refine ⟨hparameters as, ?_⟩
  intro i d hd j hij
  rw [hparameters, hparameters, names_modify_withDefault, List.getElem?_map, List.getElem?_map,
    List.getElem?_modify]
  cases as[j]? with
  | none => rfl
  | some a => simp [hij.symm]

/-- An argument with a default that is a literal, one with a default that is none, and one with
three points in front. -/
theorem parameters_of_written_run : ∃ as : List WrittenArgument,
    fragmentText "function run".toList as " ".toList =
      "function run(count=-1 ,go=(a, b) => a,...rest) ".toList ∧
        (arguments (fragmentText "function run".toList as " ".toList)).parameters.map
            (fun p => (p.name, p.required, p.declaredType)) =
          [("count", false, some "Number"), ("go", false, none), ("rest", true, none)] := by
  let count : WrittenArgument :=
    { points := false
      name := "count".toList
      default? := some "-1 ".toList
      isIdentifier := by decide
      notReserved := by decide
      isClosed := by
        rintro _ ⟨⟩
        decide }
  let go : WrittenArgument :=
    { points := false
      name := "go".toList
      default? := some "(a, b) => a".toList
      isIdentifier := by decide
      notReserved := by decide
      isClosed := by
        rintro _ ⟨⟩
        decide }
  let rest : WrittenArgument :=
    { points := true
      name := "rest".toList
      default? := none
      isIdentifier := by decide
      notReserved := by decide
      isClosed := by
        rintro _ ⟨⟩ }
  have hlead : '(' ∉ "function run".toList := by decide
  have hbehind : ')' ∉ " ".toList := by decide
  refine ⟨[count, go, rest], by decide, ?_⟩
  rw [(parameters_of_written [count, go, rest] "function run".toList " ".toList hlead hbehind).1]
  decide +kernel

end DocComments.Signature
