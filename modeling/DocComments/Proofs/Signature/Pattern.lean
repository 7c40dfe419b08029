import DocComments.Proofs.Signature.Arguments
import DocComments.Proofs.Signature.Modifier
import DocComments.Proofs.Text.Balanced

/-!
# Patterns as arguments

An argument may be a pattern in braces or brackets, whatever brackets are nested in it. It is read up
to the first bracket of the kind that closes it behind which a pattern can end. So the whole of it is
read exactly if no bracket of that kind inside is followed by an equals sign; if one is, the pattern
is cut off there and the rest of it becomes its default. Patterns that hold quotes are not treated.
-/

namespace DocComments.Signature
open Text (trim trimStart trimEnd firstMark due? IsBalanced)
open Unicode (isBlank)

/-- The kinds of bracket that may be nested in a pattern. -/
def brackets : List (Char × Char) := [('(', ')'), ('[', ']'), ('\x7b', '\x7d')]

/-- A pattern takes an object or a list apart. -/
inductive PatternKind
  | object
  | list

/-- The bracket that opens a pattern. -/
def PatternKind.opening : PatternKind → Char
  | object => '\x7b'
  | list => '['

/-- The bracket that closes a pattern. -/
def PatternKind.closing : PatternKind → Char
  | object => '\x7d'
  | list => ']'

/-- A pattern whose first bracket is closed by its last character. -/
structure Pattern where
  kind : PatternKind
  inside : List Char
  isBalanced : IsBalanced brackets inside
  unquoted : inside.any Surrounding.isQuote = false

/-- A default behind a pattern, with the blanks in front of the equals sign. -/
structure PatternDefault where
  gap : Gap
  text : List Char
  isClosed : IsClosed text

/-- Some bracket of the closing kind is followed by an equals sign. -/
def EndsEarly (closing : Char) (s : List Char) : Prop :=
  ∃ t ∈ s.tails, t.head? = some closing ∧ firstMark t.tail = some '='

instance (closing : Char) : DecidablePred (EndsEarly closing) := fun s =>
  inferInstanceAs (Decidable (∃ t ∈ s.tails, t.head? = some closing ∧ firstMark t.tail = some '='))

/-! ### Nested brackets -/

theorem isSome_lookup_brackets (c : Char) :
    (brackets.lookup c).isSome = Surrounding.isOpening c := by
  simp only [brackets, List.lookup_cons, List.lookup_nil, Surrounding.isOpening]
  cases c == '(' <;> cases c == '[' <;> cases c == '\x7b' <;> rfl

theorem any_brackets (c : Char) : brackets.any (·.2 == c) = Surrounding.isClosing c := by
  simp only [brackets, List.any_cons, List.any_nil, Bool.or_false, Surrounding.isClosing,
    Bool.or_assoc, Bool.beq_comm]

/-- Inside a bracket, the brackets that are due are those that count, and no comma divides. -/
theorem through?_of_due? {due due' s : List Char} (hs : s.any Surrounding.isQuote = false)
    (h : due? brackets due s = some due') :
    Surrounding.through? { depth := due.length + 1 } s = some { depth := due'.length + 1 } := by
  induction s generalizing due with
  | nil =>
    cases h
    rfl
  | cons c s ih =>
    obtain ⟨hc, hs⟩ := Bool.or_eq_false_iff.mp hs
    obtain ⟨next, hnext, hrest⟩ := Text.due?_cons h
    have hstep : Surrounding.next { depth := due.length + 1 } c = { depth := next.length + 1 } := by
      have hopening := isSome_lookup_brackets c
      have hclosing := any_brackets c
      rcases Text.dueAfter?_cases hnext with
        ⟨closing, hkind, rfl⟩ | ⟨hkind, hany, rfl⟩ | ⟨hkind, hany, rfl⟩
      · rw [hkind] at hopening
        simp [Surrounding.next, hc, ← hopening]
      · rw [hkind] at hopening
        rw [hany] at hclosing
        simp [Surrounding.next, hc, ← hopening, ← hclosing]
      · rw [hkind] at hopening
        rw [hany] at hclosing
        simp [Surrounding.next, hc, ← hopening, ← hclosing]
    rw [Surrounding.through?, if_neg (by simp [Surrounding.divides]), hstep, ih hs hrest]

/-! ### Where a pattern ends -/

section
variable {closing c : Char} {s rest : List Char} {default? : Option (List Char)}

theorem endsEarly_cons_iff :
    EndsEarly closing (c :: s) ↔ c = closing ∧ firstMark s = some '=' ∨ EndsEarly closing s := by
  simp [EndsEarly]

/-- A pattern can end where nothing follows or an equals sign does. -/
theorem isSome_afterPattern?_iff (s : List Char) :
    (afterPattern? s).isSome = true ↔ firstMark s = none ∨ firstMark s = some '=' := by
  rw [afterPattern?, firstMark]
  cases trimStart s with
  | nil => exact iff_of_true rfl (.inl rfl)
  | cons c t =>
    by_cases hc : c = '='
    · subst hc
      exact iff_of_true rfl (.inr rfl)
    · split
      · rename_i heq
        cases heq
      · rename_i heq
        exact absurd (List.cons.inj heq).1 hc
      · simp [hc]

theorem firstMark_append_mark (hc : isBlank c = false) (s t : List Char) :
    firstMark (s ++ c :: t) = some ((firstMark s).getD c) := by
  rw [firstMark, firstMark, Text.trimStart_append_mark hc]
  cases trimStart s <;> rfl

variable (hblank : isBlank closing = false) (hequals : closing ≠ '=')
include hblank hequals

/-- In front of another bracket a pattern can end only before an equals sign. -/
theorem isSome_afterPattern?_append_iff (s rest : List Char) :
    (afterPattern? (s ++ closing :: rest)).isSome = true ↔ firstMark s = some '=' := by
  rw [isSome_afterPattern?_iff, firstMark_append_mark hblank]
  cases firstMark s <;> simp [hequals]

/-- A pattern that does not end early is read up to its last bracket. -/
theorem patternEnd?_of_not_endsEarly (hs : ¬ EndsEarly closing s)
    (hrest : afterPattern? rest = some default?) :
    patternEnd? closing (s ++ closing :: rest) = some (s ++ [closing], default?) := by
  induction s with
  | nil =>
    rw [List.nil_append, patternEnd?, if_pos rfl, hrest]
    rfl
  | cons c s ih =>
    rw [endsEarly_cons_iff, not_or, not_and] at hs
    have hnone : (if c = closing then afterPattern? (s ++ closing :: rest) else none) = none := by
      split
      · rename_i hc
        rw [← Option.not_isSome_iff_eq_none, isSome_afterPattern?_append_iff hblank hequals]
        exact hs.1 hc
      · rfl
    rw [List.cons_append, patternEnd?, hnone, ih hs.2]
    rfl

/-- A pattern that ends early is read up to a bracket in front of its last one. -/
theorem patternEnd?_of_endsEarly (hs : EndsEarly closing s) :
    ∃ t d, patternEnd? closing (s ++ closing :: rest) = some (t, d) ∧ t.length ≤ s.length := by
  induction s with
  | nil => simp [EndsEarly] at hs
  | cons c s ih =>
    rw [List.cons_append, patternEnd?]
    cases hhere : if c = closing then afterPattern? (s ++ closing :: rest) else none with
    | some d => exact ⟨[c], d, rfl, by simp⟩
    | none =>
      rcases endsEarly_cons_iff.mp hs with ⟨rfl, hmark⟩ | hs
      · rw [if_pos rfl] at hhere
        have hsome := (isSome_afterPattern?_append_iff hblank hequals _ rest).mpr hmark
        rw [hhere] at hsome
        cases hsome
      · obtain ⟨t, d, hread, hlength⟩ := ih hs
        exact ⟨c :: t, d, by rw [hread]; rfl, Nat.succ_le_succ hlength⟩

end

namespace Pattern
variable (p : Pattern)

/-- The pattern as it is written. -/
def text : List Char :=
  p.kind.opening :: (p.inside ++ [p.kind.closing])

/-- What stands behind the pattern: nothing, or its default. -/
def defaultText : Option PatternDefault → List Char
  | none => []
  | some d => d.gap.text ++ '=' :: d.text

/-- A fragment with the pattern as its only argument. -/
def fragmentText (lead : List Char) (default? : Option PatternDefault) (behind : List Char) :
    List Char :=
  lead ++ '(' :: (p.text ++ defaultText default? ++ ')' :: behind)

/-- The parameter that the pattern stands for. -/
def parameter (default? : Option PatternDefault) : Parameter :=
  let value? := defaultValue? [String.ofList p.text] (default?.map (·.text))
  { name := String.ofList p.text
    declaredType := value?.bind Literal.typeName
    required := default?.isNone
    defaultValue := value? }

theorem kind_facts (k : PatternKind) :
    isBlank k.opening = false ∧ isBlank k.closing = false ∧ k.closing ≠ '=' := by
  cases k <;> decide

theorem isClosed_text (default? : Option PatternDefault) :
    IsClosed (p.text ++ defaultText default?) := by
  have htext : IsClosed p.text := by
    have hopen : Surrounding.outside.through? [p.kind.opening] = some { depth := 1 } := by
      cases p.kind <;> rfl
    have hclose : Surrounding.through? { depth := 1 } [p.kind.closing] = some .outside := by
      cases p.kind <;> rfl
    have hinside := through?_of_due? p.unquoted p.isBalanced
    rw [IsClosed, text, ← List.singleton_append, Surrounding.through?_append, hopen,
      Option.bind_some, Surrounding.through?_append]
    exact hinside ▸ hclose
  refine htext.append ?_
  cases default? with
  | none => rfl
  | some d =>
    have hgap : IsClosed d.gap.text := Surrounding.through?_of_isPlain fun c hc =>
      Surrounding.isPlain_of_forall (by decide) (List.all_eq_true.mp d.gap.blank c hc)
    exact hgap.append (IsClosed.append (s := ['=']) rfl d.isClosed)

/-- Trimming takes from an argument the blanks behind its default. -/
theorem trim_text (default? : Option PatternDefault) :
    trim (p.text ++ defaultText default?) = p.text ++ trimEnd (defaultText default?) :=
  Text.trim_append (t := p.kind.opening :: p.inside) (kind_facts p.kind).1 (kind_facts p.kind).2.1
    rfl _

theorem afterPattern?_defaultText (default? : Option PatternDefault) :
    afterPattern? (trimEnd (defaultText default?)) = some ((default?.map (·.text)).map trimEnd) := by
  cases default? with
  | none => rfl
  | some d =>
    have hequals : isBlank '=' = false := rfl
    have htrim : trimEnd (defaultText (some d)) = d.gap.text ++ '=' :: trimEnd d.text := by
      rw [defaultText, Text.trimEnd_append_of_ne_nil] <;>
        simp [Text.trimEnd_cons_of_not_blank hequals]
    rw [htrim, afterPattern?, Text.trimStart_append_of_blank d.gap.blank,
      Text.trimStart_cons_of_not_blank hequals]
    rfl

/-- An argument that is a pattern is read as a pattern, and as the whole of it exactly if that ends
nowhere before. -/
theorem argument?_text (default? : Option PatternDefault) :
    ∃ a, argument? (p.text ++ defaultText default?) = some a ∧
      (¬ EndsEarly p.kind.closing p.inside → a = ⟨p.text, (default?.map (·.text)).map trimEnd⟩) ∧
        (EndsEarly p.kind.closing p.inside → a.name ≠ p.text) := by
  obtain ⟨-, hblank, hequals⟩ := kind_facts p.kind
  have hpattern : ∀ s, patternArgument? (p.kind.opening :: s) =
      (patternEnd? p.kind.closing s).map fun e => ⟨p.kind.opening :: e.1, e.2⟩ := by
    cases p.kind <;> exact fun s => rfl
  have hread : ∀ t d, patternEnd? p.kind.closing
      (p.inside ++ p.kind.closing :: trimEnd (defaultText default?)) = some (t, d) →
        argument? (p.text ++ defaultText default?) = some ⟨p.kind.opening :: t, d⟩ := by
    intro t d hend
    rw [argument?, p.trim_text, text, List.cons_append, List.append_assoc, List.singleton_append,
      hpattern, hend]
    rfl
  by_cases hearly : EndsEarly p.kind.closing p.inside
  · obtain ⟨t, d, hend, hlength⟩ := patternEnd?_of_endsEarly hblank hequals hearly
    refine ⟨_, hread t d hend, absurd hearly, fun _ hname => ?_⟩
    have hsame : t = p.inside ++ [p.kind.closing] := (List.cons.inj hname).2
    rw [hsame, List.length_append, List.length_singleton] at hlength
    omega
  · have hend := patternEnd?_of_not_endsEarly hblank hequals hearly
      (afterPattern?_defaultText default?)
    exact ⟨_, hread _ _ hend, fun _ => rfl, fun h => absurd h hearly⟩

/-- A pattern that is the only argument between the first parenthesis of a fragment and the last one
gives one parameter. That has the whole pattern as its name, is required unless there is a default,
and has the value of the default if that evaluates to one, exactly if no bracket inside ends the
pattern early. -/
theorem parameters_of_pattern (default? : Option PatternDefault) (lead behind : List Char)
    (hlead : '(' ∉ lead) (hbehind : ')' ∉ behind) :
    ∃ q, (arguments (p.fragmentText lead default? behind)).parameters = [q] ∧
      (q = p.parameter default? ↔ ¬ EndsEarly p.kind.closing p.inside) := by
  obtain ⟨a, hread, hwhole, hearly⟩ := p.argument?_text default?
  have hparameters : (arguments (p.fragmentText lead default? behind)).parameters =
      [(a.toField [String.ofList a.name]).toParameter] := by
    have hpieces := pieces_intercalate (List.cons_ne_nil _ [])
      (List.forall_mem_singleton.mpr (p.isClosed_text default?))
    rw [List.intercalate_singleton] at hpieces
    have hall : (arguments (p.fragmentText lead default? behind)).parameters =
        parameters (p.text ++ defaultText default?) := by
      rw [fragmentText, arguments, betweenParentheses?_append hlead hbehind]
      rfl
    rw [hall, parameters, hpieces]
    simp only [List.filterMap_cons, hread, List.filterMap_nil, List.map_cons, List.map_nil]
  refine ⟨_, hparameters, ?_, ?_⟩
  · intro hsame h
    have hname : (a.toField [String.ofList a.name]).toParameter.name = String.ofList a.name :=
      a.name_toField [String.ofList a.name]
    rw [hsame] at hname
    exact hearly h (String.ofList_injective hname).symm
  · intro h
    rw [hwhole h, toParameter_trimEnd, Option.isNone_map]
    rfl

end Pattern

/-- A nested pattern, with a default inside, is read whole. -/
theorem Pattern.parameters_of_pattern_nested : ∃ (p : Pattern) (d : PatternDefault),
    p.fragmentText "f".toList (some d) [] =
        "f(\x7b a: \x7b b \x7d, c: [d] = [1] \x7d = \x7b\x7d)".toList ∧
      (arguments (p.fragmentText "f".toList (some d) [])).parameters = [p.parameter (some d)] ∧
      (p.parameter (some d)).declaredType = some "Object" := by
  let p : Pattern :=
    { kind := .object
      inside := " a: \x7b b \x7d, c: [d] = [1] ".toList
      isBalanced := by decide
      unquoted := by decide }
  let d : PatternDefault :=
    { gap := ⟨[' '], rfl⟩
      text := " \x7b\x7d".toList
      isClosed := by decide }
  have hlead : '(' ∉ "f".toList := by decide
  have hbehind : ')' ∉ [] := List.not_mem_nil
  obtain ⟨q, hq, hwhole⟩ := p.parameters_of_pattern (some d) "f".toList [] hlead hbehind
  refine ⟨p, d, by decide, ?_, by decide +kernel⟩
  rw [hq, hwhole.mpr (by decide)]

/-- A pattern in which a nested one has a default is cut off behind that nested one. -/
theorem Pattern.not_parameters_nested_default : ∃ p : Pattern,
    p.fragmentText "f".toList none [] = "f(\x7b a: \x7b b \x7d = \x7b\x7d \x7d)".toList ∧
      (arguments (p.fragmentText "f".toList none [])).parameters.map
          (fun q => (q.name, q.required)) = [("\x7b a: \x7b b \x7d", false)] := by
  refine ⟨⟨.object, " a: \x7b b \x7d = \x7b\x7d ".toList, by decide, by decide⟩, ?_, ?_⟩
  · decide
  · decide +kernel

end DocComments.Signature
