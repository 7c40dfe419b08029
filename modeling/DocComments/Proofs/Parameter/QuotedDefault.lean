import DocComments.Proofs.Literal.RoundTrip
import DocComments.Proofs.Literal.StringDefault
import DocComments.Proofs.Parameter.Bracket
import DocComments.Proofs.Signature.Modifier

/-!
# Quoted defaults

A default in a bracket may be a string in quotes. Where the string ends is decided twice: the bracket
takes the next quote for the end of it, the reader of expressions passes over a quote behind a
backslash. So a string is read as it is written exactly if the bracket does not end in it and
nothing is open behind it, which is so of every string that does not hold its own quote.
-/

namespace DocComments
open Text (trim trimEnd collapseBlanks)
open Unicode (isBlank)
open Signature (Name)

/-- A string in quotes that evaluates. -/
structure QuotedLiteral where
  quote : Char
  body : List Char
  value : String
  isQuote : quote = '\x22' ∨ quote = '\x27'
  evaluates : Expression.evaluate Literal.tagSetting (quote :: (body ++ [quote])) =
    .ok (.string value)

namespace QuotedLiteral
variable (l : QuotedLiteral)

/-- The string as it is written. -/
def text : List Char :=
  l.quote :: (l.body ++ [l.quote])

/-- The bracket with a name and the string as its default. -/
def inBracket (n : Name) : List Char :=
  n.text ++ '=' :: l.text

/-- The tag of a parameter with the string as its default. -/
def tagText (n : Name) (d : List Char) : List Char :=
  '[' :: (l.inBracket n ++ ']' :: ' ' :: d)

/-- The field that the tag describes if the string is read as it is written. -/
def field (n : Name) (d : List Char) : Field where
  name := String.ofList n.text
  description := String.ofList (collapseBlanks d)
  required := false
  defaultValue := some (.string l.value)

theorem isBlank_quote : isBlank l.quote = false := by
  rcases l.isQuote with h | h <;> rw [h] <;> rfl

/-- A string that does not hold its own quote may stand in a bracket. -/
theorem isPassed_of_not_mem (h : l.quote ∉ l.body) : Tag.IsPassed l.text := by
  have hopen : Tag.through? (0, none) [l.quote] = some (0, some l.quote) := by
    rcases l.isQuote with hquote | hquote <;> rw [hquote] <;> rfl
  have hinside : ∀ s : List Char, l.quote ∉ s →
      Tag.through? (0, some l.quote) s = some (0, some l.quote) := by
    intro s hs
    induction s with
    | nil => rfl
    | cons c s ih =>
      rw [List.mem_cons, not_or] at hs
      have hafter : Tag.after? (0, some l.quote) c = some (0, some l.quote) := by
        rw [Tag.after?, if_neg (Ne.symm hs.1)]
      rw [Tag.through?, List.foldlM_cons, hafter]
      exact ih hs.2
  have hclose : Tag.through? (0, some l.quote) [l.quote] = some (0, none) := by
    simp [Tag.through?, Tag.after?]
  rw [Tag.IsPassed, text, ← List.singleton_append, Tag.through?_append, hopen, Option.bind_some,
    Tag.through?_append, hinside l.body h]
  exact hclose

theorem trim_text : trim l.text = l.text :=
  Text.trim_eq_self (t := l.quote :: l.body) l.isBlank_quote l.isBlank_quote rfl

theorem ofDefault?_text : Literal.ofDefault? l.text = some (.string l.value) :=
  Literal.ofDefault?_quoted l.isQuote.symm l.evaluates

variable (n : Name)

theorem nameAndDefault_inBracket :
    Tag.nameAndDefault (l.inBracket n) = (n.text, some l.text) := by
  have hname : '=' ∉ n.text := fun h => absurd (n.isPathPart '=' h) (by decide)
  have htrim := n.trim_append []
  rw [List.append_nil] at htrim
  rw [inBracket, Tag.nameAndDefault_append hname, l.trim_text, htrim]
  exact congrArg (·, some l.text) (List.append_nil n.text)

/-- The name in front of a default leaves the bracket open as it was. -/
theorem isPassed_inBracket_iff : Tag.IsPassed (l.inBracket n) ↔ Tag.IsPassed l.text := by
  have hname : Tag.IsPassed (n.text ++ ['=']) :=
    (Tag.isPassed_of_forall (by decide) n.isPathPart).append rfl
  rw [Tag.IsPassed, inBracket, List.append_cons, Tag.through?_append, hname, Option.bind_some,
    Tag.IsPassed]

theorem trim_tagText (d : List Char) :
    trim (l.tagText n d) = '[' :: (l.inBracket n ++ ']' :: trimEnd (' ' :: d)) := by
  have htrim := Text.trim_append (c := '[') (d := ']') (s := l.inBracket n ++ [']'])
    (t := '[' :: l.inBracket n) rfl rfl rfl (' ' :: d)
  simpa [tagText] using htrim

theorem ofTrimmed?_tagText (d : List Char) :
    Field.ofTrimmed? (trim (l.tagText n d)) =
      Field.afterType? none ('[' :: (l.inBracket n ++ ']' :: trimEnd (' ' :: d))) := by
  rw [l.trim_tagText, Field.ofTrimmed?, if_neg (by simp)]

/-- A string that may stand in the bracket is read as it is written. -/
theorem ofTag_of_isPassed (h : Tag.IsPassed l.text) (d : List Char) :
    Field.ofTag (l.tagText n d) = l.field n d := by
  rw [Field.ofTag, l.ofTrimmed?_tagText,
    Field.afterType?_bracket ((l.isPassed_inBracket_iff n).mpr h), l.nameAndDefault_inBracket,
    Text.collapseBlanks_trimEnd_space]
  simp only [Option.bind_some, l.ofDefault?_text]
  rfl

/-- A string that does not hold its own quote is read as it is written, whatever else it holds. -/
theorem ofTag_of_not_mem (h : l.quote ∉ l.body) (d : List Char) :
    Field.ofTag (l.tagText n d) = l.field n d :=
  l.ofTag_of_isPassed n (l.isPassed_of_not_mem h) d

/-- With the description that is written, the bracket ends where it is written to end. -/
theorem isPassed_of_ofTag {d : List Char}
    (hname : (Field.ofTag (l.tagText n d)).name = String.ofList n.text)
    (hdescription : (Field.ofTag (l.tagText n d)).description =
      String.ofList (collapseBlanks d)) : Tag.IsPassed l.text := by
  rw [Field.ofTag, l.ofTrimmed?_tagText] at hname hdescription
  cases hfield : Field.afterType? none
      ('[' :: (l.inBracket n ++ ']' :: trimEnd (' ' :: d))) with
  | none =>
    rw [hfield] at hname
    exact absurd (String.ofList_injective hname).symm n.ne_nil
  | some f =>
    rw [hfield] at hdescription
    obtain ⟨inside, rest, hcut, hinside, hrest⟩ := Field.exists_of_afterType?_bracket hfield
    rw [← Text.collapseBlanks_trimEnd_space d, hrest] at hdescription
    have hsame := Text.withoutBlanks_eq_of_collapseBlanks hdescription
    rw [← l.isPassed_inBracket_iff n, Text.eq_of_append_cons rfl hcut hsame.symm]
    exact hinside

/-- A parameter with a string as its default in a bracket has the name, the value of the string and
the description that are written exactly if the string may stand in the bracket. -/
theorem reads_quoted_default_iff (d : List Char) :
    (Field.ofTag (l.tagText n d)).name = String.ofList n.text ∧
      (Field.ofTag (l.tagText n d)).required = false ∧
      (Field.ofTag (l.tagText n d)).defaultValue = some (.string l.value) ∧
      (Field.ofTag (l.tagText n d)).description = String.ofList (collapseBlanks d) ↔
        Tag.IsPassed l.text := by
  constructor
  · rintro ⟨hname, -, -, hdescription⟩
    exact l.isPassed_of_ofTag n hname hdescription
  · intro h
    rw [l.ofTag_of_isPassed n h]
    exact ⟨rfl, rfl, rfl, rfl⟩

end QuotedLiteral

/-- A quote behind a backslash ends the string for the bracket, so that the next one opens another
and the bracket stays open. -/
theorem QuotedLiteral.not_reads_escaped_quote : ∃ (l : QuotedLiteral) (n : Name),
    l.tagText n "The separator".toList = "[sep=\x22\\\x22\x22] The separator".toList ∧
      l.value = "\x22" ∧
      (Field.ofTag (l.tagText n "The separator".toList)).name = "" ∧
      (Field.ofTag (l.tagText n "The separator".toList)).description =
        "[sep=\x22\\\x22\x22] The separator" := by
  have htext : (Literal.string "\x22").jsonText.toList = "\x22\\\x22\x22".toList := by
    decide +kernel
  have hvalue := (Literal.IsPlain.string "\x22").evaluate_jsonText
    (by decide : _ ≤ Expression.defaultLimit) []
  rw [htext] at hvalue
  let l : QuotedLiteral :=
    { quote := '\x22'
      body := ['\\', '\x22']
      value := "\x22"
      isQuote := .inl rfl
      evaluates := hvalue }
  let n : Name := ⟨"sep".toList, by decide⟩
  have htag : l.tagText n "The separator".toList =
      "[sep=\x22\\\x22\x22] The separator".toList := rfl
  refine ⟨l, n, htag, rfl, ?_⟩
  rw [htag]
  decide +kernel

end DocComments
