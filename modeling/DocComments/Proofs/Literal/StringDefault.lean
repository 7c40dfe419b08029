import DocComments.Literal.Default
import DocComments.Proofs.Expression.Printed
import DocComments.Proofs.Json.RoundTrip

/-!
# Defaults that are strings

A string in a tag is read as an expression if it stands alone and as data if it stands in an array.
Both readers know the escapes of data, but only the reader of data puts the two halves of a pair
together; to the other one each half is a code point of its own that no character has.
-/

namespace DocComments
open Text (HexDigit hexText hexNumber)

namespace Json.StringPart

/-- A string with parts. -/
def quotedText (parts : List StringPart) : List Char :=
  '\x22' :: (parts.flatMap text ++ ['\x22'])

/-- What a part stands for if each code point is read alone. -/
def torn : StringPart → List Char
  | paired _ _ _ _ _ _ _ _ => ['\ufffd', '\ufffd']
  | p => [p.value]

theorem torn_of_not_isPaired {p : StringPart} (hp : p.isPaired = false) : p.torn = [p.value] := by
  cases p with
  | paired => cases hp
  | _ => rfl

/-- Each pair that is torn makes the string longer by a character. -/
theorem length_flatMap_torn (parts : List StringPart) :
    (parts.flatMap torn).length = parts.length + parts.countP isPaired := by
  induction parts with
  | nil => rfl
  | cons p parts ih =>
    rw [List.flatMap_cons, List.length_append, ih, List.length_cons]
    cases hp : p.isPaired with
    | false =>
      rw [torn_of_not_isPaired hp, List.countP_cons_of_neg (by simp [hp]), List.length_singleton]
      omega
    | true =>
      have hlength : p.torn.length = 2 := by
        cases p with
        | paired => rfl
        | _ => cases hp
      rw [hlength, List.countP_cons_of_pos hp]
      omega

theorem flatMap_torn_eq_iff {parts : List StringPart} :
    parts.flatMap torn = parts.map value ↔ ∀ p ∈ parts, p.isPaired = false := by
  constructor
  · intro h
    have hlength := congrArg List.length h
    rw [length_flatMap_torn, List.length_map, Nat.add_eq_left, List.countP_eq_zero] at hlength
    simpa using hlength
  · intro h
    rw [List.map_eq_flatMap]
    exact List.flatMap_congr fun p hp => torn_of_not_isPaired (h p hp)

end Json.StringPart

namespace Expression

theorem charOfCode_of_isHalf {n : Nat}
    (h : Json.isFirstHalf n = true ∨ Json.isSecondHalf n = true) : charOfCode n = '\ufffd' := by
  have hinvalid : ¬ n.isValidChar := by
    simp only [Json.isFirstHalf, Json.isSecondHalf, Bool.and_eq_true, decide_eq_true_iff] at h
    unfold Nat.isValidChar
    omega
  rw [charOfCode, if_neg hinvalid]

/-- Between quotes of an expression a pair is two code points. -/
theorem standsFor_torn (p : Json.StringPart) : StandsFor '\x22' p.text p.torn := by
  cases hp : p.isPaired with
  | false =>
    rw [Json.StringPart.torn_of_not_isPaired hp]
    exact standsFor_stringPart hp
  | true =>
    cases p with
    | paired first second c hfirst hsecond hhigh hlow hcode =>
      have hone : StandsFor '\x22' _ _ := standsFor_fourDigits (by decide) hfirst
      have htwo : StandsFor '\x22' _ _ := standsFor_fourDigits (by decide) hsecond
      rw [charOfCode_of_isHalf (.inl hhigh)] at hone
      rw [charOfCode_of_isHalf (.inr hlow)] at htwo
      exact hone.append htwo
    | _ => cases hp

end Expression

namespace Literal
open Json (StringPart)

/-- A text stands for the same alone and as the only item of an array. -/
def ReadsAlike (s : List Char) : Prop :=
  ∃ l, ofDefault? s = some l ∧ ofDefault? ('[' :: (s ++ [']'])) = some (.array [l])

/-- A quoted text that has a value has it also as a default. -/
theorem ofDefault?_quoted {quote : Char} {body : List Char} {value : String}
    (hquote : quote = '\x27' ∨ quote = '\x22')
    (h : Expression.evaluate tagSetting (quote :: (body ++ [quote])) = .ok (.string value)) :
    ofDefault? (quote :: (body ++ [quote])) = some (.string value) := by
  have hblank : Unicode.isBlank quote = false := by
    rcases hquote with rfl | rfl <;> rfl
  have hstarts : startsContainer (quote :: (body ++ [quote])) = false := by
    rcases hquote with rfl | rfl <;> rfl
  have htrim : Text.trim (quote :: (body ++ [quote])) = quote :: (body ++ [quote]) :=
    Text.trim_eq_self (t := quote :: body) hblank hblank rfl
  have hvalue : ofTrimmed (quote :: (body ++ [quote])) = .string value := by
    rw [ofTrimmed, if_neg (by simp [hstarts]), h]
  rw [ofDefault?, htrim, if_neg (List.cons_ne_nil _ _), hvalue]

variable (parts : List StringPart)

/-- Alone a string is read with its pairs torn. -/
theorem ofDefault?_quotedText :
    ofDefault? (StringPart.quotedText parts) =
      some (.string (String.ofList (parts.flatMap StringPart.torn))) := by
  have hstands := Expression.standsFor_flatMap fun p (_ : p ∈ parts) => Expression.standsFor_torn p
  exact ofDefault?_quoted (.inr rfl) (hstands.evaluate_eq (.inr rfl) tagSetting)

/-- In an array a string is read as the characters that its parts stand for. -/
theorem ofDefault?_array_quotedText :
    ofDefault? ('[' :: (StringPart.quotedText parts ++ [']'])) =
      some (.array [.string (String.ofList (parts.map StringPart.value))]) := by
  have hitem : Json.Gives (Json.value? 126 (StringPart.quotedText parts ++ [']']))
      (.string (String.ofList (parts.map StringPart.value))) [']'] := by
    rw [StringPart.quotedText, List.cons_append, List.append_assoc]
    exact Json.gives_value?_string (Json.gives_quoted?_parts parts [']'])
  have htrim : Text.trim ('[' :: (StringPart.quotedText parts ++ [']'])) =
      '[' :: (StringPart.quotedText parts ++ [']']) :=
    Text.trim_eq_self (t := '[' :: StringPart.quotedText parts) rfl rfl rfl
  have hstarts : startsContainer ('[' :: (StringPart.quotedText parts ++ [']'])) = true := rfl
  have hread := Json.read?_array_singleton hitem
  have hvalue : ofTrimmed ('[' :: (StringPart.quotedText parts ++ [']'])) =
      .array [.string (String.ofList (parts.map StringPart.value))] := by
    rw [ofTrimmed, if_pos hstarts, Json.defaultLimit, hread]
    simp only [ofJson, itemsOfJson]
  rw [ofDefault?, htrim, if_neg (List.cons_ne_nil _ _), hvalue]

/-- A string is read alike alone and in an array exactly if no character of it is written as a pair
of halves. -/
theorem readsAlike_quotedText_iff :
    ReadsAlike (StringPart.quotedText parts) ↔ ∀ p ∈ parts, p.isPaired = false := by
  rw [← StringPart.flatMap_torn_eq_iff]
  constructor
  · rintro ⟨l, halone, harray⟩
    rw [ofDefault?_quotedText, Option.some.injEq] at halone
    rw [ofDefault?_array_quotedText, ← halone] at harray
    simp only [Option.some.injEq, Literal.array.injEq, List.cons.injEq, and_true,
      Literal.string.injEq] at harray
    exact (String.ofList_injective harray).symm
  · intro h
    refine ⟨_, ofDefault?_quotedText parts, ?_⟩
    rw [h, ofDefault?_array_quotedText]

/-- Two halves of a character are two replacement characters alone and the character in an array. -/
theorem not_readsAlike_pair :
    ofDefault? "\x22\\ud83d\\ude00\x22".toList = some (.string "\ufffd\ufffd") ∧
      ofDefault? "[\x22\\ud83d\\ude00\x22]".toList = some (.array [.string "😀"]) ∧
      ¬ ReadsAlike "\x22\\ud83d\\ude00\x22".toList := by
  let pair : StringPart :=
    .paired [⟨13, false⟩, ⟨8, false⟩, ⟨3, false⟩, ⟨13, false⟩]
      [⟨13, false⟩, ⟨14, false⟩, ⟨0, false⟩, ⟨0, false⟩] '😀' rfl rfl rfl rfl rfl
  have htext : StringPart.quotedText [pair] = "\x22\\ud83d\\ude00\x22".toList := by decide
  have halone := ofDefault?_quotedText [pair]
  have harray := ofDefault?_array_quotedText [pair]
  rw [htext] at halone harray
  refine ⟨halone, harray, ?_⟩
  rintro ⟨l, hl, hitem⟩
  rw [halone, Option.some.injEq] at hl
  rw [harray, ← hl] at hitem
  simp only [Option.some.injEq, Literal.array.injEq, List.cons.injEq, and_true,
    Literal.string.injEq] at hitem
  exact absurd hitem (by decide)

end Literal

end DocComments
