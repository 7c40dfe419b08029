import DocComments.Parameter.Tag
import DocComments.Proofs.Text.Words

/-!
# The bracket about a name

A name in a tag may stand in a bracket. What closes the bracket depends on what is open inside it:
how many brackets and braces, without regard to their kind, and which quote. A text behind which
all of it is as it was before may stand in the bracket, and the bracket ends behind such a text.
-/

namespace DocComments
open Text (trim trimStart withoutBlanks collapseBlanks)
open Unicode (isBlank)

namespace Tag

/-- The number of brackets that are open inside and the quote that is open, behind a character that
does not end the bracket about them. -/
def after? : Nat × Option Char → Char → Option (Nat × Option Char)
  | (depth, some quote), c => some (depth, if c = quote then none else some quote)
  | (depth, none), c =>
    if c = '\x22' || c = '\x27' then some (depth, some c)
    else if c = '[' || c = '\x7b' then some (depth + 1, none)
    else if c = ']' || c = '\x7d' then if 0 < depth then some (depth - 1, none) else none
    else some (depth, none)

/-- What is open inside the bracket behind a text, if that does not end it. -/
def through? (x : Nat × Option Char) (s : List Char) : Option (Nat × Option Char) :=
  s.foldlM after? x

/-- Nothing is open behind the text in a bracket, and the bracket has not ended in it. -/
def IsPassed (s : List Char) : Prop :=
  through? (0, none) s = some (0, none)

instance : DecidablePred IsPassed := fun s =>
  inferInstanceAs (Decidable (through? (0, none) s = some (0, none)))

theorem through?_append (x : Nat × Option Char) (s t : List Char) :
    through? x (s ++ t) = (through? x s).bind (through? · t) :=
  List.foldlM_append

theorem IsPassed.append {s t : List Char} (hs : IsPassed s) (ht : IsPassed t) :
    IsPassed (s ++ t) := by
  rw [IsPassed, through?_append, hs]
  exact ht

/-- Characters that are no brackets and no quotes leave everything as it is. -/
theorem isPassed_of_forall {p : Char → Bool} {s : List Char}
    (hmarks : "\x22\x27[\x7b]\x7d".toList.all (fun d => !p d) = true) (h : ∀ c ∈ s, p c = true) :
    IsPassed s := by
  induction s with
  | nil => rfl
  | cons c s ih =>
    obtain ⟨hc, hs⟩ := List.forall_mem_cons.mp h
    have hne := Text.ne_of_sort hmarks hc
    simp at hne
    have hafter : after? (0, none) c = some (0, none) := by
      simp [after?, hne]
    rw [IsPassed, through?, List.foldlM_cons, hafter]
    exact ih hs

/-- The bracket ends only where nothing is open inside. -/
theorem eq_of_after? {x : Nat × Option Char} {c : Char} (h : after? x c = none) : x = (0, none) := by
  obtain ⟨depth, quote?⟩ := x
  cases quote? with
  | some quote => cases h
  | none =>
    simp only [after?] at h
    split_ifs at h with hquote hopen hclose hdepth
    rw [Nat.eq_zero_of_not_pos hdepth]

/-- The bracket is read character by character, and ends at the first `]` outside of what is open
inside. -/
theorem closeBracket_cons (depth : Nat) (quote? : Option Char) (c : Char) (s : List Char) :
    closeBracket depth quote? (c :: s) =
      match after? (depth, quote?) c with
      | some (depth', quote') =>
        (closeBracket depth' quote' s).map fun (inside, rest) => (c :: inside, rest)
      | none => if c = ']' then some ([], s) else none := by
  cases quote? with
  | some quote => rfl
  | none =>
    rw [closeBracket, after?]
    split_ifs <;> rfl

theorem closeBracket_append {depth depth' : Nat} {quote? quote' : Option Char} {s : List Char}
    (h : through? (depth, quote?) s = some (depth', quote')) (t : List Char) :
    closeBracket depth quote? (s ++ t) =
      (closeBracket depth' quote' t).map fun (inside, rest) => (s ++ inside, rest) := by
  induction s generalizing depth quote? with
  | nil =>
    cases h
    rw [List.nil_append]
    cases closeBracket depth' quote' t <;> rfl
  | cons c s ih =>
    rw [through?, List.foldlM_cons] at h
    obtain ⟨⟨d, q⟩, hafter, hrest⟩ := Option.bind_eq_some_iff.mp h
    rw [List.cons_append, closeBracket_cons, hafter]
    simp only [ih hrest, Option.map_map]
    rfl

theorem through?_of_closeBracket {depth : Nat} {quote? : Option Char} {s inside rest : List Char}
    (h : closeBracket depth quote? s = some (inside, rest)) :
    s = inside ++ ']' :: rest ∧ through? (depth, quote?) inside = some (0, none) := by
  induction s generalizing depth quote? inside with
  | nil => cases h
  | cons c s ih =>
    rw [closeBracket_cons] at h
    split at h
    · rename_i d q hafter
      obtain ⟨⟨inside', rest'⟩, hread, heq⟩ := Option.map_eq_some_iff.mp h
      cases heq
      obtain ⟨hs, hthrough⟩ := ih hread
      refine ⟨by rw [hs]; rfl, ?_⟩
      rw [through?, List.foldlM_cons, hafter]
      exact hthrough
    · rename_i hafter
      split at h
      · rename_i hc
        cases h
        exact ⟨by rw [hc]; rfl, congrArg some (eq_of_after? hafter)⟩
      · cases h

/-- The bracket holds what stands in front of a `]` behind which nothing is open. -/
theorem closeBracket_eq_some_iff {s inside rest : List Char} :
    closeBracket 0 none s = some (inside, rest) ↔ s = inside ++ ']' :: rest ∧ IsPassed inside := by
  constructor
  · exact through?_of_closeBracket
  · rintro ⟨rfl, hinside⟩
    rw [closeBracket_append hinside, closeBracket_cons]
    simp [after?]

/-- The name ends at the first equals sign, and behind it stands the default. -/
theorem nameAndDefault_append {name : List Char} (h : '=' ∉ name) (value : List Char) :
    nameAndDefault (name ++ '=' :: value) = (trim name, some (trim value)) := by
  have hname : ∀ c ∈ name, decide (c ≠ '=') = true := fun c hc =>
    decide_eq_true fun heq => h (heq ▸ hc)
  obtain ⟨htake, hdrop⟩ := Text.span_append (t := '=' :: value) hname (by simp)
  simp only [nameAndDefault, htake, hdrop]

theorem nameAndDefault_of_not_mem {name : List Char} (h : '=' ∉ name) :
    nameAndDefault name = (trim name, none) := by
  have hname : ∀ c ∈ name, decide (c ≠ '=') = true := fun c hc =>
    decide_eq_true fun heq => h (heq ▸ hc)
  simp only [nameAndDefault, List.dropWhile_eq_nil_iff.mpr hname]

end Tag

namespace Field
variable {type? : Option (List Char)} {s : List Char} {f : Field}

/-- A bracket that is read holds the name and the default. -/
theorem afterType?_bracket {inside : List Char} (h : Tag.IsPassed inside) (rest : List Char) :
    afterType? type? ('[' :: (inside ++ ']' :: rest)) =
      some
        { name := String.ofList (Tag.nameAndDefault inside).1
          declaredType := type?.bind TypeName.ofText?
          description := String.ofList (collapseBlanks rest)
          required := false
          defaultValue := (Tag.nameAndDefault inside).2.bind Literal.ofDefault? } := by
  have hclose := Tag.closeBracket_eq_some_iff.mpr ⟨Eq.refl (inside ++ ']' :: rest), h⟩
  rw [afterType?, hclose]
  rfl

/-- A bracket that is read ends somewhere, and the description is what stands behind it. -/
theorem exists_of_afterType?_bracket (h : afterType? type? ('[' :: s) = some f) :
    ∃ inside rest, s = inside ++ ']' :: rest ∧ Tag.IsPassed inside ∧
      f.description = String.ofList (collapseBlanks rest) := by
  obtain ⟨⟨inside, rest⟩, hclose, rfl⟩ := Option.map_eq_some_iff.mp h
  obtain ⟨hs, hinside⟩ := Tag.closeBracket_eq_some_iff.mp hclose
  exact ⟨inside, rest, hs, hinside, rfl⟩

/-- What is read behind the type is divided into the name, perhaps in a bracket, and the text of the
description. -/
theorem exists_of_afterType? (h : afterType? type? s = some f) :
    ∃ t rest, s = t ++ rest ∧ f.description = String.ofList (collapseBlanks rest) ∧
      (f.name = String.ofList t ∧ (∀ c ∈ t, isBlank c = false) ∨ t.getLast? = some ']') := by
  by_cases hbracket : s.head? = some '['
  · obtain ⟨t, rfl⟩ := List.head?_eq_some_iff.mp hbracket
    obtain ⟨inside, rest, rfl, -, hrest⟩ := exists_of_afterType?_bracket h
    exact ⟨'[' :: inside ++ [']'], rest, by simp, hrest, .inr (List.getLast?_concat ..)⟩
  · unfold afterType? at h
    split at h
    · exact absurd rfl hbracket
    cases h
    refine ⟨_, _, (List.takeWhile_append_dropWhile).symm, rfl, .inl ⟨rfl, fun c hc => ?_⟩⟩
    have hword := List.all_eq_true.mp List.all_takeWhile c hc
    rwa [Bool.not_eq_true'] at hword

end Field

end DocComments
