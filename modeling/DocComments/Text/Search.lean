/-!
# Searching a text

Where one text occurs in another. An empty text occurs everywhere, at the front first.
-/

namespace DocComments.Text

/-- What is left of a text that starts with `part` is what follows `part`. -/
theorem eq_append_of_isPrefixOf? {α : Type} [BEq α] [LawfulBEq α] {part s rest : List α}
    (h : part.isPrefixOf? s = some rest) : s = part ++ rest := by
  induction part generalizing s with
  | nil =>
    cases h
    rfl
  | cons p part ih =>
    cases s with
    | nil => cases h
    | cons c s =>
      change (if p == c then part.isPrefixOf? s else none) = some rest at h
      split at h
      · rename_i hc
        rw [eq_of_beq hc, ih h]
        rfl
      · cases h

/-- Whether `part` occurs somewhere in the text. -/
def occursIn (part : List Char) : List Char → Bool
  | [] => part.isEmpty
  | c :: s => part.isPrefixOf (c :: s) || occursIn part s

/-- The text after the first place where `part` occurs. -/
def after? (part : List Char) : List Char → Option (List Char)
  | [] => if part.isEmpty then some [] else none
  | c :: s =>
    match part.isPrefixOf? (c :: s) with
    | some rest => some rest
    | none => after? part s

/-- What stands after an occurrence is no longer than the text. -/
theorem length_le_of_after? {part s rest : List Char} (h : after? part s = some rest) :
    rest.length ≤ s.length := by
  induction s with
  | nil =>
    rw [after?] at h
    split at h
    · cases h
      exact Nat.le_refl _
    · cases h
  | cons c s ih =>
    rw [after?] at h
    split at h
    · rename_i r hr
      cases h
      rw [eq_append_of_isPrefixOf? hr, List.length_append]
      exact Nat.le_add_left _ _
    · exact Nat.le_succ_of_le (ih h)

/-- The text without `opening` in front, or the whole text if it does not start so. -/
def dropOpening (opening s : List Char) : List Char :=
  (opening.isPrefixOf? s).getD s

/-- The text without `closing` at its end, or the whole text if it does not end so. -/
def dropClosing (closing s : List Char) : List Char :=
  (closing.isSuffixOf? s).getD s

end DocComments.Text
