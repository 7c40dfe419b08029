import DocComments.Text.Trim
import Mathlib.Data.List.Count

/-!
# Balanced brackets

A text is balanced if every bracket that is opened in it is closed there by its own kind, and nothing
else is closed. Which kinds there are is left open. A character of none of them, a quote like any
other, stands for itself.
-/

namespace DocComments.Text

section
variable (kinds : List (Char × Char))

/-- The closing brackets that are due behind a character, the next one first, if the character is
not one that closes anything else. A kind of bracket is given by its two characters. -/
def dueAfter? (due : List Char) (c : Char) : Option (List Char) :=
  match kinds.lookup c with
  | some closing => some (closing :: due)
  | none =>
    if kinds.any (·.2 == c) then
      if due.head? = some c then some due.tail else none
    else some due

/-- The closing brackets that are due behind a text. -/
def due? (due s : List Char) : Option (List Char) :=
  s.foldlM (dueAfter? kinds) due

/-- The brackets of the given kinds come in pairs. -/
def IsBalanced (s : List Char) : Prop :=
  due? kinds [] s = some []

instance : DecidablePred (IsBalanced kinds) := fun s =>
  inferInstanceAs (Decidable (due? kinds [] s = some []))

end

variable {kinds : List (Char × Char)} {due due' s : List Char} {c : Char}

/-- A character opens a bracket, closes the one that is due next, or is no bracket. -/
theorem dueAfter?_cases (h : dueAfter? kinds due c = some due') :
    (∃ closing, kinds.lookup c = some closing ∧ due' = closing :: due) ∨
      (kinds.lookup c = none ∧ kinds.any (·.2 == c) = true ∧ due = c :: due') ∨
      (kinds.lookup c = none ∧ kinds.any (·.2 == c) = false ∧ due' = due) := by
  rw [dueAfter?] at h
  split at h
  · rename_i closing hkind
    exact .inl ⟨closing, hkind, (Option.some.inj h).symm⟩
  · rename_i hkind
    split at h
    · rename_i hclose
      split at h
      · rename_i hnext
        obtain ⟨rest, rfl⟩ := List.head?_eq_some_iff.mp hnext
        cases h
        exact .inr (.inl ⟨hkind, hclose, rfl⟩)
      · cases h
    · rename_i hclose
      exact .inr (.inr ⟨hkind, Bool.eq_false_iff.mpr hclose, (Option.some.inj h).symm⟩)

theorem due?_cons (h : due? kinds due (c :: s) = some due') :
    ∃ next, dueAfter? kinds due c = some next ∧ due? kinds next s = some due' := by
  rw [due?, List.foldlM_cons] at h
  exact Option.bind_eq_some_iff.mp h

/-- Whatever a text opens is due behind it if it closes nothing. -/
theorem length_of_due? (hclose : ∀ c ∈ s, kinds.any (·.2 == c) = false)
    (h : due? kinds due s = some due') :
    due'.length = due.length + s.countP fun c => (kinds.lookup c).isSome := by
  induction s generalizing due with
  | nil =>
    cases h
    rfl
  | cons c s ih =>
    obtain ⟨hc, hs⟩ := List.forall_mem_cons.mp hclose
    obtain ⟨next, hnext, hrest⟩ := due?_cons h
    rw [ih hs hrest]
    rcases dueAfter?_cases hnext with ⟨closing, hkind, rfl⟩ | ⟨-, hany, -⟩ | ⟨hkind, -, rfl⟩
    · rw [List.countP_cons_of_pos (by simp [hkind]), List.length_cons]
      omega
    · rw [hc] at hany
      cases hany
    · rw [List.countP_cons_of_neg (by simp [hkind])]

/-- A balanced text that opens a bracket closes one. -/
theorem IsBalanced.exists_closing (h : IsBalanced kinds s) (hc : c ∈ s)
    (hopen : (kinds.lookup c).isSome = true) : ∃ d ∈ s, kinds.any (·.2 == d) = true := by
  by_contra hnone
  have hclose : ∀ d ∈ s, kinds.any (·.2 == d) = false := fun d hd =>
    Bool.eq_false_iff.mpr fun hany => hnone ⟨d, hd, hany⟩
  have hcount := length_of_due? hclose h
  rw [List.length_nil, Nat.zero_add] at hcount
  exact List.countP_eq_zero.mp hcount.symm c hc hopen

end DocComments.Text
