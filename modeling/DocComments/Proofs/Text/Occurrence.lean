import DocComments.Text.Search
import Mathlib.Order.Bounds.Basic

/-!
# Places in a text

The place of an occurrence is the number of characters before it. Occurrences may overlap; nothing
here chooses between them. What is said of the search for a text concerns texts that are not empty.
-/

namespace DocComments.Text

/-- `part` stands in the text from place `n` on. -/
def OccursAt (part s : List Char) (n : Nat) : Prop :=
  part <+: s.drop n

instance (part s : List Char) (n : Nat) : Decidable (OccursAt part s n) :=
  inferInstanceAs (Decidable (part <+: s.drop n))

theorem isPrefixOf?_eq_some_iff {α : Type} [BEq α] [LawfulBEq α] {part s rest : List α} :
    part.isPrefixOf? s = some rest ↔ s = part ++ rest := by
  constructor
  · exact eq_append_of_isPrefixOf?
  · rintro rfl
    induction part with
    | nil => rfl
    | cons p part ih =>
      change (if p == p then part.isPrefixOf? (part ++ rest) else none) = some rest
      rw [if_pos (beq_self_eq_true p), ih]

theorem isPrefixOf?_eq_none_iff {part s : List Char} :
    part.isPrefixOf? s = none ↔ ¬ part <+: s := by
  rw [Option.eq_none_iff_forall_ne_some]
  constructor
  · rintro h ⟨rest, rfl⟩
    exact h rest (isPrefixOf?_eq_some_iff.mpr rfl)
  · intro h rest hrest
    exact h ⟨rest, (isPrefixOf?_eq_some_iff.mp hrest).symm⟩

/-- Searching a text says whether the part stands in it somewhere. -/
theorem occursIn_iff {part s : List Char} : occursIn part s = true ↔ part <:+: s := by
  induction s with
  | nil => rw [occursIn, List.isEmpty_iff, List.infix_nil]
  | cons c s ih =>
    rw [occursIn, Bool.or_eq_true_iff, List.isPrefixOf_iff_prefix, ih, List.infix_cons_iff]

@[simp] theorem occursAt_zero {part s : List Char} : OccursAt part s 0 ↔ part <+: s :=
  Iff.rfl

@[simp] theorem occursAt_cons_succ {part s : List Char} {c : Char} {n : Nat} :
    OccursAt part (c :: s) (n + 1) ↔ OccursAt part s n :=
  Iff.rfl

theorem occursAt_drop {part s : List Char} {m n : Nat} :
    OccursAt part (s.drop m) n ↔ OccursAt part s (m + n) := by
  simp only [OccursAt, List.drop_drop]

/-- An occurrence lies within the text. -/
theorem OccursAt.add_length_le {part s : List Char} {n : Nat} (hne : part ≠ [])
    (h : OccursAt part s n) : n + part.length ≤ s.length := by
  have hle := h.length_le
  have hpos := List.length_pos_iff.mpr hne
  rw [List.length_drop] at hle
  omega

theorem OccursAt.isInfix {part s : List Char} {n : Nat} (h : OccursAt part s n) : part <:+: s :=
  (List.IsPrefix.isInfix h).trans (List.drop_suffix n s).isInfix

/-- The text from an occurrence on. -/
theorem OccursAt.drop_eq {part s : List Char} {n : Nat} (h : OccursAt part s n) :
    s.drop n = part ++ s.drop (n + part.length) := by
  obtain ⟨rest, hrest⟩ := h
  rw [← hrest, ← List.drop_drop, ← hrest, List.drop_left]

/-- What stands wholly in the first of two texts does not depend on the second. -/
theorem occursAt_append_left {part a b : List Char} {n : Nat}
    (hle : n + part.length ≤ a.length) :
    OccursAt part (a ++ b) n ↔ OccursAt part a n := by
  have hn : n ≤ a.length := by omega
  unfold OccursAt
  rw [List.drop_append_of_le_length hn]
  constructor
  · intro h
    exact List.prefix_of_prefix_length_le h (List.prefix_append _ _)
      (by rw [List.length_drop]; omega)
  · intro h
    exact h.trans (List.prefix_append _ _)

theorem OccursAt.append {part a : List Char} {n : Nat} (h : OccursAt part a n) (b : List Char) :
    OccursAt part (a ++ b) n := by
  obtain ⟨rest, hrest⟩ := h
  by_cases hn : n ≤ a.length
  · refine ⟨rest ++ b, ?_⟩
    rw [List.drop_append_of_le_length hn, ← hrest, List.append_assoc]
  · rw [List.drop_eq_nil_of_le (by omega), List.append_eq_nil_iff] at hrest
    rw [hrest.1]
    exact List.nil_prefix

theorem occursAt_append_right {part a b : List Char} {n : Nat} :
    OccursAt part (a ++ b) (a.length + n) ↔ OccursAt part b n := by
  rw [OccursAt, OccursAt, List.drop_length_add_append]

/-- What holds at no place before `k` holds first where it does when places are counted from `k`
on. -/
theorem isLeast_add_iff {P : Nat → Prop} {k n : Nat} (h : ∀ m, m < k → ¬ P m) :
    IsLeast {n | P n} (k + n) ↔ IsLeast {n | P (k + n)} n := by
  constructor
  · rintro ⟨hn, hleast⟩
    exact ⟨hn, fun m hm => Nat.le_of_add_le_add_left (hleast hm)⟩
  · rintro ⟨hn, hleast⟩
    refine ⟨hn, ?_⟩
    intro m hm
    by_cases hlt : m < k
    · exact absurd hm (h m hlt)
    · have hk : k + (m - k) = m := by omega
      have hle := hleast (a := m - k) (by simpa only [Set.mem_ofPred_eq, hk] using hm)
      omega

/-- The search for a text ends behind its first occurrence. -/
theorem after?_eq_some {part s : List Char} {n : Nat}
    (h : IsLeast {n | OccursAt part s n} n) (hne : part ≠ []) :
    after? part s = some (s.drop (n + part.length)) := by
  induction s generalizing n with
  | nil =>
    have hle := h.1.add_length_le hne
    have hpos := List.length_pos_iff.mpr hne
    simp only [List.length_nil] at hle
    omega
  | cons c s ih =>
    rw [after?]
    by_cases hhere : part <+: c :: s
    · have hn : n = 0 := Nat.le_zero.mp (h.2 hhere)
      obtain ⟨rest, hrest⟩ := hhere
      subst hn
      rw [← hrest, isPrefixOf?_eq_some_iff.mpr rfl, Nat.zero_add, List.drop_left]
    · rw [isPrefixOf?_eq_none_iff.mpr hhere]
      cases n with
      | zero => exact absurd h.1 hhere
      | succ n =>
        have hfirst : ∀ m, m < 1 → ¬ OccursAt part (c :: s) m := by
          intro m hm
          rwa [Nat.lt_one_iff.mp hm]
        rw [Nat.add_comm n 1, isLeast_add_iff hfirst] at h
        simp only [Nat.add_comm 1, occursAt_cons_succ] at h
        simpa only [Nat.add_right_comm n 1, List.drop_succ_cons] using ih h

theorem after?_eq_none {part s : List Char} (h : ∀ n, ¬ OccursAt part s n) :
    after? part s = none := by
  induction s with
  | nil =>
    have hne : part ≠ [] := by
      rintro rfl
      exact h 0 List.nil_prefix
    simp [after?, hne]
  | cons c s ih =>
    have hhere : ¬ part <+: c :: s := h 0
    rw [after?, isPrefixOf?_eq_none_iff.mpr hhere]
    exact ih fun n hn => h (n + 1) hn

/-- What is left behind an occurrence stands there in the text. -/
theorem exists_eq_append_of_after? {part s rest : List Char} (h : after? part s = some rest) :
    ∃ front, s = front ++ (part ++ rest) := by
  induction s with
  | nil =>
    rw [after?] at h
    split at h
    · rename_i hempty
      cases h
      exact ⟨[], by rw [List.isEmpty_iff.mp hempty]; rfl⟩
    · cases h
  | cons c s ih =>
    rw [after?] at h
    split at h
    · rename_i hread
      cases h
      exact ⟨[], by rw [List.nil_append, eq_append_of_isPrefixOf? hread]⟩
    · obtain ⟨front, rfl⟩ := ih h
      exact ⟨c :: front, rfl⟩

/-- What stands behind any occurrence stands behind the first one. -/
theorem exists_after?_append {part : List Char} (hne : part ≠ []) (front rest : List Char) :
    ∃ t, after? part (front ++ (part ++ rest)) = some t ∧ rest <:+ t := by
  induction front with
  | nil =>
    obtain ⟨c, part, rfl⟩ := List.exists_cons_of_ne_nil hne
    have hread : (c :: part).isPrefixOf? (c :: part ++ rest) = some rest :=
      isPrefixOf?_eq_some_iff.mpr rfl
    rw [List.cons_append] at hread
    refine ⟨rest, ?_, List.suffix_refl rest⟩
    rw [List.nil_append, List.cons_append, after?, hread]
  | cons c front ih =>
    rw [List.cons_append, after?]
    cases hread : part.isPrefixOf? (c :: (front ++ (part ++ rest))) with
    | none => exact ih
    | some t =>
      have heq := eq_append_of_isPrefixOf? hread
      have hlength := congrArg List.length heq
      simp only [List.length_cons, List.length_append] at hlength
      have hrest : rest <:+ c :: (front ++ (part ++ rest)) :=
        ((List.suffix_append part rest).trans (List.suffix_append front _)).trans
          (List.suffix_cons c _)
      exact ⟨t, rfl, List.suffix_of_suffix_length_le hrest ⟨part, heq.symm⟩ (by omega)⟩

end DocComments.Text
