import DocComments.Proofs.Text.Words
import Mathlib.Data.List.Flatten

/-!
# The characters of pieces

A text that is taken apart and put together again has the characters that it had, and those of the
separators that were put in. What holds no separator stands in the whole only within a piece; where
else a part of the text stands is not said.
-/

namespace DocComments.Text
open Unicode (isBlank)

theorem mem_of_mem_intercalate {sep : List Char} {ls : List (List Char)} {c : Char}
    (h : c ∈ List.intercalate sep ls) : c ∈ sep ∨ ∃ l ∈ ls, c ∈ l := by
  induction ls with
  | nil => cases h
  | cons l ls ih =>
    cases ls with
    | nil =>
      rw [List.intercalate_singleton] at h
      exact .inr ⟨l, List.mem_cons_self, h⟩
    | cons m ls =>
      rw [List.intercalate_cons_cons, List.append_assoc, List.mem_append, List.mem_append] at h
      rcases h with h | h | h
      · exact .inr ⟨l, List.mem_cons_self, h⟩
      · exact .inl h
      · rcases ih h with h | ⟨n, hn, h⟩
        · exact .inl h
        · exact .inr ⟨n, List.mem_cons_of_mem l hn, h⟩

theorem infix_intercalate {sep l : List Char} {ls : List (List Char)} (hl : l ∈ ls) :
    l <:+: List.intercalate sep ls := by
  obtain ⟨front, rest, rfl⟩ := List.append_of_mem hl
  have hbehind : l <+: List.intercalate sep (l :: rest) := by
    cases rest with
    | nil => simp
    | cons m rest =>
      rw [List.intercalate_cons_cons, List.append_assoc]
      exact List.prefix_append l _
  induction front with
  | nil => exact hbehind.isInfix
  | cons m front ih =>
    have hfront := ih (List.mem_append_right front List.mem_cons_self)
    cases hnext : front ++ l :: rest with
    | nil => exact absurd hnext (by simp)
    | cons n ns =>
      rw [hnext] at hfront
      rw [List.cons_append, hnext, List.intercalate_cons_cons]
      exact hfront.trans (List.suffix_append _ _).isInfix

/-- A part between separators stands in the text. -/
theorem infix_of_mem_splitOn {s l : List Char} {d : Char} (hl : l ∈ s.splitOn d) : l <:+: s := by
  have hinfix : l <:+: List.intercalate [d] (s.splitOn d) := infix_intercalate hl
  rwa [List.intercalate_splitOn] at hinfix

/-! ### Parts without a separator -/

/-- A separator ends what is compared with the front of a text. -/
theorem prefix_append_cons_iff {part s t : List Char} {d : Char} (hd : d ∉ part) :
    part <+: s ++ d :: t ↔ part <+: s := by
  refine ⟨fun h => ?_, fun h => h.trans (List.prefix_append s _)⟩
  rcases List.prefix_or_prefix_of_prefix h (List.prefix_append s (d :: t)) with hs | ⟨x, rfl⟩
  · exact hs
  · cases x with
    | nil => exact (List.append_nil s).symm ▸ List.prefix_rfl
    | cons c x =>
      rw [List.prefix_append_right_inj, List.cons_prefix_cons] at h
      exact absurd (by simp [h.1]) hd

theorem infix_append_cons_iff {part s t : List Char} {d : Char} (hd : d ∉ part) :
    part <:+: s ++ d :: t ↔ part <:+: s ∨ part <:+: t := by
  constructor
  · rw [List.infix_append_iff]
    rintro (hs | ht | ⟨x, y, rfl, hx, hy⟩)
    · exact .inl hs
    · rcases List.infix_cons_iff.mp ht with hfront | ht
      · rw [← List.nil_append (d :: t), prefix_append_cons_iff hd] at hfront
        exact .inl (hfront.isInfix.trans List.nil_infix)
      · exact .inr ht
    · rw [← List.nil_append (d :: t), prefix_append_cons_iff (by simp_all), List.prefix_nil] at hy
      rw [hy, List.append_nil]
      exact .inl hx.isInfix
  · rintro (hs | ht)
    · exact hs.trans (List.prefix_append s _).isInfix
    · exact ht.trans ((List.suffix_cons d t).trans (List.suffix_append s _)).isInfix

theorem infix_intercalate_iff {part : List Char} {ls : List (List Char)} {d : Char}
    (hne : ls ≠ []) (hd : d ∉ part) :
    part <:+: List.intercalate [d] ls ↔ ∃ l ∈ ls, part <:+: l := by
  induction ls with
  | nil => exact absurd rfl hne
  | cons l ls ih =>
    cases ls with
    | nil => simp
    | cons m ls =>
      rw [List.intercalate_cons_cons, List.append_assoc, List.singleton_append,
        infix_append_cons_iff hd, ih (List.cons_ne_nil m ls)]
      exact (List.exists_mem_cons_iff _ l _).symm

/-! ### Blanks -/

/-- Of all blanks, only spaces are left. -/
theorem eq_space_of_mem_collapseBlanks {s : List Char} {c : Char} (hc : isBlank c = true)
    (h : c ∈ collapseBlanks s) : c = ' ' := by
  rcases mem_of_mem_intercalate h with h | ⟨w, hw, h⟩
  · exact List.mem_singleton.mp h
  · rw [not_isBlank_of_mem_words hw h] at hc
    cases hc

end DocComments.Text
