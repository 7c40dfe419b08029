import DocComments.Text.Search
import DocComments.Text.Trim
import DocComments.Proofs.Text.Occurrence
import Mathlib.Data.List.DropRight

/-!
# Trimmed texts

What is read of a text as long as its characters are of one sort, and what trimming, which reads
blanks from both ends, leaves alone and takes away: blanks put at an end of a text do not show, and
a text with other characters at both ends stays as it is. Trimming of lists of lines follows the
same law as trimming of lists of characters, so the law is stated for both.
-/

namespace DocComments.Text
open Unicode (isBlank)

/-- A character of one sort is none of the marks that are not of that sort. -/
theorem ne_of_sort {p : Char → Bool} {marks : List Char} {c : Char}
    (hmarks : marks.all (fun d => !p d) = true) (hc : p c = true) : ∀ d ∈ marks, c ≠ d := by
  rintro d hd rfl
  have hnot := List.all_eq_true.mp hmarks c hd
  rw [hc] at hnot
  cases hnot

/-- A text is read as long as its characters are of one sort, and so are other lists. -/
theorem span_append {α : Type} {p : α → Bool} {s t : List α} (hs : ∀ c ∈ s, p c = true)
    (ht : ∀ c, t.head? = some c → p c = false) :
    (s ++ t).takeWhile p = s ∧ (s ++ t).dropWhile p = t := by
  rw [List.takeWhile_append_of_pos hs, List.dropWhile_append_of_pos hs]
  cases t with
  | nil => exact ⟨List.append_nil s, rfl⟩
  | cons c t =>
    have hc : ¬ p c = true := by simp [ht c rfl]
    rw [List.takeWhile_cons_of_neg hc, List.append_nil, List.dropWhile_cons_of_neg hc]
    exact ⟨rfl, rfl⟩

/-- A last character that is not of the sort read ends the reading at the latest. -/
theorem span_append_singleton {p : Char → Bool} {b : Char} (hb : p b = false) (s : List Char) :
    (s ++ [b]).takeWhile p = s.takeWhile p ∧ (s ++ [b]).dropWhile p = s.dropWhile p ++ [b] := by
  have hall : ∀ c ∈ s.takeWhile p, p c = true := fun c hc => List.all_eq_true.mp
    List.all_takeWhile c hc
  have hnext : ∀ c, (s.dropWhile p ++ [b]).head? = some c → p c = false := by
    intro c hc
    cases hrest : s.dropWhile p with
    | nil =>
      rw [hrest] at hc
      exact (Option.some.inj hc) ▸ hb
    | cons d t =>
      rw [hrest] at hc
      have hd := List.head?_dropWhile_not p s
      rw [hrest] at hd
      exact (Option.some.inj hc) ▸ by simpa using hd
  have hspan := span_append hall hnext
  rwa [← List.append_assoc, List.takeWhile_append_dropWhile] at hspan

theorem isBlankText_nil : isBlankText [] = true :=
  rfl

/-- Blanks in front of a text are passed over with those it starts with. -/
theorem trimStart_append_of_blank {g : List Char} (hg : isBlankText g = true) (s : List Char) :
    trimStart (g ++ s) = trimStart s :=
  List.dropWhile_append_of_pos (List.all_eq_true.mp hg)

/-- Only in front of the first character of another sort is anything passed over. -/
theorem dropWhile_append_mark {p : Char → Bool} {c : Char} (hc : p c = false) (s t : List Char) :
    (s ++ c :: t).dropWhile p = s.dropWhile p ++ c :: t := by
  rw [List.dropWhile_append]
  split
  · rename_i hempty
    rw [List.dropWhile_cons_of_neg (by simp [hc]), List.isEmpty_iff.mp hempty, List.nil_append]
  · rfl

theorem trimStart_append_mark {c : Char} (hc : isBlank c = false) (s t : List Char) :
    trimStart (s ++ c :: t) = trimStart s ++ c :: t :=
  dropWhile_append_mark hc s t

/-- What is left of a text stands in it behind blanks. -/
theorem exists_blanks_of_trimStart {s t : List Char} (h : trimStart s = t) :
    ∃ g, isBlankText g = true ∧ s = g ++ t := by
  refine ⟨s.takeWhile isBlank, List.all_takeWhile, ?_⟩
  rw [← h, trimStart, List.takeWhile_append_dropWhile]

/-- What is dropped at the ends of a list may as well stand behind it. -/
theorem dropEnds_append_singleton {α : Type} {p : α → Bool} {b : α} (hb : p b = true)
    (s : List α) :
    ((s ++ [b]).dropWhile p).reverse.dropWhile p = (s.dropWhile p).reverse.dropWhile p := by
  rw [List.dropWhile_append]
  split
  · rename_i hempty
    rw [List.isEmpty_iff.mp hempty]
    simp [hb]
  · rw [List.reverse_append, List.reverse_singleton, List.singleton_append,
      List.dropWhile_cons_of_pos hb]

theorem trim_append_blank {b : Char} (hb : isBlank b = true) (s : List Char) :
    trim (s ++ [b]) = trim s := by
  simp only [trim, trimEnd, trimStart, dropEnds_append_singleton hb]

theorem trim_append_of_isBlankText {g : List Char} (hg : isBlankText g = true) (s : List Char) :
    trim (s ++ g) = trim s := by
  induction g generalizing s with
  | nil => rw [List.append_nil]
  | cons c g ih =>
    obtain ⟨hc, hg⟩ := List.forall_mem_cons.mp (List.all_eq_true.mp hg)
    rw [List.append_cons, ih (List.all_eq_true.mpr hg), trim_append_blank hc]

/-- Nothing remains of a blank text. -/
theorem trim_eq_nil {s : List Char} (h : isBlankText s = true) : trim s = [] :=
  trim_append_of_isBlankText h []

theorem trim_cons_blank {b : Char} (hb : isBlank b = true) (s : List Char) :
    trim (b :: s) = trim s := by
  simp only [trim, trimStart, List.dropWhile_cons_of_pos hb]

theorem trimEnd_append_blank {b : Char} (hb : isBlank b = true) (s : List Char) :
    trimEnd (s ++ [b]) = trimEnd s := by
  simp only [trimEnd, List.reverse_append, List.reverse_singleton, List.singleton_append,
    List.dropWhile_cons_of_pos hb]

/-- What is dropped at the end of a list may be all of what was put there. -/
theorem rdropWhile_append_of_forall {α : Type} {p : α → Bool} {t : List α}
    (ht : ∀ c ∈ t, p c = true) (s : List α) : (s ++ t).rdropWhile p = s.rdropWhile p := by
  have hall : ∀ c ∈ t.reverse, p c = true := fun c hc => ht c (List.mem_reverse.mp hc)
  rw [List.rdropWhile, List.reverse_append, List.dropWhile_append_of_pos hall, List.rdropWhile]

theorem trimEnd_append_of_isBlankText {g : List Char} (hg : isBlankText g = true) (s : List Char) :
    trimEnd (s ++ g) = trimEnd s :=
  rdropWhile_append_of_forall (List.all_eq_true.mp hg) s

theorem trimEnd_append_of_not_blank {c : Char} (hc : isBlank c = false) (s : List Char) :
    trimEnd (s ++ [c]) = s ++ [c] := by
  simp [trimEnd, hc]

theorem trimEnd_cons_of_not_blank {c : Char} (hc : isBlank c = false) (s : List Char) :
    trimEnd (c :: s) = c :: trimEnd s := by
  rw [trimEnd, List.reverse_cons, (span_append_singleton hc s.reverse).2, List.reverse_append]
  rfl

/-- What stands in front of the last blanks is kept as it is. -/
theorem trimEnd_append_of_forall {t : List Char} (ht : ∀ c ∈ t, isBlank c = false)
    (s : List Char) : trimEnd (t ++ s) = t ++ trimEnd s := by
  induction t with
  | nil => rfl
  | cons c t ih =>
    obtain ⟨hc, ht⟩ := List.forall_mem_cons.mp ht
    rw [List.cons_append, trimEnd_cons_of_not_blank hc, ih ht, List.cons_append]

/-- Only blanks are taken away at the end of a text. -/
theorem exists_eq_trimEnd_append (s : List Char) :
    ∃ g, isBlankText g = true ∧ s = trimEnd s ++ g := by
  refine ⟨(s.reverse.takeWhile isBlank).reverse, ?_, ?_⟩
  · rw [isBlankText, List.all_reverse]
    exact List.all_takeWhile
  · rw [trimEnd, ← List.reverse_append, List.takeWhile_append_dropWhile, List.reverse_reverse]

/-- The end of a text without blanks at its end is what it was, or nothing. -/
theorem head?_trimEnd {s : List Char} {c : Char} (h : (trimEnd s).head? = some c) :
    s.head? = some c := by
  obtain ⟨g, -, hs⟩ := exists_eq_trimEnd_append s
  cases ht : trimEnd s with
  | nil => rw [ht] at h; cases h
  | cons d t => rw [hs, ht, List.cons_append]; rwa [ht] at h

/-- What stands in front of a text that is not blank is not trimmed at the end. -/
theorem trimEnd_append_of_ne_nil {s : List Char} (h : trimEnd s ≠ []) (l : List Char) :
    trimEnd (l ++ s) = l ++ trimEnd s := by
  have hne : ¬ (s.reverse.dropWhile isBlank).isEmpty = true := by
    intro hempty
    rw [trimEnd, List.isEmpty_iff.mp hempty] at h
    exact h rfl
  rw [trimEnd, List.reverse_append, List.dropWhile_append, if_neg hne, List.reverse_append,
    List.reverse_reverse, ← trimEnd]

/-- Trimming takes away no other characters than blanks. -/
theorem mem_trim_iff {c : Char} (hc : isBlank c = false) (s : List Char) : c ∈ trim s ↔ c ∈ s := by
  have hend : ∀ t, c ∈ trimEnd t ↔ c ∈ t := by
    intro t
    obtain ⟨g, hg, ht⟩ := exists_eq_trimEnd_append t
    have hnot : c ∉ g := fun h => by simp [List.all_eq_true.mp hg c h] at hc
    conv_rhs => rw [ht]
    rw [List.mem_append, or_iff_left hnot]
  have hstart : c ∈ trimStart s ↔ c ∈ s := by
    have hnot : c ∉ s.takeWhile isBlank := fun h => by
      simp [List.all_eq_true.mp List.all_takeWhile c h] at hc
    conv_rhs => rw [← List.takeWhile_append_dropWhile (p := isBlank) (l := s)]
    rw [List.mem_append, or_iff_right hnot, trimStart]
  rw [trim, hend, hstart]

/-- A text that is not blank is not trimmed away. -/
theorem trim_ne_nil {s : List Char} (h : isBlankText s = false) : trim s ≠ [] := by
  rw [isBlankText, List.all_eq_false] at h
  obtain ⟨c, hc, hsolid⟩ := h
  rw [Bool.not_eq_true] at hsolid
  exact List.ne_nil_of_mem ((mem_trim_iff hsolid s).mpr hc)

theorem trimEnd_trimEnd (s : List Char) : trimEnd (trimEnd s) = trimEnd s :=
  List.rdropWhile_idempotent isBlank s

theorem trimStart_trimStart (s : List Char) : trimStart (trimStart s) = trimStart s :=
  List.dropWhile_idempotent isBlank s

theorem trim_trimStart (s : List Char) : trim (trimStart s) = trim s := by
  rw [trim, trimStart_trimStart, ← trim]

/-- Nothing is left to trim of a trimmed text. -/
theorem trim_trim (s : List Char) : trim (trim s) = trim s := by
  have hstart : trimStart (trim s) = trim s := by
    cases h : trimStart s with
    | nil => rw [trim, h]; rfl
    | cons c t =>
      have hc := isBlank_of_trimStart_eq_cons h
      rw [trim, h, trimEnd_cons_of_not_blank hc, trimStart_cons_of_not_blank hc]
  conv_lhs => rw [trim, hstart, trim, trimEnd_trimEnd]
  rfl

/-- A text without blanks stays as it is. -/
theorem trim_of_forall {s : List Char} (hs : ∀ c ∈ s, isBlank c = false) : trim s = s := by
  have hstart : trimStart s = s := by
    cases s with
    | nil => rfl
    | cons c s => exact trimStart_cons_of_not_blank (hs c List.mem_cons_self) s
  have hend := trimEnd_append_of_forall hs []
  rw [List.append_nil] at hend
  rw [trim, hstart, hend]
  exact List.append_nil s

theorem trim_between_blanks {g s t : List Char} (hg : isBlankText g = true)
    (hs : ∀ c ∈ s, isBlank c = false) (ht : isBlankText t = true) : trim (g ++ (s ++ t)) = s := by
  rw [trim, trimStart_append_of_blank hg, ← trim, trim_append_of_isBlankText ht, trim_of_forall hs]

/-- A text that neither starts nor ends with a blank stays as it is. -/
theorem trim_eq_self {c d : Char} {s t : List Char} (hc : isBlank c = false)
    (hd : isBlank d = false) (h : c :: s = t ++ [d]) : trim (c :: s) = c :: s := by
  rw [trim, trimStart_cons_of_not_blank hc, h, trimEnd_append_of_not_blank hd]

/-- Only behind a text that neither starts nor ends with a blank is anything trimmed. -/
theorem trim_append {c d : Char} {s t : List Char} (hc : isBlank c = false)
    (hd : isBlank d = false) (h : c :: s = t ++ [d]) (rest : List Char) :
    trim (c :: s ++ rest) = c :: s ++ trimEnd rest := by
  rw [trim, List.cons_append, trimStart_cons_of_not_blank hc, ← List.cons_append, h, trimEnd,
    trimEnd, List.reverse_append, List.dropWhile_append]
  split
  · rename_i hempty
    rw [List.isEmpty_iff.mp hempty, List.reverse_append, List.reverse_singleton,
      List.singleton_append, List.dropWhile_cons_of_neg (by simp [hd])]
    simp
  · rw [List.reverse_append, List.reverse_reverse]

theorem trimStart_suffix_of_ne_nil {s t : List Char} (h : trimStart s ≠ []) :
    trimStart (s ++ t) = trimStart s ++ t := by
  simp only [trimStart] at h ⊢
  rw [List.dropWhile_append, if_neg (by simpa using h)]

theorem trim_infix (s : List Char) : trim s <:+: s := by
  have hprefix : trim s <+: trimStart s := by
    obtain ⟨g, -, hg⟩ := exists_eq_trimEnd_append (trimStart s)
    exact ⟨g, hg.symm⟩
  exact hprefix.isInfix.trans (trimStart_suffix s).isInfix

theorem length_trimEnd_le (s : List Char) : (trimEnd s).length ≤ s.length := by
  have hle := length_dropWhile_le isBlank s.reverse
  rw [List.length_reverse] at hle
  rwa [trimEnd, List.length_reverse]

theorem length_trim_le (s : List Char) : (trim s).length ≤ s.length :=
  Nat.le_trans (length_trimEnd_le _) (length_trimStart_le s)

/-- A trimmed text does not start with a blank. -/
theorem not_isBlank_of_trim_eq_cons {c : Char} {s : List Char} (h : trim (c :: s) = c :: s) :
    isBlank c = false := by
  cases hb : isBlank c with
  | false => rfl
  | true =>
    have hle := length_trim_le s
    rw [← trim_cons_blank hb, h, List.length_cons] at hle
    omega

/-- A trimmed text does not end with a blank. -/
theorem not_isBlank_of_trim_eq_append {c : Char} {s : List Char} (h : trim (s ++ [c]) = s ++ [c]) :
    isBlank c = false := by
  cases hb : isBlank c with
  | false => rfl
  | true =>
    have hle := length_trim_le s
    rw [← trim_append_blank hb, h, List.length_append, List.length_singleton] at hle
    omega

/-- Nothing remains of blanks at the end of a line, so a blank line without them is empty. -/
theorem eq_nil_of_isBlankText {l : List Char} (h : trimEnd l = l) (hb : isBlankText l = true) :
    l = [] := by
  have hall : ∀ c ∈ l.reverse, isBlank c = true := by
    intro c hc
    exact List.all_eq_true.mp hb c (List.mem_reverse.mp hc)
  rw [← h, trimEnd, ← List.append_nil l.reverse, List.dropWhile_append_of_pos hall]
  rfl

theorem dropOpening_append (opening s : List Char) : dropOpening opening (opening ++ s) = s := by
  rw [dropOpening, isPrefixOf?_eq_some_iff.mpr rfl, Option.getD_some]

/-- What is left of a text that ends with `part` is what stands in front of `part`. -/
theorem isSuffixOf?_eq_some_iff {part s rest : List Char} :
    part.isSuffixOf? s = some rest ↔ s = rest ++ part := by
  change (part.reverse.isPrefixOf? s.reverse).map List.reverse = some rest ↔ _
  rw [Option.map_eq_some_iff]
  constructor
  · rintro ⟨front, hfront, rfl⟩
    rw [← List.reverse_reverse s, isPrefixOf?_eq_some_iff.mp hfront, List.reverse_append,
      List.reverse_reverse]
  · rintro rfl
    exact ⟨rest.reverse, isPrefixOf?_eq_some_iff.mpr (List.reverse_append), List.reverse_reverse rest⟩

theorem dropClosing_append (closing s : List Char) : dropClosing closing (s ++ closing) = s := by
  rw [dropClosing, isSuffixOf?_eq_some_iff.mpr rfl, Option.getD_some]

end DocComments.Text
