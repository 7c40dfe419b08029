import DocComments.Proofs.Text.Trimming
import DocComments.Text.Words

/-!
# The words of a text

Blanks divide the words of a text and have no part in them. So the form with single spaces does not
depend on which blanks stand there, nor on those at the ends, and it keeps every other character.
-/

namespace DocComments.Text
open Unicode (isBlank)

/-- A text without its blanks. -/
def withoutBlanks (s : List Char) : List Char :=
  s.filter (!isBlank ·)

variable {c : Char} {s t : List Char}

/-! ### Characters that are not blank -/

theorem withoutBlanks_append (s t : List Char) :
    withoutBlanks (s ++ t) = withoutBlanks s ++ withoutBlanks t :=
  List.filter_append s t

theorem withoutBlanks_cons_blank (hc : isBlank c = true) (s : List Char) :
    withoutBlanks (c :: s) = withoutBlanks s :=
  List.filter_cons_of_neg (by simp [hc])

theorem withoutBlanks_cons (hc : isBlank c = false) (s : List Char) :
    withoutBlanks (c :: s) = c :: withoutBlanks s :=
  List.filter_cons_of_pos (by simp [hc])

theorem withoutBlanks_eq_self (h : ∀ c ∈ s, isBlank c = false) : withoutBlanks s = s :=
  List.filter_eq_self.mpr fun c hc => by simp [h c hc]

theorem withoutBlanks_eq_nil_iff : withoutBlanks s = [] ↔ isBlankText s = true := by
  simp [withoutBlanks, isBlankText]

theorem withoutBlanks_eq_nil (h : isBlankText s = true) : withoutBlanks s = [] :=
  withoutBlanks_eq_nil_iff.mpr h

theorem withoutBlanks_trimStart (s : List Char) : withoutBlanks (trimStart s) = withoutBlanks s := by
  obtain ⟨g, hg, hs⟩ := exists_blanks_of_trimStart (s := s) rfl
  have hsame := withoutBlanks_append g (trimStart s)
  rw [← hs, withoutBlanks_eq_nil hg, List.nil_append] at hsame
  exact hsame.symm

theorem withoutBlanks_trimEnd (s : List Char) : withoutBlanks (trimEnd s) = withoutBlanks s := by
  obtain ⟨g, hg, hs⟩ := exists_eq_trimEnd_append s
  conv_rhs => rw [hs, withoutBlanks_append, withoutBlanks_eq_nil hg, List.append_nil]

theorem withoutBlanks_trim (s : List Char) : withoutBlanks (trim s) = withoutBlanks s := by
  rw [trim, withoutBlanks_trimEnd, withoutBlanks_trimStart]

/-- Texts that are joined by blanks have the characters that they had. -/
theorem withoutBlanks_intercalate {sep : List Char} (hsep : isBlankText sep = true)
    (ls : List (List Char)) : withoutBlanks (List.intercalate sep ls) = withoutBlanks ls.flatten := by
  induction ls with
  | nil => rfl
  | cons l ls ih =>
    cases ls with
    | nil => rw [List.intercalate_singleton, List.flatten_singleton]
    | cons m ls =>
      rw [List.flatten_cons, withoutBlanks_append, List.intercalate_cons_cons,
        withoutBlanks_append, withoutBlanks_append, withoutBlanks_eq_nil hsep, List.append_nil, ih]

/-! ### Words -/

theorem words_append_cons_blank (hc : isBlank c = true) (s t : List Char) :
    words (s ++ c :: t) = words s ++ words t := by
  rw [words, List.splitOnP_append_cons s t hc, List.filter_append]
  rfl

theorem words_cons_blank (hc : isBlank c = true) (s : List Char) : words (c :: s) = words s :=
  words_append_cons_blank hc [] s

theorem words_append_of_isBlankText (ht : isBlankText t = true) (s : List Char) :
    words (s ++ t) = words s := by
  induction t generalizing s with
  | nil => rw [List.append_nil]
  | cons c t ih =>
    obtain ⟨hc, ht⟩ := List.forall_mem_cons.mp (List.all_eq_true.mp ht)
    have hblank := ih (List.all_eq_true.mpr ht) []
    rw [words_append_cons_blank hc, ← List.nil_append t, hblank]
    exact List.append_nil _

/-- The words hold, in order, all that is not blank. -/
theorem flatten_words (s : List Char) : (words s).flatten = withoutBlanks s := by
  rw [words, List.flatten_filter_ne_nil]
  induction s with
  | nil => rfl
  | cons c s ih =>
    rw [List.splitOnP_cons_eq_if_modifyHead]
    obtain ⟨r, rs, hr⟩ := List.exists_cons_of_ne_nil (List.splitOnP_ne_nil isBlank s)
    cases hc : isBlank c with
    | true =>
      rw [if_pos rfl, withoutBlanks_cons_blank hc, ← ih]
      rfl
    | false =>
      rw [if_neg Bool.false_ne_true, withoutBlanks_cons hc, ← ih, hr]
      rfl

theorem not_isBlank_of_mem_words {w : List Char} (hw : w ∈ words s) (hc : c ∈ w) :
    isBlank c = false := by
  have hmem : c ∈ (words s).flatten := List.mem_flatten.mpr ⟨w, hw, hc⟩
  rw [flatten_words] at hmem
  simpa using (List.mem_filter.mp hmem).2

/-! ### Single spaces -/

theorem collapseBlanks_cons_blank (hc : isBlank c = true) (s : List Char) :
    collapseBlanks (c :: s) = collapseBlanks s := by
  rw [collapseBlanks, words_cons_blank hc, collapseBlanks]

theorem collapseBlanks_trimEnd (s : List Char) :
    collapseBlanks (trimEnd s) = collapseBlanks s := by
  obtain ⟨g, hg, hs⟩ := exists_eq_trimEnd_append s
  have hwords := words_append_of_isBlankText hg (trimEnd s)
  rw [← hs] at hwords
  rw [collapseBlanks, collapseBlanks, hwords]

/-- A space in front and blanks at the end do not show. -/
theorem collapseBlanks_trimEnd_space (s : List Char) :
    collapseBlanks (trimEnd (' ' :: s)) = collapseBlanks s := by
  rw [collapseBlanks_trimEnd, collapseBlanks_cons_blank rfl]

/-- The form with single spaces has the same characters that are not blank. -/
theorem withoutBlanks_collapseBlanks (s : List Char) :
    withoutBlanks (collapseBlanks s) = withoutBlanks s := by
  have hkept : ∀ c ∈ withoutBlanks s, isBlank c = false := fun c hc => by
    simpa using (List.mem_filter.mp hc).2
  rw [collapseBlanks, withoutBlanks_intercalate rfl, flatten_words, withoutBlanks_eq_self hkept]

/-- Texts with the same form have the same characters that are not blank. -/
theorem withoutBlanks_eq_of_collapseBlanks
    (h : String.ofList (collapseBlanks s) = String.ofList (collapseBlanks t)) :
    withoutBlanks s = withoutBlanks t := by
  rw [← withoutBlanks_collapseBlanks s, String.ofList_injective h, withoutBlanks_collapseBlanks]

/-- A text is divided at one place only if what follows is to have the same characters that are not
blank. -/
theorem eq_of_append_cons {a b : List Char} (hc : isBlank c = false)
    (h : a ++ c :: s = b ++ c :: t) (hst : withoutBlanks s = withoutBlanks t) : a = b := by
  -- what one front has more than the other would count behind that other
  have hnil : ∀ {e s t : List Char}, c :: s = e ++ c :: t → withoutBlanks s = withoutBlanks t →
      e = [] := by
    intro e s t hcut hsame
    cases e with
    | nil => rfl
    | cons d e =>
      obtain ⟨-, rfl⟩ := List.cons.inj hcut
      have hlength := congrArg List.length hsame
      rw [List.append_eq, withoutBlanks_append, withoutBlanks_cons hc, List.length_append,
        List.length_cons] at hlength
      omega
  rcases List.append_eq_append_iff.mp h with ⟨e, rfl, hcut⟩ | ⟨e, rfl, hcut⟩
  · rw [hnil hcut hst, List.append_nil]
  · rw [hnil hcut hst.symm, List.append_nil]

end DocComments.Text
