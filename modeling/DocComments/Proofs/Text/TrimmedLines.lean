import DocComments.Proofs.Text.Lines

/-!
# Trimming lines together

Line feeds are blanks, so trimming a text takes off whole lines and then the blanks in front of the
first line that is left. The lines of a trimmed text can therefore be told from the lines that it
was made of. Blanks at the ends of lines are no matter here: the lines are without them.
-/

namespace DocComments.Text
open Unicode (isBlank)

/-- A text that is not blank keeps something at its front. -/
theorem trimStart_ne_nil {s : List Char} (h : isBlankText s = false) : trimStart s ≠ [] := by
  intro hnil
  rw [isBlankText, List.all_eq_true.mpr (List.dropWhile_eq_nil_iff.mp hnil)] at h
  cases h

/-- What is taken off the front of lines: the blank ones, and the front of the first one left. -/
theorem trimStart_unlines (ls : List (List Char)) :
    trimStart (unlines ls) = unlines ((ls.dropWhile isBlankText).modifyHead trimStart) := by
  induction ls with
  | nil => rfl
  | cons l ls ih =>
    cases hl : isBlankText l with
    | true =>
      rw [List.dropWhile_cons_of_pos hl, ← ih]
      cases ls with
      | nil =>
        rw [unlines_singleton]
        exact List.dropWhile_eq_nil_iff.mpr (List.all_eq_true.mp hl)
      | cons m ls =>
        rw [unlines_cons_cons, trimStart_append_of_blank hl]
        exact List.dropWhile_cons_of_pos (by decide)
    | false =>
      rw [List.dropWhile_cons_of_neg (by rw [hl]; decide), List.modifyHead_cons]
      cases ls with
      | nil => rw [unlines_singleton, unlines_singleton]
      | cons m ls =>
        rw [unlines_cons_cons, trimStart_suffix_of_ne_nil (trimStart_ne_nil hl), unlines_cons_cons]

/-- Lines without blanks at their ends lose whole lines only. -/
theorem trimEnd_unlines {ls : List (List Char)} (hend : ∀ l ∈ ls, trimEnd l = l) :
    trimEnd (unlines ls) = unlines (ls.rdropWhile isBlankText) := by
  induction ls using List.reverseRecOn with
  | nil => rfl
  | append_singleton ls l ih =>
    obtain ⟨hinit, hl⟩ := List.forall_mem_append.mp hend
    have hlast : trimEnd l = l := hl l List.mem_cons_self
    by_cases hblank : isBlankText l = true
    · have hnil := eq_nil_of_isBlankText hlast hblank
      subst hnil
      rw [List.rdropWhile_concat_pos _ _ _ hblank, ← ih hinit]
      cases ls with
      | nil => rfl
      | cons m ls =>
        rw [unlines_append_empty (List.cons_ne_nil m ls), trimEnd_append_blank (by decide)]
    · have hne : trimEnd l ≠ [] := by
        rw [hlast]
        rintro rfl
        exact hblank rfl
      rw [List.rdropWhile_concat_neg _ _ _ hblank, unlines_append_singleton,
        trimEnd_append_of_ne_nil hne, hlast]

/-- What stands behind in a line without blanks at its end has none there either. -/
theorem trimEnd_eq_self_of_suffix {l m : List Char} (h : l <:+ m) (hm : trimEnd m = m) :
    trimEnd l = l := by
  apply List.rdropWhile_eq_self_iff.mpr
  intro hne
  have hlast := List.rdropWhile_eq_self_iff.mp hm (h.ne_nil hne)
  rwa [← h.getLast hne] at hlast

/-- Line feeds in front are empty lines in front. -/
theorem dropFeeds_unlines {ls : List (List Char)} (hfeed : ∀ l ∈ ls, '\n' ∉ l)
    (hend : ∀ l ∈ ls, trimEnd l = l) :
    (unlines ls).dropWhile (· = '\n') = unlines (ls.dropWhile isBlankText) := by
  induction ls with
  | nil => rfl
  | cons l ls ih =>
    obtain ⟨hl, hfeeds⟩ := List.forall_mem_cons.mp hfeed
    obtain ⟨hlend, hends⟩ := List.forall_mem_cons.mp hend
    by_cases hblank : isBlankText l = true
    · have hnil := eq_nil_of_isBlankText hlend hblank
      subst hnil
      rw [List.dropWhile_cons_of_pos hblank, ← ih hfeeds hends]
      cases ls with
      | nil => rfl
      | cons m ls =>
        rw [unlines_cons_cons, List.nil_append, List.dropWhile_cons_of_pos (by decide)]
    · rw [List.dropWhile_cons_of_neg hblank]
      cases l with
      | nil => exact absurd rfl hblank
      | cons c l =>
        have hc : ¬ decide (c = '\n') = true := by
          rw [decide_eq_true_eq]
          rintro rfl
          exact hl List.mem_cons_self
        have hstay : ∀ s, (c :: s).dropWhile (· = '\n') = c :: s := fun s =>
          List.dropWhile_cons_of_neg hc
        cases ls with
        | nil => rw [unlines_singleton, hstay]
        | cons m ls => rw [unlines_cons_cons, List.cons_append, hstay]

/-- Lines that do not end with blank ones are read back from their text. -/
theorem lines_unlines_rdropWhile {ls : List (List Char)} (hfeed : ∀ l ∈ ls, '\n' ∉ l)
    (hend : ∀ l ∈ ls, trimEnd l = l) :
    lines (unlines (ls.rdropWhile isBlankText)) = ls.rdropWhile isBlankText := by
  have hmem : ∀ l ∈ ls.rdropWhile isBlankText, l ∈ ls := fun l hl =>
    (List.rdropWhile_prefix isBlankText ls).subset hl
  have hsolid := List.rdropWhile_last_not isBlankText ls
  rcases List.eq_nil_or_concat (ls.rdropWhile isBlankText) with hnil | ⟨ms, l, heq⟩
  · rw [hnil]
    rfl
  · rw [List.concat_eq_append] at heq
    simp only [heq, List.getLast_append_singleton] at hmem hsolid ⊢
    obtain ⟨hms, hl⟩ := List.forall_mem_append.mp hmem
    have hne : l ≠ [] := by
      rintro rfl
      exact hsolid (by simp) rfl
    have hkept : ms.map dropReturn = ms := by
      rw [List.map_congr_left fun m hm => dropReturn_eq_self (hend m (hms m hm)), List.map_id']
    rw [lines_unlines (fun m hm => hfeed m (hms m hm)) (hfeed l (hl l List.mem_cons_self)) hne,
      hkept]

/-! ### The lines of a trimmed text -/

/-- The lines without blank ones at either end, and without the blanks in front of the first. -/
def trimLines (ls : List (List Char)) : List (List Char) :=
  ((ls.dropWhile isBlankText).modifyHead trimStart).rdropWhile isBlankText

/-- A line that is left is a line from which at most blanks in front were taken. -/
theorem exists_of_mem_modifyHead {ls : List (List Char)} {l : List Char}
    (hl : l ∈ ls.modifyHead trimStart) : ∃ m ∈ ls, l <:+ m := by
  cases ls with
  | nil => cases hl
  | cons m ls =>
    rcases List.mem_cons.mp hl with rfl | hl
    · exact ⟨m, List.mem_cons_self, trimStart_suffix m⟩
    · exact ⟨l, List.mem_cons_of_mem m hl, List.suffix_refl l⟩

section
variable {ls : List (List Char)} (hend : ∀ l ∈ ls, trimEnd l = l)
include hend

theorem trimEnd_of_mem_modifyHead :
    ∀ l ∈ (ls.dropWhile isBlankText).modifyHead trimStart, trimEnd l = l := by
  intro l hl
  obtain ⟨m, hm, hsuffix⟩ := exists_of_mem_modifyHead hl
  exact trimEnd_eq_self_of_suffix hsuffix (hend m ((List.dropWhile_suffix _).subset hm))

theorem trimEnd_of_mem_trimLines : ∀ l ∈ trimLines ls, trimEnd l = l := fun l hl =>
  trimEnd_of_mem_modifyHead hend l ((List.rdropWhile_prefix _ _).subset hl)

theorem trim_unlines : trim (unlines ls) = unlines (trimLines ls) := by
  rw [trim, trimStart_unlines, trimEnd_unlines (trimEnd_of_mem_modifyHead hend), trimLines]

/-- A trimmed text is read as the lines that are left. -/
theorem lines_trim_unlines (hfeed : ∀ l ∈ ls, '\n' ∉ l) :
    lines (trim (unlines ls)) = trimLines ls := by
  rw [trim_unlines hend]
  refine lines_unlines_rdropWhile ?_ (trimEnd_of_mem_modifyHead hend)
  intro l hl
  obtain ⟨m, hm, hsuffix⟩ := exists_of_mem_modifyHead hl
  exact fun hmem => hfeed m ((List.dropWhile_suffix _).subset hm) (hsuffix.subset hmem)

end

end DocComments.Text
