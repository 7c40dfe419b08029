import DocComments.Proofs.Text.Lines

/-!
# Line ends with carriage returns

A text in which every line feed has got a carriage return before it. Marks without line ends stand
in it at the same places of its lines, blanks are taken off its front as they are off the text, and
if there was no carriage return before, its lines are the same. Line ends that are a carriage return
alone are not treated.
-/

namespace DocComments.Text
open Unicode (isBlank)

/-- The text with a carriage return before each line feed. -/
def withReturns (s : List Char) : List Char :=
  s.flatMap fun c => if c = '\n' then ['\r', '\n'] else [c]

section
variable {c : Char} (s t : List Char)

@[simp] theorem withReturns_nil : withReturns [] = [] := rfl

theorem withReturns_feed_cons : withReturns ('\n' :: s) = '\r' :: '\n' :: withReturns s := rfl

theorem withReturns_cons (hc : c ≠ '\n') : withReturns (c :: s) = c :: withReturns s := by
  rw [withReturns, List.flatMap_cons, if_neg hc]
  rfl

theorem withReturns_append : withReturns (s ++ t) = withReturns s ++ withReturns t :=
  List.flatMap_append

/-- A text within a line stays as it is. -/
theorem withReturns_eq_self {s : List Char} (h : '\n' ∉ s) : withReturns s = s := by
  induction s with
  | nil => rfl
  | cons c s ih =>
    rw [List.mem_cons, not_or] at h
    rw [withReturns_cons s (Ne.symm h.1), ih h.2]

/-- A line end keeps its last character. -/
theorem getLast?_withReturns : (withReturns s).getLast? = s.getLast? := by
  rcases List.eq_nil_or_concat s with rfl | ⟨s, c, rfl⟩
  · rfl
  · rw [List.concat_eq_append, withReturns_append]
    by_cases hc : c = '\n'
    · subst hc
      rw [withReturns_feed_cons, withReturns_nil, List.getLast?_append, List.getLast?_append]
      rfl
    · rw [withReturns_cons _ hc, withReturns_nil, List.getLast?_concat, List.getLast?_concat]

/-- Blanks are taken off the front of both texts alike, and they end alike. -/
theorem span_withReturns :
    (withReturns s).takeWhile isBlank = withReturns (s.takeWhile isBlank) ∧
      (withReturns s).dropWhile isBlank = withReturns (s.dropWhile isBlank) := by
  induction s with
  | nil => exact ⟨rfl, rfl⟩
  | cons c s ih =>
    by_cases hc : c = '\n'
    · subst hc
      have hfeed : isBlank '\n' = true := by decide
      have hreturn : isBlank '\r' = true := by decide
      rw [withReturns_feed_cons, List.takeWhile_cons_of_pos hreturn,
        List.takeWhile_cons_of_pos hfeed, List.dropWhile_cons_of_pos hreturn,
        List.dropWhile_cons_of_pos hfeed, List.takeWhile_cons_of_pos hfeed,
        List.dropWhile_cons_of_pos hfeed, withReturns_feed_cons, ih.1, ih.2]
      exact ⟨rfl, rfl⟩
    · rw [withReturns_cons s hc]
      by_cases hblank : isBlank c = true
      · rw [List.takeWhile_cons_of_pos hblank, List.dropWhile_cons_of_pos hblank,
          List.takeWhile_cons_of_pos hblank, List.dropWhile_cons_of_pos hblank,
          withReturns_cons _ hc, ih.1, ih.2]
        exact ⟨rfl, rfl⟩
      · rw [List.takeWhile_cons_of_neg hblank, List.dropWhile_cons_of_neg hblank,
          List.takeWhile_cons_of_neg hblank, List.dropWhile_cons_of_neg hblank,
          withReturns_cons s hc]
        exact ⟨rfl, rfl⟩

theorem trimStart_withReturns : trimStart (withReturns s) = withReturns (trimStart s) :=
  (span_withReturns s).2

end

/-! ### Marks -/

/-- A mark does not start with a character that it does not hold. -/
theorem isPrefixOf?_cons_of_not_mem {part : List Char} {c : Char} (hne : part ≠ []) (hc : c ∉ part)
    (s : List Char) : part.isPrefixOf? (c :: s) = none := by
  obtain ⟨p, part, rfl⟩ := List.exists_cons_of_ne_nil hne
  rw [isPrefixOf?_eq_none_iff, List.cons_prefix_cons]
  rintro ⟨rfl, -⟩
  exact hc List.mem_cons_self

section
variable {part : List Char} (hfeed : '\n' ∉ part) (hreturn : '\r' ∉ part) (s : List Char)
include hfeed hreturn

/-- A text starts with a mark if it did before. -/
theorem isPrefixOf?_withReturns :
    part.isPrefixOf? (withReturns s) = (part.isPrefixOf? s).map withReturns := by
  induction part generalizing s with
  | nil => rfl
  | cons p part ih =>
    cases s with
    | nil => rfl
    | cons c s =>
      by_cases hc : c = '\n'
      · subst hc
        have hne : p :: part ≠ [] := List.cons_ne_nil p part
        rw [withReturns_feed_cons, isPrefixOf?_cons_of_not_mem hne hreturn,
          isPrefixOf?_cons_of_not_mem hne hfeed]
        rfl
      · rw [List.mem_cons, not_or] at hfeed hreturn
        rw [withReturns_cons s hc]
        change (if p == c then part.isPrefixOf? (withReturns s) else none) =
          (if p == c then part.isPrefixOf? s else none).map withReturns
        split
        · exact ih hfeed.2 hreturn.2 s
        · rfl

/-- The text behind the first occurrence of a mark. -/
theorem after?_withReturns (hne : part ≠ []) :
    after? part (withReturns s) = (after? part s).map withReturns := by
  induction s with
  | nil =>
    have hempty : part.isEmpty = false := by simpa using hne
    simp only [withReturns_nil, after?, hempty]
    rfl
  | cons c s ih =>
    by_cases hc : c = '\n'
    · subst hc
      simp only [withReturns_feed_cons, after?, isPrefixOf?_cons_of_not_mem hne hreturn,
        isPrefixOf?_cons_of_not_mem hne hfeed, ih]
    · have hprefix := isPrefixOf?_withReturns hfeed hreturn (c :: s)
      rw [withReturns_cons s hc] at hprefix ⊢
      rw [after?, after?, hprefix]
      cases part.isPrefixOf? (c :: s) with
      | some rest => rfl
      | none => exact ih

end

/-! ### Lines -/

theorem withReturns_unlines {ls : List (List Char)} {l : List Char} (hls : ∀ m ∈ ls, '\n' ∉ m)
    (hl : '\n' ∉ l) :
    withReturns (unlines (ls ++ [l])) = unlines (ls.map (· ++ ['\r']) ++ [l]) := by
  rw [unlines_append_singleton, unlines_append_singleton, withReturns_append,
    withReturns_eq_self hl]
  congr 1
  induction ls with
  | nil => rfl
  | cons m ls ih =>
    obtain ⟨hm, hls⟩ := List.forall_mem_cons.mp hls
    have hend : withReturns ['\n'] = ['\r'] ++ ['\n'] := rfl
    rw [List.flatMap_cons, withReturns_append, withReturns_append, withReturns_eq_self hm, hend,
      ih hls, List.map_cons, List.flatMap_cons, List.append_assoc, List.append_assoc,
      List.append_assoc, List.append_assoc]

/-- The carriage return that a piece has got is a part of its line end. -/
theorem dropReturn_append_return {m : List Char} (h : '\r' ∉ m) :
    dropReturn (m ++ ['\r']) = dropReturn m := by
  rw [dropReturn_append_singleton, if_pos rfl]
  rcases eq_dropReturn_or m with hm | hm
  · exact hm.symm
  · exact absurd (hm ▸ List.mem_append_right _ List.mem_cons_self) h

/-- Both texts have the same lines if only line ends have got carriage returns. -/
theorem lines_withReturns {s : List Char} (h : '\r' ∉ s) : lines (withReturns s) = lines s := by
  obtain ⟨ls, l, rfl, hls, hl⟩ := exists_eq_unlines s
  have hreturns : ∀ m ∈ ls, '\r' ∉ m := by
    intro m hm hmem
    apply h
    rw [unlines_append_singleton]
    exact List.mem_append_left _ (List.mem_flatMap.mpr ⟨m, hm, List.mem_append_left _ hmem⟩)
  have hfeeds : ∀ m ∈ ls.map (· ++ ['\r']), '\n' ∉ m := by
    rw [List.forall_mem_map]
    intro m hm
    simp [hls m hm]
  have hsame : (ls.map (· ++ ['\r'])).map dropReturn = ls.map dropReturn := by
    rw [List.map_map]
    exact List.map_congr_left fun m hm => dropReturn_append_return (hreturns m hm)
  rw [withReturns_unlines hls hl, lines_unlines_append hfeeds hl, lines_unlines_append hls hl,
    hsame]

end DocComments.Text
