import DocComments.Proofs.Text.Trimming
import DocComments.Text.Lines

/-!
# Lines put together and taken apart

Lines without line feeds are read back from their text. A carriage return at the end of a line is
taken for a part of the line end; trimming would have taken it away as well.
-/

namespace DocComments.Text
open Unicode (isBlank)

@[simp] theorem unlines_nil : unlines [] = [] := rfl

@[simp] theorem unlines_singleton (l : List Char) : unlines [l] = l :=
  List.intercalate_singleton

theorem unlines_cons_cons (l m : List Char) (ls : List (List Char)) :
    unlines (l :: m :: ls) = l ++ '\n' :: unlines (m :: ls) := by
  rw [unlines, List.intercalate_cons_cons, List.append_assoc]
  rfl

theorem unlines_cons {ls : List (List Char)} (h : ls ≠ []) (l : List Char) :
    unlines (l :: ls) = l ++ '\n' :: unlines ls := by
  cases ls with
  | nil => exact absurd rfl h
  | cons m ls => exact unlines_cons_cons l m ls

/-- Only no lines, and a single empty one, make an empty text. -/
theorem eq_of_unlines_eq_nil {ls : List (List Char)} (h : unlines ls = []) :
    ls = [] ∨ ls = [[]] := by
  cases ls with
  | nil => exact Or.inl rfl
  | cons l ls =>
    cases ls with
    | nil =>
      rw [unlines_singleton] at h
      exact Or.inr (by rw [h])
    | cons m ls =>
      rw [unlines_cons_cons] at h
      exact absurd h (by simp)

/-- Every line but the last is followed by a line feed. -/
theorem unlines_append_singleton (ls : List (List Char)) (l : List Char) :
    unlines (ls ++ [l]) = ls.flatMap (· ++ ['\n']) ++ l := by
  induction ls with
  | nil => exact unlines_singleton l
  | cons m ls ih =>
    rw [List.cons_append, unlines_cons (by simp), ih, List.flatMap_cons, List.append_assoc,
      List.append_assoc]
    rfl

/-- An empty line at the end is a line feed more. -/
theorem unlines_append_empty {ls : List (List Char)} (h : ls ≠ []) :
    unlines (ls ++ [[]]) = unlines ls ++ ['\n'] := by
  obtain ⟨ms, l, rfl⟩ := (List.eq_nil_or_concat ls).resolve_left h
  rw [List.concat_eq_append, unlines_append_singleton, unlines_append_singleton,
    List.flatMap_append]
  simp

/-- Lines in front of others are followed by a line feed. -/
theorem unlines_append {ls ms : List (List Char)} (hls : ls ≠ []) (hms : ms ≠ []) :
    unlines (ls ++ ms) = unlines ls ++ '\n' :: unlines ms := by
  induction ls with
  | nil => exact absurd rfl hls
  | cons l ls ih =>
    cases ls with
    | nil => rw [List.singleton_append, unlines_cons hms, unlines_singleton]
    | cons m ls =>
      rw [List.cons_append, unlines_cons (by simp), ih (List.cons_ne_nil m ls),
        unlines_cons_cons, List.append_assoc, List.cons_append]

theorem dropReturn_append_singleton (l : List Char) (c : Char) :
    dropReturn (l ++ [c]) = if c = '\r' then l else l ++ [c] := by
  simp [dropReturn]

/-- A carriage return at the end does not show once the line is trimmed there. -/
theorem eq_dropReturn_or (l : List Char) : dropReturn l = l ∨ l = dropReturn l ++ ['\r'] := by
  rcases List.eq_nil_or_concat l with rfl | ⟨m, c, rfl⟩
  · exact Or.inl rfl
  · rw [List.concat_eq_append, dropReturn_append_singleton]
    split
    · rename_i hc
      exact Or.inr (by rw [hc])
    · exact Or.inl rfl

theorem mem_of_mem_dropReturn {l : List Char} {c : Char} (h : c ∈ dropReturn l) : c ∈ l := by
  rcases eq_dropReturn_or l with heq | heq
  · rwa [heq] at h
  · rw [heq]
    exact List.mem_append_left _ h

theorem trim_dropReturn (l : List Char) : trim (dropReturn l) = trim l := by
  rcases eq_dropReturn_or l with h | h
  · rw [h]
  · conv_rhs => rw [h, trim_append_blank (by decide)]

theorem trimEnd_dropReturn (l : List Char) : trimEnd (dropReturn l) = trimEnd l := by
  rcases eq_dropReturn_or l with h | h
  · rw [h]
  · conv_rhs => rw [h, trimEnd_append_blank (by decide)]

theorem dropReturn_eq_self {l : List Char} (h : trimEnd l = l) : dropReturn l = l := by
  rcases eq_dropReturn_or l with heq | heq
  · exact heq
  · have hle := length_trimEnd_le (dropReturn l)
    have hlen := congrArg List.length heq
    rw [trimEnd_dropReturn, h] at hle
    rw [List.length_append, List.length_singleton] at hlen
    omega

/-- What is not the end of a line keeps its carriage returns. -/
theorem dropReturn_append_cons {c : Char} (hc : c ≠ '\r') (l m : List Char) :
    dropReturn (l ++ c :: m) = l ++ c :: dropReturn m := by
  rcases List.eq_nil_or_concat m with rfl | ⟨m, d, rfl⟩
  · simp [dropReturn, hc]
  · rw [List.concat_eq_append, ← List.cons_append, ← List.append_assoc,
      dropReturn_append_singleton, dropReturn_append_singleton]
    split
    · rfl
    · rw [List.append_assoc, List.cons_append]

/-- The pieces between line feeds are the lines put together. -/
theorem splitOn_unlines {ls : List (List Char)} {l : List Char} (hls : ∀ m ∈ ls, '\n' ∉ m)
    (hl : '\n' ∉ l) : (unlines (ls ++ [l])).splitOn '\n' = ls ++ [l] := by
  apply List.splitOn_intercalate
  · intro m hm
    rcases List.mem_append.mp hm with hm | hm
    · exact hls m hm
    · rwa [List.mem_singleton.mp hm]
  · simp

/-- The lines of a text are its pieces between line feeds, without the last one if it is empty. -/
theorem lines_unlines_append {ls : List (List Char)} {l : List Char} (hls : ∀ m ∈ ls, '\n' ∉ m)
    (hl : '\n' ∉ l) :
    lines (unlines (ls ++ [l])) = ls.map dropReturn ++ [l].filter (· ≠ []) := by
  simp [lines, splitOn_unlines hls hl]

/-- The lines of a text whose last line does not end with a line feed. -/
theorem lines_unlines {ls : List (List Char)} {l : List Char} (hls : ∀ m ∈ ls, '\n' ∉ m)
    (hl : '\n' ∉ l) (hne : l ≠ []) :
    lines (unlines (ls ++ [l])) = ls.map dropReturn ++ [l] := by
  rw [lines_unlines_append hls hl]
  simp [hne]

/-- Every text is put together from pieces without line feeds. -/
theorem exists_eq_unlines (s : List Char) :
    ∃ ls l, s = unlines (ls ++ [l]) ∧ (∀ m ∈ ls, '\n' ∉ m) ∧ '\n' ∉ l := by
  induction s with
  | nil => exact ⟨[], [], rfl, fun _ hm => absurd hm List.not_mem_nil, List.not_mem_nil⟩
  | cons c s ih =>
    obtain ⟨ls, l, rfl, hls, hl⟩ := ih
    simp only [unlines_append_singleton]
    by_cases hc : c = '\n'
    · subst hc
      exact ⟨[] :: ls, l, rfl, List.forall_mem_cons.mpr ⟨List.not_mem_nil, hls⟩, hl⟩
    · have hne := Ne.symm hc
      cases ls with
      | nil => exact ⟨[], c :: l, rfl, hls, by simp [hne, hl]⟩
      | cons m ls =>
        obtain ⟨hm, hls⟩ := List.forall_mem_cons.mp hls
        exact ⟨(c :: m) :: ls, l, rfl, List.forall_mem_cons.mpr ⟨by simp [hne, hm], hls⟩, hl⟩

/-- A line feed ends a line, whatever follows. -/
theorem lines_append_cons_feed (front s : List Char) :
    lines (front ++ '\n' :: s) = (front.splitOn '\n').map dropReturn ++ lines s := by
  have hne := List.splitOn_ne_nil '\n' s
  have hsplit : (front ++ '\n' :: s).splitOn '\n' = front.splitOn '\n' ++ s.splitOn '\n' :=
    List.splitOnP_append_cons front s (by decide)
  rw [lines, hsplit, List.dropLast_append_of_ne_nil hne, List.map_append, lines,
    List.getLast?_append_of_ne_nil _ hne, List.append_assoc]

/-- A line holds no line feed. -/
theorem not_mem_of_mem_lines {s l : List Char} (hl : l ∈ lines s) : '\n' ∉ l := by
  obtain ⟨ls, m, rfl, hls, hm⟩ := exists_eq_unlines s
  rw [lines_unlines_append hls hm] at hl
  rcases List.mem_append.mp hl with hl | hl
  · obtain ⟨n, hn, rfl⟩ := List.mem_map.mp hl
    exact fun hmem => hls n hn (mem_of_mem_dropReturn hmem)
  · rwa [List.mem_singleton.mp (List.mem_of_mem_filter hl)]

end DocComments.Text
