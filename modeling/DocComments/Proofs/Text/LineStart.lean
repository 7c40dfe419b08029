import DocComments.Proofs.Text.TrimmedLines

/-!
# Characters that start a line

A character that is no blank stays at the start of its line when line feeds are dropped in front of
the text or blanks at its end, and it is found there when the text is read line by line. The lines
may hold line feeds of their own; which line the character starts is not said.
-/

namespace DocComments.Text
open Unicode (isBlank)

/-- The character stands at the front of the text or directly behind a line feed. -/
def StartsLine (c : Char) (s : List Char) : Prop :=
  ∃ front rest, s = front ++ c :: rest ∧ (front = [] ∨ ['\n'] <:+ front)

variable {c : Char} {s : List Char}

theorem startsLine_unlines {t : List Char} {ls : List (List Char)} (h : c :: t ∈ ls) :
    StartsLine c (unlines ls) := by
  obtain ⟨front, rest, rfl⟩ := List.append_of_mem h
  have hbehind : ∃ u, unlines ((c :: t) :: rest) = c :: u := by
    cases rest with
    | nil => exact ⟨t, unlines_singleton _⟩
    | cons m rest => exact ⟨_, unlines_cons_cons _ m rest⟩
  obtain ⟨u, hu⟩ := hbehind
  cases front with
  | nil => exact ⟨[], u, hu, .inl rfl⟩
  | cons l front =>
    refine ⟨unlines (l :: front) ++ ['\n'], u, ?_, .inr (List.suffix_append _ _)⟩
    rw [unlines_append (List.cons_ne_nil l front) (List.cons_ne_nil _ rest), hu, List.append_assoc,
      List.singleton_append]

section
variable (hc : isBlank c = false)
include hc

theorem ne_feed_of_not_blank : c ≠ '\n' := by
  rintro rfl
  exact absurd hc (by decide)

/-! ### Trimming -/

theorem StartsLine.dropFeeds (h : StartsLine c s) : StartsLine c (s.dropWhile (· = '\n')) := by
  obtain ⟨front, rest, rfl, hfront⟩ := h
  have hfeed : decide (c = '\n') = false := decide_eq_false (ne_feed_of_not_blank hc)
  refine ⟨front.dropWhile (· = '\n'), rest,
    dropWhile_append_mark (p := fun d => decide (d = '\n')) hfeed front rest, ?_⟩
  have hsuffix : front.dropWhile (· = '\n') <:+ front := List.dropWhile_suffix _
  rcases hfront with rfl | ⟨a, rfl⟩
  · exact .inl rfl
  · rcases List.suffix_concat_iff.mp hsuffix with hnil | ⟨b, hb, -⟩
    · exact .inl hnil
    · exact .inr ⟨b, hb.symm⟩

theorem StartsLine.trimEnd (h : StartsLine c s) : StartsLine c (trimEnd s) := by
  obtain ⟨front, rest, rfl, hfront⟩ := h
  have hrest := trimEnd_cons_of_not_blank hc rest
  refine ⟨front, Text.trimEnd rest, ?_, hfront⟩
  rw [trimEnd_append_of_ne_nil (hrest ▸ List.cons_ne_nil _ _), hrest]

/-! ### Reading line by line -/

theorem exists_mem_lines_cons (t : List Char) : ∃ l ∈ lines (c :: t), l.head? = some c := by
  have hfeed : ¬ (c == '\n') = true := by
    rw [beq_iff_eq]
    exact ne_feed_of_not_blank hc
  have hreturn : c ≠ '\r' := by
    rintro rfl
    exact absurd hc (by decide)
  obtain ⟨p, ps, hp⟩ := List.exists_cons_of_ne_nil (List.splitOn_ne_nil '\n' t)
  have hcons : (c :: t).splitOn '\n' = (t.splitOn '\n').modifyHead (c :: ·) :=
    (List.splitOnP_cons_eq_if_modifyHead c t).trans (if_neg hfeed)
  rw [hp, List.modifyHead_cons] at hcons
  cases ps with
  | nil => exact ⟨c :: p, by simp [lines, hcons], rfl⟩
  | cons q ps =>
    have hline : dropReturn (c :: p) = c :: dropReturn p := dropReturn_append_cons hreturn [] p
    exact ⟨c :: dropReturn p, by simp [lines, hcons, hline], rfl⟩

theorem StartsLine.exists_mem_lines (h : StartsLine c s) : ∃ l ∈ lines s, l.head? = some c := by
  obtain ⟨front, rest, rfl, hfront⟩ := h
  obtain ⟨l, hl, hhead⟩ := exists_mem_lines_cons hc rest
  refine ⟨l, ?_, hhead⟩
  rcases hfront with rfl | ⟨a, rfl⟩
  · exact hl
  · rw [List.append_assoc, List.singleton_append, lines_append_cons_feed]
    exact List.mem_append_right _ hl

end

end DocComments.Text
