import DocComments.Comment.Reader
import DocComments.Proofs.Text.Lines

/-!
# Empty lines at the end

The line before the closing mark of a comment is mostly empty and belongs to the last section. It
changes neither the text of a tag nor an example. Lines that hold blanks only are not treated
here: they are empty once they are trimmed.
-/

namespace DocComments.Comment
open Text (trim trimStart trimEnd unlines dropReturn isBlankText)
open Unicode (isBlank)

@[simp] theorem moveLeft_nil (width : Nat) : moveLeft width [] = [] := by
  cases width <;> rfl

theorem commonIndent_append_empty (ls : List (List Char)) :
    commonIndent (ls ++ [[]]) = commonIndent ls := by
  have hfilter : (ls ++ [[]]).filter (!isBlankText ·) = ls.filter (!isBlankText ·) := by
    rw [List.filter_append]
    exact List.append_nil _
  rw [commonIndent, hfilter, commonIndent]

theorem trimFeeds_append_feed (s : List Char) : trimFeeds (s ++ ['\n']) = trimFeeds s := by
  rw [trimFeeds, Text.dropEnds_append_singleton (p := fun c => decide (c = '\n')) (by decide),
    trimFeeds]

theorem dedent_append_empty (ls : List (List Char)) : dedent (ls ++ [[]]) = dedent ls := by
  cases ls with
  | nil => rfl
  | cons l ls =>
    rw [dedent, commonIndent_append_empty, List.map_append, List.map_singleton, moveLeft_nil,
      Text.unlines_append_empty (by simp), trimFeeds_append_feed, dedent]

theorem dropBlankEnds_append_empty (ls : List (List Char)) :
    dropBlankEnds (ls ++ [[]]) = dropBlankEnds ls := by
  rw [dropBlankEnds, Text.dropEnds_append_singleton (p := isBlankText) rfl, dropBlankEnds]

/-- Whether an example is fenced as a whole, and what its language and its text are, does not
depend on an empty line behind it. -/
theorem taggedExample_append_empty (caption : List Char) (ls : List (List Char)) :
    taggedExample caption (ls ++ [[]]) = taggedExample caption ls := by
  have hunfenced : (unfenced (ls ++ [[]])).1 = (unfenced ls).1 ∧
      dedent (unfenced (ls ++ [[]])).2 = dedent (unfenced ls).2 := by
    unfold unfenced
    rw [dropBlankEnds_append_empty]
    split
    · split
      · split
        · exact ⟨rfl, rfl⟩
        · exact ⟨rfl, dedent_append_empty ls⟩
      · exact ⟨rfl, dedent_append_empty ls⟩
    · exact ⟨rfl, dedent_append_empty ls⟩
  simp only [taggedExample, hunfenced.1, hunfenced.2]

theorem map_trim_dropReturn (ls : List (List Char)) :
    (ls.map dropReturn).map trim = ls.map trim := by
  rw [List.map_map]
  exact List.map_congr_left fun l _ => Text.trim_dropReturn l

theorem map_trimEnd_dropReturn (ls : List (List Char)) :
    (ls.map dropReturn).map trimEnd = ls.map trimEnd := by
  rw [List.map_map]
  exact List.map_congr_left fun l _ => Text.trimEnd_dropReturn l

/-- No line, or an empty one: what may stand between the last section and the end of a comment. -/
def IsEnding (ls : List (List Char)) : Prop :=
  ls = [] ∨ ls = [[]]

theorem IsEnding.eq_nil {e : List (List Char)} (he : IsEnding e) {l : List Char} (hl : l ∈ e) :
    l = [] := by
  rcases he with rfl | rfl
  · cases hl
  · exact List.mem_singleton.mp hl

/-- What holds of an empty line and of some others holds of the others between empty ones. -/
theorem IsEnding.forall_mem {e : List (List Char)} (he : IsEnding e) {P : List Char → Prop}
    {d : List (List Char)} (hd : ∀ l ∈ d, P l) (hempty : P []) : ∀ l ∈ [] :: (d ++ e), P l := by
  intro l hl
  rcases List.mem_cons.mp hl with rfl | hl
  · exact hempty
  · rcases List.mem_append.mp hl with hl | hl
    · exact hd l hl
    · rw [he.eq_nil hl]
      exact hempty

namespace Section
variable {e : List (List Char)} (he : IsEnding e) (key head : List Char) (body : List (List Char))
include he

theorem tag?_append_ending :
    tag? ⟨key, head, body.map dropReturn ++ e⟩ = tag? ⟨key, head, body⟩ := by
  have htext : trim (unlines (head :: (body.map dropReturn ++ e).map trim)) =
      trim (unlines (head :: body.map trim)) := by
    rw [List.map_append, map_trim_dropReturn]
    rcases he with rfl | rfl
    · rw [List.map_nil, List.append_nil]
    · rw [List.map_singleton, ← List.cons_append]
      exact (congrArg trim (Text.unlines_append_empty (List.cons_ne_nil _ _))).trans
        (Text.trim_append_blank (by decide) _)
  simp only [tag?, htext]

theorem example?_append_ending :
    example? ⟨key, head, body.map dropReturn ++ e⟩ = example? ⟨key, head, body⟩ := by
  have hexample : taggedExample head ((body.map dropReturn ++ e).map trimEnd) =
      taggedExample head (body.map trimEnd) := by
    rw [List.map_append, map_trimEnd_dropReturn]
    rcases he with rfl | rfl
    · rw [List.map_nil, List.append_nil]
    · exact taggedExample_append_empty head _
  simp only [example?, hexample]

end Section

end DocComments.Comment
