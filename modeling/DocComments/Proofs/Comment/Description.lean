import DocComments.Proofs.Comment.BlankEnds
import DocComments.Proofs.Comment.FenceLifting
import DocComments.Proofs.Comment.Written
import Mathlib.Data.List.Chain

/-!
# Plain descriptions

A description without fences whose lines are already in the form in which descriptions are kept is
read as it stands. What is read of descriptions that hold fences is no matter of this module.
-/

namespace DocComments.Comment
open Text (trim trimEnd unlines isBlankText)
open Unicode (isBlank)

/-- Lines in the form in which descriptions are kept: no blanks at their ends, no two empty ones
in a row, none at the ends of the text, and no fences. -/
structure IsTidy (d : List (List Char)) : Prop where
  noFeed : ∀ l ∈ d, '\n' ∉ l
  trimmed : trim (unlines d) = unlines d
  noBlankEnd : ∀ l ∈ d, trimEnd l = l
  noBlankRun : d.IsChain fun l m => ¬ (l = [] ∧ m = [])
  noFence : ∀ l ∈ d, fenceLanguage? l = none

/-- The lines of a description that is kept as it is written. -/
structure IsPlain (d : List (List Char)) : Prop extends IsTidy d where
  noTag : ∀ l ∈ d, ¬ StartsTag l

theorem trim_unlines_cons_empty (ls : List (List Char)) :
    trim (unlines ([] :: ls)) = trim (unlines ls) := by
  cases ls with
  | nil => rfl
  | cons l ls =>
    rw [Text.unlines_cons_cons]
    exact Text.trim_cons_blank (by decide) _

theorem trim_unlines_append_empty (ls : List (List Char)) :
    trim (unlines (ls ++ [[]])) = trim (unlines ls) := by
  cases ls with
  | nil => rfl
  | cons l ls =>
    rw [Text.unlines_append_empty (List.cons_ne_nil l ls)]
    exact Text.trim_append_blank (by decide) _

namespace IsTidy
variable {d : List (List Char)} (h : IsTidy d)
include h

theorem head_ne_nil (hne : unlines d ≠ []) {l : List Char} (hl : d.head? = some l) : l ≠ [] := by
  rintro rfl
  obtain ⟨ls, rfl⟩ := List.head?_eq_some_iff.mp hl
  cases ls with
  | nil => exact hne rfl
  | cons m ls =>
    have htrim := h.trimmed
    rw [Text.unlines_cons_cons] at htrim
    exact absurd (Text.not_isBlank_of_trim_eq_cons htrim) (by decide)

theorem last_ne_nil (hne : unlines d ≠ []) {l : List Char} (hl : d.getLast? = some l) :
    l ≠ [] := by
  rintro rfl
  obtain ⟨ls, rfl⟩ := List.getLast?_eq_some_iff.mp hl
  cases ls with
  | nil => exact hne rfl
  | cons m ls =>
    have htrim := h.trimmed
    rw [Text.unlines_append_empty (List.cons_ne_nil m ls)] at htrim
    exact absurd (Text.not_isBlank_of_trim_eq_append htrim) (by decide)

/-- The empty lines around a description are not kept, and nothing else is changed. -/
theorem trim_joinBlankLines {e : List (List Char)} (he : IsEnding e) :
    trim (unlines (joinBlankLines false ([] :: (d ++ e)))) = unlines d := by
  by_cases hnil : unlines d = []
  · rw [hnil]
    rcases Text.eq_of_unlines_eq_nil hnil with rfl | rfl <;> rcases he with rfl | rfl <;> rfl
  · have hne : d ≠ [] := by
      rintro rfl
      exact hnil rfl
    have hrun : ([] :: (d ++ e)).IsChain fun l m => ¬ (l = [] ∧ m = []) := by
      refine List.isChain_cons.mpr ⟨?_, ?_⟩
      · rintro l hl ⟨-, rfl⟩
        rw [List.head?_append, Option.or_of_isSome (List.isSome_head?.mpr hne)] at hl
        exact h.head_ne_nil hnil hl rfl
      · rcases he with rfl | rfl
        · rw [List.append_nil]
          exact h.noBlankRun
        · refine List.isChain_append.mpr ⟨h.noBlankRun, List.isChain_singleton _, ?_⟩
          rintro l hl m - ⟨rfl, -⟩
          exact h.last_ne_nil hnil hl rfl
    rw [joinBlankLines_eq_self (he.forall_mem h.noBlankEnd rfl) hrun, trim_unlines_cons_empty]
    rcases he with rfl | rfl
    · rw [List.append_nil, h.trimmed]
    · rw [trim_unlines_append_empty, h.trimmed]

/-- The description is read as it is written, and no example is found in it. -/
theorem descriptionAndExamples_eq {e : List (List Char)} (he : IsEnding e) :
    descriptionAndExamples ([] :: (d ++ e)) = (unlines d, []) := by
  have hfence : IsUnfenced ([] :: (d ++ e)) := .of_forall (he.forall_mem h.noFence rfl)
  rw [descriptionAndExamples, hfence.liftFences_eq]
  simp only [h.trim_joinBlankLines he]

end IsTidy

/-- Sections are read one after the other, and an ending goes to the last of them. -/
theorem sections_written {xs : List Section} (h : ∀ x ∈ xs, x.Writable) :
    ∃ e ys, IsEnding e ∧
      sections ((xs.flatMap Section.lines).map Text.dropReturn ++ [[]]) = (e, ys) ∧
      ys.filterMap Section.tag? = (xs.map Section.trimHead).filterMap Section.tag? ∧
      ys.filterMap Section.example? = (xs.map Section.trimHead).filterMap Section.example? := by
  induction xs with
  | nil => exact ⟨[[]], [], Or.inr rfl, rfl, rfl, rfl⟩
  | cons x xs ih =>
    obtain ⟨e, ys, he, hread, htags, hexamples⟩ := ih fun y hy => h y (List.mem_cons_of_mem x hy)
    have hx := h x List.mem_cons_self
    have hbody : ∀ l ∈ x.body.map Text.dropReturn, tagLine? l = none := by
      intro l hl
      obtain ⟨m, hm, rfl⟩ := List.mem_map.mp hl
      rw [tagLine?_dropReturn, tagLine?_eq_none (hx.body m hm).2]
    refine ⟨[], ⟨x.key, trim x.head, x.body.map Text.dropReturn ++ e⟩ :: ys, Or.inl rfl, ?_, ?_, ?_⟩
    · rw [List.flatMap_cons, List.map_append, List.append_assoc, Section.lines, List.map_cons,
        List.cons_append, sections, sections_append hbody, hread, tagLine?_dropReturn,
        tagLine?_written hx.key hx.apart]
    · rw [List.filterMap_cons, Section.tag?_append_ending he, htags, List.map_cons,
        List.filterMap_cons]
      rfl
    · rw [List.filterMap_cons, Section.example?_append_ending he, hexamples, List.map_cons,
        List.filterMap_cons]
      rfl

/-- What is read of a comment with a plain description: the description, the tags and examples
that were written, each from its own lines. -/
theorem read_written {d : List (List Char)} {xs : List Section} (hd : IsPlain d)
    (hxs : ∀ x ∈ xs, x.Writable) :
    read (written (d ++ xs.flatMap Section.lines)) =
      { description := String.ofList (unlines d)
        tags := (xs.map Section.trimHead).filterMap Section.tag?
        examples := (xs.map Section.trimHead).filterMap Section.example? } := by
  have hfeed : ∀ l ∈ d ++ xs.flatMap Section.lines, '\n' ∉ l := by
    intro l hl
    rcases List.mem_append.mp hl with hl | hl
    · exact hd.noFeed l hl
    · obtain ⟨x, hx, hl⟩ := List.mem_flatMap.mp hl
      exact (hxs x hx).not_mem_lines hl
  have hreturn : d.map Text.dropReturn = d := by
    rw [List.map_congr_left fun l hl => Text.dropReturn_eq_self (hd.noBlankEnd l hl), List.map_id']
  obtain ⟨e, ys, he, hread, htags, hexamples⟩ := sections_written hxs
  have hopening : ∀ l ∈ [] :: d, tagLine? l = none :=
    List.forall_mem_cons.mpr ⟨rfl, fun l hl => tagLine?_eq_none (hd.noTag l hl)⟩
  have hsections : sections (commentLines (written (d ++ xs.flatMap Section.lines))) =
      ([] :: (d ++ e), ys) := by
    rw [commentLines_written hfeed, List.map_append, hreturn, List.append_assoc,
      ← List.cons_append, sections_append hopening, hread]
    rfl
  have hend : ([] :: (d ++ e)).map trimEnd = [] :: (d ++ e) := by
    have hkept : ∀ l ∈ [] :: (d ++ e), trimEnd l = l := he.forall_mem hd.noBlankEnd rfl
    rw [List.map_congr_left hkept, List.map_id']
  rw [read, hsections]
  simp only [hend, hd.descriptionAndExamples_eq he, htags, hexamples, List.nil_append]

end DocComments.Comment
