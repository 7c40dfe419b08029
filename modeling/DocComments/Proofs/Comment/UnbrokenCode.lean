import DocComments.Proofs.Comment.CommonIndent
import DocComments.Proofs.Comment.Segment

/-!
# Code that closes no fence

An example that was fenced in a description never holds a line that closes a fence. The code behind
a tag is kept as it is written, without the fence that may stand around all of it, and the first
opening line is taken to belong to the last closing one. So the text of such an example is free of
closing lines only if the code is, or if it is a single closed fence and blank lines.
-/

namespace DocComments.Comment
open Text (trim trimEnd unlines isBlankText)

/-- Code of which no line closes a fence, or that is a single closed fence between blank lines. -/
def IsUnbroken (ls : List (List Char)) : Prop :=
  (∀ l ∈ ls, closesFence l = false) ∨
    ∃ (b : FencedBlock) (behind : List (List Char)), ls = b.lines ++ behind ∧
      (∀ l ∈ b.before, isBlankText l = true) ∧ ∀ l ∈ behind, isBlankText l = true

/-! ### Taking off a fence -/

/-- Only blank lines are dropped around the fence of a block. -/
theorem FencedBlock.dropBlankEnds_append {b : FencedBlock}
    (hbefore : ∀ l ∈ b.before, isBlankText l = true) {behind : List (List Char)}
    (hbehind : ∀ l ∈ behind, isBlankText l = true) :
    dropBlankEnds (b.lines ++ behind) = b.opening :: (b.inside ++ [b.closing]) := by
  have hopening : ¬ isBlankText b.opening = true := by
    intro hblank
    have hopens := b.opens
    rw [fenceLanguage?_of_isBlankText hblank] at hopens
    cases hopens
  have hclosing : ¬ isBlankText b.closing = true := by
    intro hblank
    have hcloses := b.closes
    rw [closesFence_of_isBlankText hblank] at hcloses
    cases hcloses
  rw [lines, List.append_assoc, dropBlankEnds_eq, List.dropWhile_append_of_pos hbefore,
    List.cons_append, List.dropWhile_cons_of_neg hopening, ← List.cons_append,
    Text.rdropWhile_append_of_forall hbehind, ← List.cons_append,
    List.rdropWhile_concat_neg _ _ _ hclosing]

/-- The first line and the last that are not blank are taken off if they are a fence. -/
theorem unfenced_of_fence {ls inside : List (List Char)} {opening closing language : List Char}
    (hls : dropBlankEnds ls = opening :: (inside ++ [closing]))
    (hopens : fenceLanguage? opening = some language) (hcloses : closesFence closing = true) :
    unfenced ls = (languageOr language, inside) := by
  unfold unfenced
  rw [hls]
  cases inside with
  | nil => simp [hopens, hcloses]
  | cons l inside =>
    simp only [List.cons_append, hopens]
    rw [← List.cons_append, List.getLast?_concat, Option.any_some, if_pos hcloses,
      List.dropLast_concat]

/-- Otherwise the code is kept as it is. -/
theorem unfenced_eq_or (ls : List (List Char)) :
    unfenced ls = (Example.defaultLanguage, ls) ∨
      ∃ opening language inside closing, dropBlankEnds ls = opening :: (inside ++ [closing]) ∧
        fenceLanguage? opening = some language ∧ closesFence closing = true ∧
        unfenced ls = (languageOr language, inside) := by
  by_cases h : ∃ opening language inside closing,
      dropBlankEnds ls = opening :: (inside ++ [closing]) ∧
        fenceLanguage? opening = some language ∧ closesFence closing = true
  · obtain ⟨opening, language, inside, closing, hls, hopens, hcloses⟩ := h
    exact .inr ⟨opening, language, inside, closing, hls, hopens, hcloses,
      unfenced_of_fence hls hopens hcloses⟩
  · left
    unfold unfenced
    split
    · rename_i opening l rest hls
      split
      · rename_i language hopens
        -- several lines have a last one, and it does not close the fence
        obtain ⟨inside, closing, hsplit⟩ := (List.eq_nil_or_concat (l :: rest)).resolve_left
          (List.cons_ne_nil l rest)
        rw [List.concat_eq_append] at hsplit
        have hopen : ¬ (l :: rest).getLast?.any closesFence = true := by
          rw [hsplit, List.getLast?_concat, Option.any_some]
          exact fun hcloses => h ⟨opening, language, inside, closing, hsplit ▸ hls, hopens, hcloses⟩
        rw [if_neg hopen]
      · rfl
    · rfl

/-- The code of an example is a part of what was written. -/
theorem unfenced_sublist (ls : List (List Char)) : (unfenced ls).2.Sublist ls := by
  rcases unfenced_eq_or ls with h | ⟨opening, language, inside, closing, hls, -, -, h⟩
  · rw [h]
  · have hsub := dropBlankEnds_sublist ls
    rw [hls] at hsub
    rw [h]
    exact ((List.sublist_append_left inside [closing]).cons opening).trans hsub

/-- No line that is left closes a fence exactly if the code is unbroken. -/
theorem forall_mem_unfenced (ls : List (List Char)) :
    (∀ l ∈ (unfenced ls).2, closesFence l = false) ↔ IsUnbroken ls := by
  constructor
  · intro hfree
    rcases unfenced_eq_or ls with h | ⟨opening, language, inside, closing, hls, hopens, hcloses, h⟩
    · rw [h] at hfree
      exact .inl hfree
    · rw [h] at hfree
      obtain ⟨front, behind, heq, hfront, hbehind⟩ := exists_eq_append_dropBlankEnds ls
      let b : FencedBlock :=
        { before := front
          opening := opening
          language := language
          inside := inside
          closing := closing
          before_free := fun l hl => fenceLanguage?_of_isBlankText (hfront l hl)
          opens := hopens
          inside_free := hfree
          closes := hcloses }
      refine .inr ⟨b, behind, ?_, hfront, hbehind⟩
      rw [hls, ← List.append_assoc] at heq
      exact heq
  · rintro (hfree | ⟨b, behind, rfl, hbefore, hbehind⟩)
    · exact fun l hl => hfree l ((unfenced_sublist ls).subset hl)
    · rw [unfenced_of_fence (b.dropBlankEnds_append hbefore hbehind) b.opens b.closes]
      exact b.inside_free

/-! ### Examples -/

/-- Whether no line of an example's text closes a fence. -/
def IsFreeOfClosing (e : Example) : Prop :=
  ∀ l ∈ Text.lines e.text.toList, closesFence l = false

section
variable {ls : List (List Char)} (hfeed : ∀ l ∈ ls, '\n' ∉ l) (hend : ∀ l ∈ ls, trimEnd l = l)
include hfeed hend

theorem isFreeOfClosing_taggedExample (caption : List Char) :
    IsFreeOfClosing (taggedExample caption ls) ↔ IsUnbroken ls := by
  have hsub := unfenced_sublist ls
  have htext : (taggedExample caption ls).text.toList = dedent (unfenced ls).2 :=
    String.toList_ofList
  rw [IsFreeOfClosing, htext, forall_mem_lines_dedent (fun l hl => hfeed l (hsub.subset hl))
    (fun l hl => hend l (hsub.subset hl)), forall_mem_unfenced]

/-- The lines of a fence hold no line that closes it, and without indentation they do not either. -/
theorem isFreeOfClosing_of_mem_descriptionAndExamples {e : Example}
    (he : e ∈ (descriptionAndExamples ls).2) : IsFreeOfClosing e := by
  obtain ⟨blocks, rest, hcut⟩ := exists_isFenceCut ls
  rw [hcut.examples_eq] at he
  obtain ⟨b, hb, rfl⟩ := List.mem_map.mp he
  have hmem : ∀ l ∈ b.inside, l ∈ ls := by
    intro l hl
    rw [hcut.eq_append]
    refine List.mem_append_left _ (List.mem_flatMap.mpr ⟨b, hb, ?_⟩)
    simp [FencedBlock.lines, hl]
  have htext : b.sample.text.toList = dedent b.inside := String.toList_ofList
  rw [IsFreeOfClosing, htext, forall_mem_lines_dedent (fun l hl => hfeed l (hmem l hl))
    (fun l hl => hend l (hmem l hl))]
  exact b.inside_free

end

/-! ### The examples of a comment -/

/-- Only the front of a line is taken off. -/
theorem dropGutter_suffix (l : List Char) : dropGutter l <:+ l := by
  have hstart := Text.trimStart_suffix l
  unfold dropGutter
  split
  · rename_i rest h
    rw [h] at hstart
    exact ((List.suffix_cons ' ' rest).trans (List.suffix_cons '*' _)).trans hstart
  · rename_i rest _ h
    rw [h] at hstart
    exact (List.suffix_cons '*' rest).trans hstart
  · exact hstart

theorem not_mem_of_mem_commentLines {comment l : List Char} (hl : l ∈ commentLines comment) :
    '\n' ∉ l := by
  obtain ⟨m, hm, rfl⟩ := List.mem_map.mp hl
  exact fun hmem => Text.not_mem_of_mem_lines hm ((dropGutter_suffix m).subset hmem)

/-- Lines of a comment that are trimmed at their ends hold no line feed and no more to trim. -/
theorem map_trimEnd_of_mem_commentLines {comment : List Char} {ls : List (List Char)}
    (h : ∀ l ∈ ls, l ∈ commentLines comment) :
    (∀ l ∈ ls.map trimEnd, '\n' ∉ l) ∧ ∀ l ∈ ls.map trimEnd, trimEnd l = l := by
  simp only [List.forall_mem_map]
  refine ⟨fun l hl hmem => ?_, fun l _ => Text.trimEnd_trimEnd l⟩
  exact not_mem_of_mem_commentLines (h l hl) ((List.rdropWhile_prefix _ l).subset hmem)

namespace IsCut
variable {comment : List Char} {opening : List (List Char)} {xs : List Segment}
  (h : IsCut (commentLines comment) opening xs)
include h

theorem isFreeOfClosing_opening : ∀ e ∈ openingExamples opening, IsFreeOfClosing e := by
  have hmem : ∀ l ∈ opening, l ∈ commentLines comment := by
    intro l hl
    rw [h.eq_append]
    exact List.mem_append_left _ hl
  obtain ⟨hfeed, hend⟩ := map_trimEnd_of_mem_commentLines hmem
  exact fun e he => isFreeOfClosing_of_mem_descriptionAndExamples hfeed hend he

/-- No line of an example behind a tag closes a fence exactly if its code is unbroken. -/
theorem isFreeOfClosing_sample :
    ∀ x ∈ xs, IsFreeOfClosing x.sample ↔ IsUnbroken (x.body.map trimEnd) := by
  intro x hx
  have hmem : ∀ l ∈ x.body, l ∈ commentLines comment := by
    intro l hl
    rw [h.eq_append]
    exact List.mem_append_right _ (List.mem_flatMap.mpr ⟨x, hx, List.mem_cons_of_mem _ hl⟩)
  obtain ⟨hfeed, hend⟩ := map_trimEnd_of_mem_commentLines hmem
  exact isFreeOfClosing_taggedExample hfeed hend _

end IsCut

end DocComments.Comment
