import DocComments.Comment.Fence
import DocComments.Proofs.Text.TrimmedLines
import Mathlib.Data.List.Destutter
import Mathlib.Data.List.Flatten

/-!
# Fenced blocks of a description

The lines of a description fall into fenced blocks, each with the plain lines in front of it, and a
rest in which no fence is closed, and they do so in one way only. Every block is taken out and makes
one example; all other lines stay. A closing line may be an opening line as well, so taking blocks
out could bring an opening line and a closing one together. It does not: the lines that stay in
front of the rest open nothing, and trimming takes blanks alone.
-/

namespace DocComments.Comment
open Text (trim trimEnd trimStart unlines isBlankText trimLines)

/-! ### Lines of fences -/

/-- A blank line opens no fence. -/
theorem fenceLanguage?_of_isBlankText {l : List Char} (h : isBlankText l = true) :
    fenceLanguage? l = none := by
  rw [fenceLanguage?, Text.trim_eq_nil h]
  rfl

/-- A blank line closes no fence. -/
theorem closesFence_of_isBlankText {l : List Char} (h : isBlankText l = true) :
    closesFence l = false := by
  rw [closesFence, Text.trim_eq_nil h]
  rfl

/-! ### Blocks -/

/-- A line that opens a fence and the lines up to the first that closes it, with lines in front of
which none opens a fence. -/
@[ext]
structure FencedBlock where
  before : List (List Char)
  opening : List Char
  language : List Char
  inside : List (List Char)
  closing : List Char
  before_free : ∀ l ∈ before, fenceLanguage? l = none
  opens : fenceLanguage? opening = some language
  inside_free : ∀ l ∈ inside, closesFence l = false
  closes : closesFence closing = true

namespace FencedBlock

/-- All lines of the block. -/
def lines (b : FencedBlock) : List (List Char) :=
  b.before ++ b.opening :: (b.inside ++ [b.closing])

/-- The lines directly in front of the fence, back to a blank one. -/
def paragraph (b : FencedBlock) : List (List Char) :=
  (b.before.rtakeWhile (!isBlankText ·)).map trim

/-- The example that the block makes. -/
def sample (b : FencedBlock) : Example :=
  fencedExample b.language b.paragraph b.inside

theorem lines_append (b : FencedBlock) (ls : List (List Char)) :
    b.lines ++ ls = b.before ++ b.opening :: (b.inside ++ b.closing :: ls) := by
  rw [lines, List.append_assoc, List.cons_append, List.append_assoc, List.singleton_append]

/-- The block starts with the lines up to the first that opens a fence. -/
theorem span_before (b : FencedBlock) (ls : List (List Char)) :
    (b.lines ++ ls).takeWhile (fun l => (fenceLanguage? l).isNone) = b.before ∧
      (b.lines ++ ls).dropWhile (fun l => (fenceLanguage? l).isNone) =
        b.opening :: (b.inside ++ b.closing :: ls) := by
  rw [lines_append]
  apply Text.span_append
  · exact fun l hl => Option.isNone_iff_eq_none.mpr (b.before_free l hl)
  · rintro l ⟨⟩
    rw [b.opens]
    rfl

/-- The fence ends with the first line that closes it. -/
theorem span_inside (b : FencedBlock) (ls : List (List Char)) :
    (b.inside ++ b.closing :: ls).takeWhile (!closesFence ·) = b.inside ∧
      (b.inside ++ b.closing :: ls).dropWhile (!closesFence ·) = b.closing :: ls := by
  apply Text.span_append
  · exact fun l hl => by rw [b.inside_free l hl]; rfl
  · rintro l ⟨⟩
    rw [b.closes]
    rfl

/-- A block in front of other lines is known from all the lines. -/
theorem append_inj {b b' : FencedBlock} {ls ls' : List (List Char)}
    (h : b.lines ++ ls = b'.lines ++ ls') : b = b' ∧ ls = ls' := by
  obtain ⟨hbefore, hfence⟩ := b.span_before ls
  rw [h, (b'.span_before ls').1] at hbefore
  rw [h, (b'.span_before ls').2] at hfence
  obtain ⟨hopening, hrest⟩ := List.cons.inj hfence
  obtain ⟨hinside, hclosing⟩ := b.span_inside ls
  rw [← hrest, (b'.span_inside ls').1] at hinside
  rw [← hrest, (b'.span_inside ls').2] at hclosing
  obtain ⟨hclosing, hls⟩ := List.cons.inj hclosing
  have hlanguage : b'.language = b.language := by
    have hopens := b'.opens
    rw [hopening, b.opens] at hopens
    exact (Option.some.inj hopens).symm
  exact ⟨(FencedBlock.ext hbefore hopening hlanguage hinside hclosing).symm, hls.symm⟩

end FencedBlock

/-! ### Lines without a closed fence -/

/-- No line that opens a fence is followed by one that closes it. -/
def IsUnfenced (ls : List (List Char)) : Prop :=
  ls.Pairwise fun l m => (fenceLanguage? l).isSome = true → closesFence m = false

theorem IsUnfenced.sublist {ls ms : List (List Char)} (h : IsUnfenced ms) (hls : ls.Sublist ms) :
    IsUnfenced ls :=
  List.Pairwise.sublist hls h

/-- Lines that open no fence may stand in front. -/
theorem IsUnfenced.append_left {front ls : List (List Char)} (h : IsUnfenced ls)
    (hfront : ∀ l ∈ front, fenceLanguage? l = none) : IsUnfenced (front ++ ls) := by
  have hvacuous : ∀ l ∈ front, ∀ m, (fenceLanguage? l).isSome = true → closesFence m = false := by
    intro l hl m hopens
    rw [hfront l hl] at hopens
    cases hopens
  refine List.pairwise_append.mpr ⟨?_, h, fun l hl m _ => hvacuous l hl m⟩
  exact List.pairwise_of_forall_mem_list fun l hl m _ => hvacuous l hl m

theorem IsUnfenced.of_forall {ls : List (List Char)} (h : ∀ l ∈ ls, fenceLanguage? l = none) :
    IsUnfenced ls := by
  rw [← List.append_nil ls]
  exact IsUnfenced.append_left List.Pairwise.nil h

/-- Blanks in front of the first line do not matter. -/
theorem IsUnfenced.modifyHead {ls : List (List Char)} (h : IsUnfenced ls) :
    IsUnfenced (ls.modifyHead trimStart) := by
  cases ls with
  | nil => exact h
  | cons l ls =>
    have hopens : fenceLanguage? (trimStart l) = fenceLanguage? l := by
      rw [fenceLanguage?, Text.trim_trimStart, fenceLanguage?]
    obtain ⟨hl, hls⟩ := List.pairwise_cons.mp h
    exact List.pairwise_cons.mpr ⟨fun m hm => hopens ▸ hl m hm, hls⟩

theorem IsUnfenced.trimLines {ls : List (List Char)} (h : IsUnfenced ls) :
    IsUnfenced (trimLines ls) :=
  (h.sublist (List.dropWhile_sublist _)).modifyHead.sublist (List.rdropWhile_prefix _ _).sublist

/-- Lines without a closed fence are all kept. -/
theorem IsUnfenced.liftFences_eq {ls : List (List Char)} (h : IsUnfenced ls)
    (paragraph : List (List Char)) : liftFences paragraph ls = (ls, []) := by
  induction ls generalizing paragraph with
  | nil => rw [liftFences]
  | cons l ls ih =>
    obtain ⟨hl, hls⟩ := List.pairwise_cons.mp h
    rw [liftFences]
    cases hopens : fenceLanguage? l with
    | none => simp only [ih hls]
    | some language =>
      have hopen : ¬ ls.any closesFence = true := by
        rw [List.any_eq_true]
        rintro ⟨m, hm, hcloses⟩
        rw [hl m hm (by rw [hopens]; rfl)] at hcloses
        cases hcloses
      simp only [if_neg hopen]

/-- Where a fence is closed, a block stands in front. -/
theorem exists_block_of_not_isUnfenced {ls : List (List Char)} (h : ¬ IsUnfenced ls) :
    ∃ (b : FencedBlock) (rest : List (List Char)), ls = b.lines ++ rest := by
  induction ls with
  | nil => exact absurd List.Pairwise.nil h
  | cons l ls ih =>
    cases hopens : fenceLanguage? l with
    | none =>
      have hls : ¬ IsUnfenced ls := fun hls =>
        h (hls.append_left (List.forall_mem_singleton.mpr hopens))
      obtain ⟨b, rest, rfl⟩ := ih hls
      exact ⟨{ b with
        before := l :: b.before
        before_free := List.forall_mem_cons.mpr ⟨hopens, b.before_free⟩ }, rest, rfl⟩
    | some language =>
      cases hfirst : ls.find? closesFence with
      | some closing =>
        obtain ⟨hcloses, inside, rest, rfl, hinside⟩ := List.find?_eq_some_iff_append.mp hfirst
        exact ⟨{
          before := []
          opening := l
          language := language
          inside := inside
          closing := closing
          before_free := List.forall_mem_nil _
          opens := hopens
          inside_free := fun m hm => by simpa using hinside m hm
          closes := hcloses }, rest, by simp [FencedBlock.lines]⟩
      | none =>
        have hnone : ∀ m ∈ ls, closesFence m = false := by
          simpa using List.find?_eq_none.mp hfirst
        refine absurd (List.pairwise_cons.mpr ⟨fun m hm _ => hnone m hm, ?_⟩) h
        exact List.pairwise_of_forall_mem_list fun _ _ m hm _ => hnone m hm

/-! ### Cutting lines into blocks -/

/-- Lines are cut into fenced blocks and a rest in which no fence is closed. -/
structure IsFenceCut (ls : List (List Char)) (blocks : List FencedBlock)
    (rest : List (List Char)) : Prop where
  eq_append : ls = blocks.flatMap FencedBlock.lines ++ rest
  rest_unfenced : IsUnfenced rest

theorem FencedBlock.not_isUnfenced_append (b : FencedBlock) (ls : List (List Char)) :
    ¬ IsUnfenced (b.lines ++ ls) := by
  intro h
  rw [b.lines_append] at h
  have hopening := (List.pairwise_cons.mp (List.pairwise_append.mp h).2.1).1
  have hclosing := hopening b.closing (by simp) (by rw [b.opens]; rfl)
  rw [b.closes] at hclosing
  cases hclosing

/-- All lines can be cut so. -/
theorem exists_isFenceCut (ls : List (List Char)) : ∃ blocks rest, IsFenceCut ls blocks rest := by
  induction hn : ls.length using Nat.strong_induction_on generalizing ls with
  | _ n ih =>
    by_cases h : IsUnfenced ls
    · exact ⟨[], ls, rfl, h⟩
    · obtain ⟨b, behind, rfl⟩ := exists_block_of_not_isUnfenced h
      have hlt : behind.length < n := by
        rw [← hn, b.lines_append, List.length_append, List.length_cons, List.length_append,
          List.length_cons]
        omega
      obtain ⟨blocks, rest, rfl, hrest⟩ := ih _ hlt behind rfl
      exact ⟨b :: blocks, rest, by rw [List.flatMap_cons, List.append_assoc], hrest⟩

namespace IsFenceCut
variable {ls rest : List (List Char)} {blocks : List FencedBlock}

/-- Lines are cut in one way only. -/
theorem unique (h : IsFenceCut ls blocks rest) {blocks' : List FencedBlock}
    {rest' : List (List Char)} (h' : IsFenceCut ls blocks' rest') :
    blocks' = blocks ∧ rest' = rest := by
  induction blocks generalizing ls blocks' with
  | nil =>
    have hls : ls = rest := h.eq_append
    cases blocks' with
    | nil => exact ⟨rfl, h'.eq_append.symm.trans hls⟩
    | cons b' blocks' =>
      have hunfenced := h.rest_unfenced
      rw [← hls, h'.eq_append, List.flatMap_cons, List.append_assoc] at hunfenced
      exact absurd hunfenced (b'.not_isUnfenced_append _)
  | cons b blocks ih =>
    have hls := h.eq_append
    rw [List.flatMap_cons, List.append_assoc] at hls
    cases blocks' with
    | nil =>
      have hunfenced := h'.rest_unfenced
      have hrest' : ls = rest' := h'.eq_append
      rw [← hrest', hls] at hunfenced
      exact absurd hunfenced (b.not_isUnfenced_append _)
    | cons b' blocks' =>
      have hls' := h'.eq_append
      rw [List.flatMap_cons, List.append_assoc, hls] at hls'
      obtain ⟨rfl, hbehind⟩ := FencedBlock.append_inj hls'
      obtain ⟨rfl, rfl⟩ := ih ⟨rfl, h.rest_unfenced⟩ ⟨hbehind, h'.rest_unfenced⟩
      exact ⟨rfl, rfl⟩

/-- The lines outside the fences stay in order. -/
theorem kept_sublist (h : IsFenceCut ls blocks rest) :
    (blocks.flatMap FencedBlock.before ++ rest).Sublist ls := by
  rw [h.eq_append]
  refine List.Sublist.append_right ?_ rest
  exact List.Sublist.flatMap_right blocks fun b _ => List.sublist_append_left _ _

/-- The lines that stay open no fence in front of the rest, so no fence is closed in them. -/
theorem kept_unfenced (h : IsFenceCut ls blocks rest) :
    IsUnfenced (blocks.flatMap FencedBlock.before ++ rest) := by
  refine h.rest_unfenced.append_left fun l hl => ?_
  obtain ⟨b, -, hl⟩ := List.mem_flatMap.mp hl
  exact b.before_free l hl

end IsFenceCut

/-! ### Reading -/

/-- The paragraph that lines leave is what follows the last blank one. -/
theorem foldl_extendParagraph (ls : List (List Char)) :
    ls.foldl extendParagraph [] = (ls.rtakeWhile (!isBlankText ·)).map trim := by
  induction ls using List.reverseRecOn with
  | nil => rfl
  | append_singleton ls l ih =>
    rw [List.foldl_concat, ih, extendParagraph, List.rtakeWhile_concat]
    cases isBlankText l with
    | true => rfl
    | false => simp

/-- Lines that open no fence are kept and lead to the paragraph of the next one. -/
theorem liftFences_append {front : List (List Char)}
    (hfront : ∀ l ∈ front, fenceLanguage? l = none) (paragraph ls : List (List Char)) :
    liftFences paragraph (front ++ ls) =
      (front ++ (liftFences (front.foldl extendParagraph paragraph) ls).1,
        (liftFences (front.foldl extendParagraph paragraph) ls).2) := by
  induction front generalizing paragraph with
  | nil => rfl
  | cons l front ih =>
    obtain ⟨hl, hfront⟩ := List.forall_mem_cons.mp hfront
    rw [List.cons_append, liftFences, hl]
    simp only [ih hfront]
    rfl

/-- A block in front of other lines makes an example, and only the lines before its fence stay. -/
theorem FencedBlock.liftFences_append (b : FencedBlock) (ls : List (List Char)) :
    liftFences [] (b.lines ++ ls) =
      (b.before ++ (liftFences [] ls).1, b.sample :: (liftFences [] ls).2) := by
  have hcloses : (b.inside ++ b.closing :: ls).any closesFence = true :=
    List.any_eq_true.mpr ⟨b.closing, by simp, b.closes⟩
  rw [b.lines_append, Comment.liftFences_append b.before_free, foldl_extendParagraph, liftFences,
    b.opens]
  simp only [if_pos hcloses, (b.span_inside ls).1, (b.span_inside ls).2, List.tail_cons]
  rfl

/-- Every block makes an example, in order, and all lines outside their fences stay. -/
theorem IsFenceCut.liftFences_eq {ls rest : List (List Char)} {blocks : List FencedBlock}
    (h : IsFenceCut ls blocks rest) :
    liftFences [] ls =
      (blocks.flatMap FencedBlock.before ++ rest, blocks.map FencedBlock.sample) := by
  obtain ⟨rfl, hrest⟩ := h
  induction blocks with
  | nil => exact hrest.liftFences_eq []
  | cons b blocks ih =>
    rw [List.flatMap_cons, List.append_assoc, b.liftFences_append, ih, List.flatMap_cons,
      List.append_assoc, List.map_cons]

theorem IsFenceCut.examples_eq {ls rest : List (List Char)} {blocks : List FencedBlock}
    (h : IsFenceCut ls blocks rest) :
    (descriptionAndExamples ls).2 = blocks.map FencedBlock.sample := by
  rw [descriptionAndExamples, h.liftFences_eq]

end DocComments.Comment
