import DocComments.Comment.Reader
import DocComments.Proofs.Text.Lines

/-!
# Comments as they are written

A comment is written line by line, each line behind a star, and its tags one after the other, each
with the lines that belong to it. What is read of such a comment are the lines of the description
and the sections that were written, with blank ends taken off. Nothing is said here of comments
that are written in other ways.
-/

namespace DocComments.Comment
open Text (trim trimStart trimEnd unlines dropReturn)
open Unicode (isBlank)

/-- A line of a comment behind the star in front of it. -/
def writtenLine (line : List Char) : List Char :=
  ' ' :: '*' :: ' ' :: line

/-- The comment with the given lines. -/
def written (ls : List (List Char)) : List Char :=
  ['/', '*', '*', '\n'] ++ ls.flatMap (writtenLine · ++ ['\n']) ++ [' ', '*', '/']

/-- A line starts a tag if its first character that is not blank is the sign of a tag, with the
first character of a key behind it. -/
def StartsTag (line : List Char) : Prop :=
  ∃ c s, trimStart line = '@' :: c :: s ∧ isKeyStart c = true

theorem startsTag_iff {l : List Char} : StartsTag l ↔ (tagLine? l).isSome = true := by
  unfold StartsTag tagLine?
  split
  · rename_i c s hstart
    constructor
    · rintro ⟨d, t, htag, hd⟩
      rw [hstart] at htag
      cases htag
      rw [if_pos hd]
      rfl
    · intro hsome
      by_cases hc : isKeyStart c = true
      · exact ⟨c, s, hstart, hc⟩
      · rw [if_neg hc] at hsome
        cases hsome
  · rename_i hnone
    constructor
    · rintro ⟨c, s, htag, -⟩
      exact absurd htag (hnone c s)
    · intro hsome
      cases hsome

instance : DecidablePred StartsTag :=
  fun _ => decidable_of_iff _ startsTag_iff.symm

theorem tagLine?_eq_none {l : List Char} (h : ¬ StartsTag l) : tagLine? l = none := by
  rwa [startsTag_iff, Option.not_isSome_iff_eq_none] at h

/-- Whether a text is the key of a tag. -/
def IsKey : List Char → Prop
  | [] => False
  | c :: s => isKeyStart c = true ∧ ∀ d ∈ s, isKeyPart d = true

theorem IsKey.not_mem_feed {key : List Char} (h : IsKey key) : '\n' ∉ key := by
  cases key with
  | nil => exact h.elim
  | cons c s =>
    intro hmem
    rcases List.mem_cons.mp hmem with rfl | hmem
    · exact absurd h.1 (by decide)
    · exact absurd (h.2 _ hmem) (by decide)

namespace Section

/-- The lines of a section: the tag with the text behind its key, then the others. -/
def lines (x : Section) : List (List Char) :=
  ('@' :: (x.key ++ x.head)) :: x.body

/-- A section can be written if its key is one that ends where the text behind it starts, and none
of its other lines starts a tag of its own. -/
structure Writable (x : Section) : Prop where
  key : IsKey x.key
  apart : ∀ c, x.head.head? = some c → isKeyPart c = false
  head : '\n' ∉ x.head
  body : ∀ l ∈ x.body, '\n' ∉ l ∧ ¬ StartsTag l

theorem Writable.not_mem_lines {x : Section} (h : x.Writable) {l : List Char} (hl : l ∈ x.lines) :
    '\n' ∉ l := by
  rcases List.mem_cons.mp hl with rfl | hl
  · intro hmem
    rcases List.mem_cons.mp hmem with hsign | hmem
    · cases hsign
    · rcases List.mem_append.mp hmem with hkey | hhead
      · exact h.key.not_mem_feed hkey
      · exact h.head hhead
  · exact (h.body l hl).1

/-- The section with its first line trimmed. -/
def trimHead (x : Section) : Section :=
  { x with head := trim x.head }

end Section

theorem inside_written (ls : List (List Char)) :
    inside (written ls) = unlines (([] :: ls.map writtenLine) ++ [[' ']]) := by
  have hbody : unlines (([] :: ls.map writtenLine) ++ [[' ']]) =
      '\n' :: (ls.flatMap (writtenLine · ++ ['\n']) ++ [' ']) := by
    rw [Text.unlines_append_singleton, List.flatMap_cons, List.flatMap_map]
    simp
  have hwritten : written ls = ['/', '*', '*'] ++
      (unlines (([] :: ls.map writtenLine) ++ [[' ']]) ++ ['*', '/']) := by
    rw [hbody]
    simp [written]
  have htrim : trim (written ls) = written ls := by
    apply Text.trim_eq_self (d := '/')
      (t := ['/', '*', '*', '\n'] ++ ls.flatMap (writtenLine · ++ ['\n']) ++ [' ', '*'])
      (by decide) (by decide)
    simp
  rw [inside, htrim, hwritten, Text.dropOpening_append, Text.dropClosing_append]

theorem dropGutter_writtenLine (l : List Char) :
    dropGutter (dropReturn (writtenLine l)) = dropReturn l := by
  have hline : dropReturn (writtenLine l) = ' ' :: '*' :: ' ' :: dropReturn l :=
    Text.dropReturn_append_cons (c := ' ') (by decide) [' ', '*'] l
  rw [hline]
  rfl

/-- The lines of a written comment: an empty one, those that were written, an empty one. -/
theorem commentLines_written {ls : List (List Char)} (h : ∀ l ∈ ls, '\n' ∉ l) :
    commentLines (written ls) = [] :: (ls.map dropReturn ++ [[]]) := by
  have hlines : ∀ l ∈ [] :: ls.map writtenLine, '\n' ∉ l := by
    intro l hl
    rcases List.mem_cons.mp hl with rfl | hl
    · exact List.not_mem_nil
    · obtain ⟨m, hm, rfl⟩ := List.mem_map.mp hl
      simpa [writtenLine] using h m hm
  rw [commentLines, inside_written, Text.lines_unlines hlines (by decide) (by decide)]
  have hmap : (ls.map writtenLine).map (fun l => dropGutter (dropReturn l)) =
      ls.map dropReturn := by
    rw [List.map_map]
    exact List.map_congr_left fun l _ => dropGutter_writtenLine l
  rw [List.map_append, List.map_map, List.map_cons, Function.comp_def, hmap]
  rfl

theorem tagLine?_append_return (l : List Char) : tagLine? (l ++ ['\r']) = tagLine? l := by
  have hend : isKeyPart '\r' = false := by decide
  have hblank : isBlank '\r' = true := by decide
  by_cases hl : trimStart l = []
  · have hempty : trimStart (l ++ ['\r']) = [] := by
      simp only [trimStart] at hl ⊢
      rw [List.dropWhile_append, if_pos (by rw [hl]; rfl)]
      rfl
    rw [tagLine?, hempty, tagLine?, hl]
  · rw [tagLine?, Text.trimStart_suffix_of_ne_nil hl, tagLine?]
    rcases trimStart l with _ | ⟨a, _ | ⟨c, s⟩⟩
    · rfl
    · by_cases ha : a = '@'
      · subst ha
        rfl
      · simp [ha]
    · by_cases ha : a = '@'
      · subst ha
        obtain ⟨htake, hdrop⟩ := Text.span_append_singleton (p := isKeyPart) (b := '\r') hend s
        simp only [List.cons_append, htake, hdrop, Text.trim_append_blank hblank]
      · simp [ha]

/-- Whether a line starts a tag, and which one, does not depend on a carriage return at its
end. -/
theorem tagLine?_dropReturn (l : List Char) : tagLine? (dropReturn l) = tagLine? l := by
  rcases Text.eq_dropReturn_or l with h | h
  · rw [h]
  · conv_rhs => rw [h, tagLine?_append_return]

/-- The first line of a section is read as its key and what stands behind the key. -/
theorem tagLine?_written {key head : List Char} (hkey : IsKey key)
    (hapart : ∀ c, head.head? = some c → isKeyPart c = false) :
    tagLine? ('@' :: (key ++ head)) = some (key, trim head) := by
  cases key with
  | nil => exact hkey.elim
  | cons c s =>
    obtain ⟨hc, hs⟩ := hkey
    have hstart : trimStart ('@' :: (c :: s ++ head)) = '@' :: c :: (s ++ head) :=
      Text.trimStart_cons_of_not_blank (by decide) _
    obtain ⟨htake, hdrop⟩ := Text.span_append hs hapart
    rw [tagLine?, hstart]
    simp only [hc, if_true, htake, hdrop]

/-- Lines that start no tag come before all sections. -/
theorem sections_append {d : List (List Char)} (h : ∀ l ∈ d, tagLine? l = none)
    (ls : List (List Char)) :
    sections (d ++ ls) = (d ++ (sections ls).1, (sections ls).2) := by
  induction d with
  | nil => rfl
  | cons l d ih =>
    rw [List.cons_append, sections, ih fun m hm => h m (List.mem_cons_of_mem l hm),
      h l List.mem_cons_self]
    rfl

end DocComments.Comment
