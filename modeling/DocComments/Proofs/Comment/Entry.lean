import DocComments.Proofs.Comment.Description
import DocComments.Proofs.Comment.UnbrokenCode

/-!
# Entries of a comment

A comment that is written from a description and a list of entries, each of them a tag or an
example, is read as that description and those entries. An entry comes back as it was written if
its text is already in the form in which such texts are kept: a value without blanks around its
lines, code without common indentation. How texts in other forms are changed is not said here.
-/

namespace DocComments.Comment
open Text (trim trimEnd unlines isBlankText)
open Unicode (isBlank)

/-- What stands behind a description: a tag with the lines of its value, of which there is at
least one, or an example with its caption and the lines of its code. -/
inductive Entry
  | tag (key first : List Char) (others : List (List Char))
  | sample (caption : List Char) (code : List (List Char))

namespace Entry

/-- The section that an entry is written as. -/
def toSection : Entry → Section
  | tag key first others => ⟨key, ' ' :: first, others⟩
  | sample caption code => ⟨exampleKey, ' ' :: caption, code⟩

/-- The lines of an entry as they are written. -/
def lines (x : Entry) : List (List Char) :=
  x.toSection.lines

/-- The tag that an entry stands for. -/
def tag? : Entry → Option Tag
  | tag key first others =>
    some { key := String.ofList key, value := String.ofList (unlines (first :: others)) }
  | sample _ _ => none

/-- The example that an entry stands for. -/
def example? : Entry → Option Example
  | tag _ _ _ => none
  | sample caption code =>
    some
      { language := Example.defaultLanguage
        description := String.ofList caption
        form := .tagged
        text := String.ofList (unlines code) }

end Entry

/-- The lines of a value that is kept as it is written: no blanks around a line, no empty lines
around the value. -/
structure IsValue (first : List Char) (others : List (List Char)) : Prop where
  noFeed : ∀ l ∈ first :: others, '\n' ∉ l
  trimmedLines : ∀ l ∈ first :: others, trim l = l
  trimmed : trim (unlines (first :: others)) = unlines (first :: others)
  noTag : ∀ l ∈ others, ¬ StartsTag l

/-- The marks of a caption, in small letters. -/
def captionMarks : List (List Char) :=
  ["<caption>".toList, "</caption>".toList]

/-- A caption that is kept as it is written: one trimmed line without marks in whatever case. -/
structure IsCaption (caption : List Char) : Prop where
  noFeed : '\n' ∉ caption
  trimmed : trim caption = caption
  noMark : ∀ mark ∈ captionMarks, ¬ mark <:+: caption.map Char.toLower

/-- Whether lines are fenced as a whole. -/
def IsFenced (ls : List (List Char)) : Prop :=
  ∃ opening inside closing, ls = opening :: (inside ++ [closing]) ∧
    (fenceLanguage? opening).isSome = true ∧ closesFence closing = true

/-- The lines of code that is kept as it is written: no blanks at the end of a line, no fence
around all of it and, if there is any code, no blank line around it and some line that is not
indented. -/
structure IsCode (code : List (List Char)) : Prop where
  noFeed : ∀ l ∈ code, '\n' ∉ l
  noBlankEnd : ∀ l ∈ code, trimEnd l = l
  noTag : ∀ l ∈ code, ¬ StartsTag l
  notFenced : ¬ IsFenced code
  noBlankFirst : unlines code ≠ [] → ∀ l, code.head? = some l → isBlankText l = false
  noBlankLast : unlines code ≠ [] → ∀ l, code.getLast? = some l → isBlankText l = false
  unindented : unlines code ≠ [] → ∃ c s, c :: s ∈ code ∧ isBlank c = false

/-- Whether an entry is read back as it is written. The key of a tag is not that of an example. -/
def Entry.IsKept : Entry → Prop
  | tag key first others => IsKey key ∧ key ≠ exampleKey ∧ IsValue first others
  | sample caption code => IsCaption caption ∧ IsCode code

theorem trim_cons_space {s : List Char} (h : trim s = s) : trim (' ' :: s) = s := by
  rw [Text.trim_cons_blank (by decide), h]

theorem head?_cons_space {s : List Char} {c : Char} (h : (' ' :: s).head? = some c) :
    isKeyPart c = false := by
  rw [← Option.some.inj h]
  rfl

theorem not_mem_cons_space {s : List Char} (h : '\n' ∉ s) : '\n' ∉ ' ' :: s := by
  simpa using h

/-- An entry that is kept can be written. -/
theorem Entry.IsKept.writable {x : Entry} (h : x.IsKept) : x.toSection.Writable := by
  cases x with
  | tag key first others =>
    obtain ⟨hkey, -, hvalue⟩ := h
    refine ⟨hkey, fun c hc => head?_cons_space hc, ?_, ?_⟩
    · exact not_mem_cons_space (hvalue.noFeed first List.mem_cons_self)
    · exact fun l hl => ⟨hvalue.noFeed l (List.mem_cons_of_mem first hl), hvalue.noTag l hl⟩
  | sample caption code =>
    obtain ⟨hcaption, hcode⟩ := h
    refine ⟨⟨by decide, List.all_eq_true.mp (by decide)⟩, fun c hc => head?_cons_space hc, ?_, ?_⟩
    · exact not_mem_cons_space hcaption.noFeed
    · exact fun l hl => ⟨hcode.noFeed l hl, hcode.noTag l hl⟩

/-- Nothing is dropped from a text that holds no mark of a caption. -/
theorem dropCaptionMarks_eq_self {s : List Char}
    (h : ∀ mark ∈ captionMarks, ¬ mark <:+: s.map Char.toLower) : dropCaptionMarks s = s := by
  induction s with
  | nil => rw [dropCaptionMarks]
  | cons c s ih =>
    have hhere : ∀ mark ∈ captionMarks,
        ¬ mark.isPrefixOf (((c :: s).take 10).map Char.toLower) = true := by
      intro mark hmark hprefix
      rw [List.map_take] at hprefix
      exact h mark hmark (((List.isPrefixOf_iff_prefix.mp hprefix).trans
        (List.take_prefix _ _)).isInfix)
    have hrest : ∀ mark ∈ captionMarks, ¬ mark <:+: s.map Char.toLower := by
      intro mark hmark hmem
      exact h mark hmark (hmem.trans (List.suffix_cons _ _).isInfix)
    rw [dropCaptionMarks, if_neg (hhere _ (by simp [captionMarks])),
      if_neg (hhere _ (by simp [captionMarks])), ih hrest]

theorem IsCaption.trim_dropCaptionMarks {caption : List Char} (h : IsCaption caption) :
    trim (dropCaptionMarks caption) = caption := by
  rw [dropCaptionMarks_eq_self h.noMark, h.trimmed]

/-- Nothing is dropped at the ends of a list that neither starts nor ends so. -/
theorem dropEnds_eq_self {α : Type} {p : α → Bool} {a b : α} {s t : List α} (ha : p a = false)
    (hb : p b = false) (h : a :: s = t ++ [b]) :
    (((a :: s).dropWhile p).reverse.dropWhile p).reverse = a :: s := by
  rw [List.dropWhile_cons_of_neg (by simp [ha]), h, List.reverse_append, List.reverse_singleton,
    List.singleton_append, List.dropWhile_cons_of_neg (by simp [hb]), List.reverse_cons,
    List.reverse_reverse]

namespace IsCode
variable {code : List (List Char)} (h : IsCode code)
include h

theorem map_trimEnd : code.map trimEnd = code := by
  rw [List.map_congr_left h.noBlankEnd, List.map_id']

/-- Code neither starts nor ends with a blank line. -/
theorem dropBlankEnds_eq (hne : unlines code ≠ []) : dropBlankEnds code = code := by
  rcases List.eq_nil_or_concat code with hnil | ⟨ls, l, hlast⟩
  · rw [hnil]
    rfl
  · rw [List.concat_eq_append] at hlast
    cases hcode : code with
    | nil => rfl
    | cons m ms =>
      have hm := h.noBlankFirst hne m (by rw [hcode]; rfl)
      have hl := h.noBlankLast hne l (by rw [hlast]; simp)
      exact dropEnds_eq_self hm hl (hcode.symm.trans hlast)

theorem dedent_eq : dedent code = unlines code := by
  by_cases hne : unlines code = []
  · rcases Text.eq_of_unlines_eq_nil hne with rfl | rfl <;> rfl
  · obtain ⟨c, s, hmem, hc⟩ := h.unindented hne
    have hmove : code.map (moveLeft 0) = code := by
      rw [List.map_congr_left fun l _ => moveLeft_zero l, List.map_id']
    rw [dedent, commonIndent_eq_zero hmem hc, hmove,
      trimEnd_trimFeeds_unlines h.noFeed h.noBlankEnd, h.dropBlankEnds_eq hne]

/-- Code without a fence around it is left as it is. -/
theorem unfenced_eq : unfenced code = (Example.defaultLanguage, code) := by
  by_cases hne : unlines code = []
  · rcases Text.eq_of_unlines_eq_nil hne with rfl | rfl <;> rfl
  · rcases unfenced_eq_or code with heq | ⟨opening, language, inside, closing, hls, hopens,
      hcloses, -⟩
    · exact heq
    · rw [h.dropBlankEnds_eq hne] at hls
      exact absurd ⟨opening, inside, closing, hls, by rw [hopens]; rfl, hcloses⟩ h.notFenced

end IsCode

/-- A tag is read as it is written, and so is an example. -/
theorem Entry.IsKept.read {x : Entry} (h : x.IsKept) :
    x.toSection.trimHead.tag? = x.tag? ∧ x.toSection.trimHead.example? = x.example? := by
  cases x with
  | tag key first others =>
    obtain ⟨-, hkey, hvalue⟩ := h
    have hfirst := trim_cons_space (hvalue.trimmedLines first List.mem_cons_self)
    have hothers : others.map trim = others := by
      rw [List.map_congr_left fun l hl => hvalue.trimmedLines l (List.mem_cons_of_mem first hl),
        List.map_id']
    simp only [toSection, Section.trimHead, Section.tag?, Section.example?, if_neg hkey, hfirst,
      hothers, hvalue.trimmed, tag?, example?, and_self]
  | sample caption code =>
    obtain ⟨hcaption, hcode⟩ := h
    have hhead := trim_cons_space hcaption.trimmed
    simp only [toSection, Section.trimHead, Section.tag?, Section.example?, if_true, hhead,
      hcode.map_trimEnd, taggedExample, hcode.unfenced_eq, hcode.dedent_eq,
      hcaption.trim_dropCaptionMarks, tag?, example?, and_self]

/-- A comment is read as the description and the entries that it is written from, the tags in
their order and the examples in theirs. -/
theorem read_writtenEntries {d : List (List Char)} {xs : List Entry} (hd : IsPlain d)
    (hxs : ∀ x ∈ xs, x.IsKept) :
    read (written (d ++ xs.flatMap Entry.lines)) =
      { description := String.ofList (unlines d)
        tags := xs.filterMap Entry.tag?
        examples := xs.filterMap Entry.example? } := by
  have hwritable : ∀ x ∈ xs.map Entry.toSection, x.Writable := by
    intro y hy
    obtain ⟨x, hx, rfl⟩ := List.mem_map.mp hy
    exact (hxs x hx).writable
  have htags : ((xs.map Entry.toSection).map Section.trimHead).filterMap Section.tag? =
      xs.filterMap Entry.tag? := by
    rw [List.map_map, List.filterMap_map]
    exact List.filterMap_congr fun x hx => (hxs x hx).read.1
  have hexamples : ((xs.map Entry.toSection).map Section.trimHead).filterMap Section.example? =
      xs.filterMap Entry.example? := by
    rw [List.map_map, List.filterMap_map]
    exact List.filterMap_congr fun x hx => (hxs x hx).read.2
  have hlines : xs.flatMap Entry.lines = (xs.map Entry.toSection).flatMap Section.lines :=
    (List.flatMap_map Entry.toSection Section.lines xs).symm
  rw [hlines, read_written hd hwritable, htags, hexamples]

/-- A tag of two lines, indented code with a caption, a tag without a value, code without a
caption. -/
theorem read_writtenEntries_interleaved :
    ∃ d : List (List Char), ∃ xs : List Entry,
      written (d ++ xs.flatMap Entry.lines) =
        ("/**\n * Sorts.\n * \n *   * stable\n * @param list The list,\n * in any order\n" ++
          " * @example Nested call\n * if (ok)\n *   run();\n * @since-then \n" ++
          " * @example \n *   a();\n * \n * b();\n */").toList ∧
      IsPlain d ∧ (∀ x ∈ xs, x.IsKept) ∧
      read (written (d ++ xs.flatMap Entry.lines)) =
        { description := "Sorts.\n\n  * stable"
          tags := [⟨"param", "list The list,\nin any order"⟩, ⟨"since-then", ""⟩]
          examples := [⟨"js", "Nested call", .tagged, "if (ok)\n  run();"⟩,
            ⟨"js", "", .tagged, "  a();\n\nb();"⟩] } := by
  let d := ["Sorts.".toList, [], "  * stable".toList]
  let nested := ["if (ok)".toList, "  run();".toList]
  let plain := ["  a();".toList, [], "b();".toList]
  let xs := [Entry.tag "param".toList "list The list,".toList ["in any order".toList],
    .sample "Nested call".toList nested, .tag "since-then".toList [] [], .sample [] plain]
  have hd : IsPlain d := ⟨⟨by decide, by decide, by decide, by decide, by decide⟩, by decide⟩
  have hnested : IsCode nested := by
    refine ⟨by decide, by decide, by decide, ?_, ?_, ?_, fun _ => ⟨'i', _, List.mem_cons_self, rfl⟩⟩
    · rintro ⟨opening, inside, closing, heq, hopening, -⟩
      rw [← (List.cons.inj heq).1] at hopening
      cases hopening
    · exact fun _ l hl => Option.some.inj hl ▸ rfl
    · exact fun _ l hl => Option.some.inj hl ▸ rfl
  have hplain : IsCode plain := by
    refine ⟨by decide, by decide, by decide, ?_, ?_, ?_,
      fun _ => ⟨'b', "();".toList, by decide, rfl⟩⟩
    · rintro ⟨opening, inside, closing, heq, hopening, -⟩
      rw [← (List.cons.inj heq).1] at hopening
      cases hopening
    · exact fun _ l hl => Option.some.inj hl ▸ rfl
    · exact fun _ l hl => Option.some.inj hl ▸ rfl
  have hxs : ∀ x ∈ xs, x.IsKept := by
    intro x hx
    simp only [xs, List.mem_cons, List.not_mem_nil, or_false] at hx
    rcases hx with rfl | rfl | rfl | rfl
    · exact ⟨⟨by decide, List.all_eq_true.mp (by decide)⟩, by decide,
        ⟨by decide, by decide, by decide, by decide⟩⟩
    · exact ⟨⟨by decide, by decide, by decide +kernel⟩, hnested⟩
    · exact ⟨⟨by decide, List.all_eq_true.mp (by decide)⟩, by decide,
        ⟨by decide, by decide, by decide, by decide⟩⟩
    · exact ⟨⟨by decide, by decide, by decide +kernel⟩, hplain⟩
  exact ⟨d, xs, by decide +kernel, hd, hxs, (read_writtenEntries hd hxs).trans (by decide +kernel)⟩

end DocComments.Comment
