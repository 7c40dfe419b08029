import DocComments.Page.Markdown
import DocComments.Proofs.Comment.UnbrokenCode

/-!
# Fences on a page

A page puts the text of an example as it stands between an opening line and a closing one. A reader
of the page ends the fence at the first line that closes it, so the fence holds the example exactly
if the text has no such line. Whether other texts of the page open fences of their own is not said.
-/

namespace DocComments.Page
open Comment (fenceMark closesFence IsFreeOfClosing Segment IsCut IsUnbroken commentLines
  openingExamples)
open Text (trimEnd unlines)

/-! ### Where a fence ends -/

/-- What a page holds behind the opening line that it writes for an example. -/
def afterOpening (e : Example) (rest : List Char) : List Char :=
  e.text.toList ++ '\n' :: (fenceMark ++ '\n' :: rest)

/-- Whether a page holds the fence that is written for an example. -/
def HasFence (page : List Char) (e : Example) : Prop :=
  ∃ front rest,
    page = front ++ '\n' :: (fenceMark ++ (e.language.toList ++ '\n' :: afterOpening e rest))

/-- Whether a page holds the fence of an example, and the lines behind its opening line, up to the
first that closes a fence, are the lines of the example. -/
def IsEnclosed (page : List Char) (e : Example) : Prop :=
  ∃ front rest,
    page = front ++ '\n' :: (fenceMark ++ (e.language.toList ++ '\n' :: afterOpening e rest)) ∧
      ((afterOpening e rest).splitOn '\n').takeWhile (!closesFence ·) = e.text.toList.splitOn '\n'

/-- A carriage return at the end of a line and an empty line at the end make no difference. -/
theorem isFreeOfClosing_iff (e : Example) :
    IsFreeOfClosing e ↔ ∀ l ∈ e.text.toList.splitOn '\n', closesFence l = false := by
  obtain ⟨ls, l, htext, hls, hl⟩ := Text.exists_eq_unlines e.text.toList
  have hreturn : ∀ m, closesFence (Text.dropReturn m) = closesFence m := by
    intro m
    rw [closesFence, Text.trim_dropReturn, closesFence]
  have hlast : (∀ m ∈ [l].filter (· ≠ []), closesFence m = false) ↔ closesFence l = false := by
    by_cases hnil : l = []
    · subst hnil
      exact iff_of_true (by simp) rfl
    · simp [hnil]
  rw [IsFreeOfClosing, htext, Text.lines_unlines_append hls hl, Text.splitOn_unlines hls hl,
    List.forall_mem_append, List.forall_mem_append, List.forall_mem_map, hlast,
    List.forall_mem_singleton]
  simp only [hreturn]

/-- The first line that closes the fence is the one written for it, or stands in the text. -/
theorem takeWhile_afterOpening_iff (e : Example) (rest : List Char) :
    ((afterOpening e rest).splitOn '\n').takeWhile (!closesFence ·) = e.text.toList.splitOn '\n' ↔
      IsFreeOfClosing e := by
  have hmark : fenceMark.splitOn '\n' = [fenceMark] := rfl
  rw [isFreeOfClosing_iff, afterOpening, List.splitOn_append_cons_self,
    List.splitOn_append_cons_self, hmark, List.singleton_append]
  constructor
  · intro h l hl
    rw [← h] at hl
    simpa using List.mem_takeWhile_imp hl
  · intro hfree
    rw [List.takeWhile_append_of_pos (by simpa using hfree),
      List.takeWhile_cons_of_neg (by decide), List.append_nil]

theorem HasFence.isEnclosed_iff {page : List Char} {e : Example} (h : HasFence page e) :
    IsEnclosed page e ↔ IsFreeOfClosing e := by
  constructor
  · rintro ⟨front, rest, -, hlines⟩
    exact (takeWhile_afterOpening_iff e rest).mp hlines
  · intro hfree
    obtain ⟨front, rest, hpage⟩ := h
    exact ⟨front, rest, hpage, (takeWhile_afterOpening_iff e rest).mpr hfree⟩

/-! ### What is written for an example -/

theorem HasFence.mono {part page : List Char} (hpart : part <:+: page) {e : Example}
    (h : HasFence part e) : HasFence page e := by
  obtain ⟨before, behind, rfl⟩ := hpart
  obtain ⟨front, rest, rfl⟩ := h
  exact ⟨before ++ front, rest ++ behind, by simp [afterOpening]⟩

/-- The lines that make the fence of an example. -/
def fenceLines (e : Example) : List String :=
  ["```" ++ e.language, e.text, "```", ""]

theorem fenceLines_suffix (e : Example) : fenceLines e <:+ exampleLines e :=
  List.suffix_append
    ("#### Example\n" :: part (if e.description = "" then [] else [e.description])) _

/-- A section holds the lines of all its examples behind its heading. -/
theorem fenceLines_infix_sectionLines {r : Record} {e : Example} (he : e ∈ r.examples) :
    fenceLines e <:+: (sectionLines r).tail := by
  have hexample : exampleLines e <:+: r.examples.flatMap exampleLines := by
    rw [List.flatMap_def]
    exact List.infix_of_mem_flatten (List.mem_map_of_mem he)
  refine (fenceLines_suffix e).isInfix.trans (hexample.trans ?_)
  exact (List.suffix_append _ _).isInfix.trans
    ((List.prefix_append _ _).trans (List.prefix_append _ _)).isInfix

theorem hasFence_sectionText {r : Record} {e : Example} (he : e ∈ r.examples) :
    HasFence (sectionText r).toList e := by
  obtain ⟨front, behind, htail⟩ := fenceLines_infix_sectionLines he
  have hlines : sectionLines r =
      (("### " ++ r.name ++ "\n") :: front) ++ (fenceLines e ++ behind) := by
    rw [List.cons_append, ← List.append_assoc, htail]
    rfl
  have htext : (sectionText r).toList = unlines ((sectionLines r).map String.toList) :=
    String.toList_intercalate
  refine ⟨unlines ((("### " ++ r.name ++ "\n") :: front).map String.toList),
    unlines ("".toList :: behind.map String.toList), ?_⟩
  rw [htext, hlines, List.map_append, Text.unlines_append (by simp) (by simp [fenceLines])]
  simp only [fenceLines, List.map_cons, List.cons_append, List.nil_append,
    Text.unlines_cons_cons, String.toList_append, List.append_assoc, afterOpening]
  rfl

/-- The page holds the fence of every example of a record that has a place on it. -/
theorem hasFence_markdown {rs : List Record} {r : Record} (hr : r ∈ rs)
    (hvisible : isVisible r = true) {e : Example} (he : e ∈ r.examples) :
    HasFence (markdown rs).toList e := by
  refine (hasFence_sectionText he).mono ?_
  have hmem : (sectionText r ++ "\n").toList ∈
      ((rs.filter isVisible).map fun r => sectionText r ++ "\n").map String.toList :=
    List.mem_map_of_mem (List.mem_map_of_mem (List.mem_filter.mpr ⟨hr, hvisible⟩))
  have hjoined := List.infix_of_mem_flatten hmem
  rw [← List.flatMap_def, ← String.toList_join] at hjoined
  have hsection : (sectionText r).toList <:+: (sectionText r ++ "\n").toList := by
    rw [String.toList_append]
    exact (List.prefix_append _ _).isInfix
  refine hsection.trans (hjoined.trans ?_)
  simp only [markdown, String.toList_append]
  exact (List.suffix_append _ _).isInfix

/-- No line of an example that was fenced in the description closes a fence. No line of an example
behind a tag does exactly if its code closes none or is a single closed fence. On a page, the fence
that is written around an example ends where it is written to end exactly if no line of the example
closes it. -/
theorem exists_segments_isUnbroken_iff (comment : List Char) :
    ∃ opening xs, IsCut (commentLines comment) opening xs ∧
      (Comment.read comment).examples =
        openingExamples opening ++ (xs.filter (·.isExample)).map Segment.sample ∧
      (∀ e ∈ openingExamples opening, ∀ l ∈ Text.lines e.text.toList, closesFence l = false) ∧
      (∀ x ∈ xs, (∀ l ∈ Text.lines x.sample.text.toList, closesFence l = false) ↔
        IsUnbroken (x.body.map trimEnd)) ∧
      ∀ rs : List Record, ∀ r ∈ rs, isVisible r = true → ∀ e ∈ r.examples,
        (IsEnclosed (markdown rs).toList e ↔
          ∀ l ∈ Text.lines e.text.toList, closesFence l = false) := by
  obtain ⟨opening, xs, hcut⟩ := Comment.exists_isCut (commentLines comment)
  exact ⟨opening, xs, hcut, by rw [hcut.read_eq], hcut.isFreeOfClosing_opening,
    hcut.isFreeOfClosing_sample,
    fun _ _ hr hvisible _ he => (hasFence_markdown hr hvisible he).isEnclosed_iff⟩

/-- Code that is not fenced as a whole is kept as it is written, with the fences inside it. -/
theorem not_isFreeOfClosing_text_before_fence :
    (Comment.read
        "/**\n * @example\n * Call it:\n * ```js\n * one();\n * ```\n */".toList).examples =
      [⟨"js", "", .tagged, "Call it:\n```js\none();\n```"⟩] ∧
    ¬ ∀ comment, ∀ e ∈ (Comment.read comment).examples,
      ∀ l ∈ Text.lines e.text.toList, closesFence l = false := by
  have hread : (Comment.read
      "/**\n * @example\n * Call it:\n * ```js\n * one();\n * ```\n */".toList).examples =
        [⟨"js", "", .tagged, "Call it:\n```js\none();\n```"⟩] := by
    decide +kernel
  refine ⟨hread, fun hall => ?_⟩
  have hlines := hall _ _ (hread ▸ List.mem_cons_self)
  exact absurd hlines (by decide +kernel)

end DocComments.Page
