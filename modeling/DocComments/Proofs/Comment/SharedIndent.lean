import DocComments.Proofs.Comment.BlankEnds
import DocComments.Proofs.Comment.CommonIndent
import DocComments.Proofs.Text.LineStart
import DocComments.Proofs.Text.Words

/-!
# Indentation that is shared

The text of lines without their common indentation says what the lines said, and one of its lines
starts at the margin. How far to the right the lines stood together makes no difference, whatever
blanks are in front of them and wherever the cut falls in these; and doing the same again changes
nothing. Of two lines whose blanks are not of one width it is not said how they stand to each other
afterwards.
-/

namespace DocComments.Comment
open Text (trim trimEnd trimStart unlines isBlankText withoutBlanks)
open Unicode (isBlank)

/-- A line with spaces in front of it, unless it is blank. -/
def moveRight (k : Nat) (line : List Char) : List Char :=
  if isBlankText line then line else List.replicate k ' ' ++ line

/-! ### The width in common -/

section
variable {ls : List (List Char)}

/-- The common indentation is that of a line. -/
theorem exists_indent_eq (h : ∃ l ∈ ls, isBlankText l = false) :
    ∃ l ∈ ls, isBlankText l = false ∧ commonIndent ls = indent l := by
  obtain ⟨l, hl, hsolid⟩ := h
  have hmem : indent l ∈ (ls.filter (!isBlankText ·)).map indent :=
    List.mem_map_of_mem (List.mem_filter.mpr ⟨hl, by simp [hsolid]⟩)
  cases hmin : ((ls.filter (!isBlankText ·)).map indent).min? with
  | none =>
    rw [List.min?_eq_none_iff.mp hmin] at hmem
    cases hmem
  | some width =>
    obtain ⟨m, hm, rfl⟩ := List.mem_map.mp (List.min?_mem hmin)
    obtain ⟨hm, hmark⟩ := List.mem_filter.mp hm
    exact ⟨m, hm, by simpa using hmark, by rw [commonIndent, hmin, Option.getD_some]⟩

end

/-- Moved by its own indentation, a line starts at the margin. -/
theorem moveLeft_indent (l : List Char) : moveLeft (indent l) l = trimStart l := by
  have hcut := Text.dropBytes?_append (l.takeWhile isBlank) (l.dropWhile isBlank)
  rw [List.takeWhile_append_dropWhile] at hcut
  rw [moveLeft, indent, hcut, Option.getD_some, trimStart]

/-! ### Lines that are moved to the right -/

theorem byteSize_spaces (k : Nat) : Text.byteSize (List.replicate k ' ') = k := by
  induction k with
  | zero => rfl
  | succ k ih =>
    have hone : ' '.utf8Size = 1 := rfl
    rw [List.replicate_succ, Text.byteSize, ih, hone, Nat.add_comm]

theorem isBlankText_spaces (k : Nat) : isBlankText (List.replicate k ' ') = true := by
  refine List.all_eq_true.mpr fun c hc => ?_
  rw [List.eq_of_mem_replicate hc]
  decide

theorem isBlankText_moveRight (k : Nat) (l : List Char) :
    isBlankText (moveRight k l) = isBlankText l := by
  rw [moveRight]
  split
  · rfl
  · have hspaces := isBlankText_spaces k
    rw [isBlankText] at hspaces
    rw [isBlankText, List.all_append, hspaces, Bool.true_and, isBlankText]

section
variable {l : List Char} (hl : isBlankText l = false)
include hl

theorem indent_moveRight (k : Nat) : indent (moveRight k l) = k + indent l := by
  rw [moveRight, hl, if_neg Bool.false_ne_true, indent,
    List.takeWhile_append_of_pos (List.all_eq_true.mp (isBlankText_spaces k)),
    Text.byteSize_append, byteSize_spaces, indent]

/-- A line that was moved to the right is cut where it would have been. -/
theorem moveLeft_moveRight (k width : Nat) :
    moveLeft (k + width) (moveRight k l) = moveLeft width l := by
  have hcut := Text.dropBytes?_byteSize_add (List.replicate k ' ') l width
  rw [byteSize_spaces] at hcut
  rw [moveRight, hl, if_neg Bool.false_ne_true, moveLeft, hcut,
    Text.trimStart_append_of_blank (isBlankText_spaces k), moveLeft]

end

section
variable {ls : List (List Char)}

theorem commonIndent_map_moveRight (h : ∃ l ∈ ls, isBlankText l = false) (k : Nat) :
    commonIndent (ls.map (moveRight k)) = k + commonIndent ls := by
  obtain ⟨l, hl, hsolid, hwidth⟩ := exists_indent_eq h
  have hright : isBlankText (moveRight k l) = false := by rw [isBlankText_moveRight, hsolid]
  apply Nat.le_antisymm
  · rw [hwidth, ← indent_moveRight hsolid]
    exact commonIndent_le (List.mem_map_of_mem hl) hright
  · obtain ⟨m, hm, hmark, hleast⟩ := exists_indent_eq ⟨_, List.mem_map_of_mem hl, hright⟩
    obtain ⟨n, hn, rfl⟩ := List.mem_map.mp hm
    rw [isBlankText_moveRight] at hmark
    rw [hleast, indent_moveRight hmark]
    exact Nat.add_le_add_left (commonIndent_le hn hmark) k

/-- How far the lines stand to the right together makes no difference. -/
theorem dedent_map_moveRight (hend : ∀ l ∈ ls, trimEnd l = l) (k : Nat) :
    dedent (ls.map (moveRight k)) = dedent ls := by
  have hline : ∀ l ∈ ls, moveLeft (commonIndent (ls.map (moveRight k))) (moveRight k l) =
      moveLeft (commonIndent ls) l := by
    intro l hl
    cases hblank : isBlankText l with
    | true =>
      obtain rfl := Text.eq_nil_of_isBlankText (hend l hl) hblank
      have hright : moveRight k [] = [] := rfl
      rw [hright, moveLeft_nil, moveLeft_nil]
    | false => rw [commonIndent_map_moveRight ⟨l, hl, hblank⟩, moveLeft_moveRight hblank]
  have hlines : (ls.map (moveRight k)).map (moveLeft (commonIndent (ls.map (moveRight k)))) =
      ls.map (moveLeft (commonIndent ls)) := by
    rw [List.map_map]
    exact List.map_congr_left hline
  rw [dedent, hlines, dedent]

/-! ### What is kept -/

/-- Only blanks are taken away. -/
theorem withoutBlanks_moved (ls : List (List Char)) :
    withoutBlanks (ls.map (moveLeft (commonIndent ls))).flatten = withoutBlanks ls.flatten := by
  rw [withoutBlanks, withoutBlanks, List.filter_flatten, List.filter_flatten, List.map_map]
  congr 1
  refine List.map_congr_left fun l hl => ?_
  have htrim := congrArg withoutBlanks (trim_moveLeft_of_mem hl)
  rwa [Text.withoutBlanks_trim, Text.withoutBlanks_trim] at htrim

theorem withoutBlanks_dedent (ls : List (List Char)) :
    withoutBlanks (dedent ls) = withoutBlanks ls.flatten := by
  have hfeeds : ∀ s : List Char, withoutBlanks (s.dropWhile (· = '\n')) = withoutBlanks s := by
    intro s
    have hfront : isBlankText (s.takeWhile (· = '\n')) = true :=
      isBlankText_of_feeds fun c hc => by simpa using List.mem_takeWhile_imp hc
    conv_rhs => rw [← List.takeWhile_append_dropWhile (p := fun c => decide (c = '\n')) (l := s)]
    rw [Text.withoutBlanks_append, Text.withoutBlanks_eq_nil hfront, List.nil_append]
  rw [dedent, trimEnd_trimFeeds, Text.withoutBlanks_trimEnd, hfeeds, unlines,
    Text.withoutBlanks_intercalate (by decide), withoutBlanks_moved]

/-! ### The margin -/

/-- The least indented of the lines that are not blank starts a line of the text. -/
theorem exists_startsLine_dedent (h : ∃ l ∈ ls, isBlankText l = false) :
    ∃ c, isBlank c = false ∧ Text.StartsLine c (dedent ls) := by
  obtain ⟨l, hl, hsolid, hwidth⟩ := exists_indent_eq h
  obtain ⟨c, t, hstart⟩ := List.exists_cons_of_ne_nil (Text.trimStart_ne_nil hsolid)
  have hc := Text.isBlank_of_trimStart_eq_cons hstart
  have hmem : c :: t ∈ ls.map (moveLeft (commonIndent ls)) :=
    List.mem_map.mpr ⟨l, hl, by rw [hwidth, moveLeft_indent, hstart]⟩
  refine ⟨c, hc, ?_⟩
  rw [dedent, trimEnd_trimFeeds]
  exact ((Text.startsLine_unlines hmem).dropFeeds hc).trimEnd hc

/-- Of blank lines nothing is left. -/
theorem dedent_eq_nil (h : ∀ l ∈ ls, isBlankText l = true) : dedent ls = [] := by
  have hblank : isBlankText ls.flatten = true := by
    rw [isBlankText, List.all_flatten]
    exact List.all_eq_true.mpr h
  have hnone := withoutBlanks_dedent ls
  rw [Text.withoutBlanks_eq_nil hblank, Text.withoutBlanks_eq_nil_iff] at hnone
  exact Text.eq_nil_of_isBlankText (trimEnd_dedent ls) hnone

theorem commonIndent_lines_dedent (ls : List (List Char)) :
    commonIndent (Text.lines (dedent ls)) = 0 := by
  by_cases h : ∃ l ∈ ls, isBlankText l = false
  · obtain ⟨c, hc, hstarts⟩ := exists_startsLine_dedent h
    obtain ⟨l, hl, hhead⟩ := hstarts.exists_mem_lines hc
    obtain ⟨t, rfl⟩ := List.head?_eq_some_iff.mp hhead
    exact commonIndent_eq_zero hl hc
  · simp only [not_exists, not_and, Bool.not_eq_false] at h
    rw [dedent_eq_nil h]
    rfl

/-- A text without common indentation is left as it is. -/
theorem dedent_lines_dedent (hfeed : ∀ l ∈ ls, '\n' ∉ l) (hend : ∀ l ∈ ls, trimEnd l = l) :
    dedent (Text.lines (dedent ls)) = dedent ls := by
  have hmoved : (Text.lines (dedent ls)).map (moveLeft 0) = Text.lines (dedent ls) := by
    rw [List.map_congr_left fun l _ => moveLeft_zero l, List.map_id']
  have htext : unlines (Text.lines (dedent ls)) = dedent ls := by
    rw [lines_dedent hfeed hend, ← dedent_eq_unlines hfeed hend]
  rw [dedent, commonIndent_lines_dedent, hmoved, htext, trimEnd_trimFeeds, dropFeeds_dedent,
    trimEnd_dedent]

/-- Lines without blanks at their ends lose only indentation that they share: spaces put in front of
all that are not blank do not show, every character that is no blank is kept in its place, and one
of the lines that are not blank comes to stand at the margin. Lines hold no line feed; then the
lines of the text make the same text again, while a carriage return before a line feed inside a line
would be taken for a part of the line end. -/
theorem dedent_takes_shared_indent (hend : ∀ l ∈ ls, trimEnd l = l) :
    (∀ k, dedent (ls.map (moveRight k)) = dedent ls) ∧
      withoutBlanks (dedent ls) = withoutBlanks ls.flatten ∧
      ((∃ l ∈ ls, isBlankText l = false) →
        ∃ l ∈ Text.lines (dedent ls), ∃ c, l.head? = some c ∧ isBlank c = false) ∧
      ((∀ l ∈ ls, '\n' ∉ l) → dedent (Text.lines (dedent ls)) = dedent ls) := by
  refine ⟨dedent_map_moveRight hend, withoutBlanks_dedent ls, fun h => ?_, fun hfeed =>
    dedent_lines_dedent hfeed hend⟩
  obtain ⟨c, hc, hstarts⟩ := exists_startsLine_dedent h
  obtain ⟨l, hl, hhead⟩ := hstarts.exists_mem_lines hc
  exact ⟨l, hl, c, hhead, hc⟩

end

/-- The cut falls inside the wide blank of the first line, which loses all of it. -/
theorem dedent_takes_shared_indent_wide :
    let ls := ["\u3000if (ok)".toList, [], "  run();".toList, "   stop();".toList]
    (∀ l ∈ ls, trimEnd l = l) ∧ (∃ l ∈ ls, isBlankText l = false) ∧ (∀ l ∈ ls, '\n' ∉ l) ∧
      dedent (ls.map (moveRight 3)) = "if (ok)\n\nrun();\n stop();".toList ∧
      withoutBlanks (dedent ls) = "if(ok)run();stop();".toList ∧
      (∃ l ∈ Text.lines (dedent ls), ∃ c, l.head? = some c ∧ isBlank c = false) ∧
      dedent (Text.lines (dedent ls)) = dedent ls := by
  intro ls
  have hend : ∀ l ∈ ls, trimEnd l = l := by decide
  have hsolid : ∃ l ∈ ls, isBlankText l = false := by decide
  have hfeed : ∀ l ∈ ls, '\n' ∉ l := by decide
  obtain ⟨hright, hkept, hmargin, hagain⟩ := dedent_takes_shared_indent hend
  exact ⟨hend, hsolid, hfeed, (hright 3).trans (by decide), hkept.trans (by decide),
    hmargin hsolid, hagain hfeed⟩

end DocComments.Comment
