import DocComments.Proofs.Comment.FencedBlock

/-!
# Lines without their common indentation

Moving a line to the left takes blanks off its front and nothing else, wherever the cut falls. So
the text without common indentation has the moved lines for its lines, but for blank ones at either
end, and it closes as many fences as the lines did.
-/

namespace DocComments.Text
open Unicode (isBlank)

/-- A text cut within the blanks at its front loses blanks alone. -/
theorem isBlankText_of_byteSize_le {g t : List Char}
    (h : byteSize g ≤ byteSize ((g ++ t).takeWhile isBlank)) : isBlankText g = true := by
  have hblanks : ∀ c ∈ (g ++ t).takeWhile isBlank, isBlank c = true :=
    List.all_eq_true.mp List.all_takeWhile
  rcases List.prefix_or_prefix_of_prefix (List.prefix_append g t)
    (List.takeWhile_prefix isBlank (l := g ++ t)) with hfront | ⟨x, hx⟩
  · exact List.all_eq_true.mpr fun c hc => hblanks c (hfront.subset hc)
  · have hsize := byteSize_append ((g ++ t).takeWhile isBlank) x
    rw [hx] at hsize
    have hnil : x = [] := eq_nil_of_byteSize_eq_zero (by omega)
    rw [hnil, List.append_nil] at hx
    exact List.all_eq_true.mpr fun c hc => hblanks c (by rwa [hx])

end DocComments.Text

namespace DocComments.Comment
open Text (trim trimEnd trimStart unlines isBlankText)
open Unicode (isBlank)

/-! ### Moving one line -/

theorem moveLeft_suffix (width : Nat) (l : List Char) : moveLeft width l <:+ l := by
  rw [moveLeft]
  cases hcut : Text.dropBytes? width l with
  | none => exact Text.trimStart_suffix l
  | some t =>
    obtain ⟨g, rfl, -⟩ := Text.exists_of_dropBytes?_eq_some hcut
    exact List.suffix_append g t

/-- A line moved by no more than its own indentation holds what it held. -/
theorem trim_moveLeft {width : Nat} {l : List Char}
    (h : isBlankText l = false → width ≤ indent l) : trim (moveLeft width l) = trim l := by
  rw [moveLeft]
  cases hcut : Text.dropBytes? width l with
  | none => exact Text.trim_trimStart l
  | some t =>
    obtain ⟨g, rfl, hwidth⟩ := Text.exists_of_dropBytes?_eq_some hcut
    have hg : isBlankText g = true := by
      cases hblank : isBlankText (g ++ t) with
      | true =>
        rw [isBlankText, List.all_append, Bool.and_eq_true] at hblank
        exact hblank.1
      | false => exact Text.isBlankText_of_byteSize_le (t := t) (hwidth ▸ h hblank)
    rw [Option.getD_some, trim, trim, Text.trimStart_append_of_blank hg]

/-- The common indentation is no more than that of any line that is not blank. -/
theorem commonIndent_le {ls : List (List Char)} {l : List Char} (hl : l ∈ ls)
    (hb : isBlankText l = false) : commonIndent ls ≤ indent l := by
  apply List.min?_getD_le_of_mem
  exact List.mem_map.mpr ⟨l, List.mem_filter.mpr ⟨hl, by simp [hb]⟩, rfl⟩

theorem trim_moveLeft_of_mem {ls : List (List Char)} {l : List Char} (hl : l ∈ ls) :
    trim (moveLeft (commonIndent ls) l) = trim l :=
  trim_moveLeft fun hb => commonIndent_le hl hb

/-! ### Lines that are not indented -/

theorem indent_eq_zero {c : Char} (hc : isBlank c = false) (s : List Char) :
    indent (c :: s) = 0 := by
  simp [indent, hc, Text.byteSize]

theorem moveLeft_zero (l : List Char) : moveLeft 0 l = l := by
  rw [moveLeft, Text.dropBytes?, Option.getD_some]

/-- Lines of which one is not indented have no indentation in common. -/
theorem commonIndent_eq_zero {ls : List (List Char)} {c : Char} {s : List Char} (h : c :: s ∈ ls)
    (hc : isBlank c = false) : commonIndent ls = 0 := by
  have hle := commonIndent_le h (by simp [isBlankText, hc])
  rw [indent_eq_zero hc] at hle
  exact Nat.le_zero.mp hle

/-! ### Blank lines at the ends -/

theorem dropBlankEnds_eq (ls : List (List Char)) :
    dropBlankEnds ls = (ls.dropWhile isBlankText).rdropWhile isBlankText :=
  rfl

theorem dropBlankEnds_sublist (ls : List (List Char)) : (dropBlankEnds ls).Sublist ls :=
  (List.rdropWhile_prefix _ _).sublist.trans (List.dropWhile_sublist _)

/-- Lines are what is left of them between blank ones. -/
theorem exists_eq_append_dropBlankEnds (ls : List (List Char)) :
    ∃ front behind, ls = front ++ (dropBlankEnds ls ++ behind) ∧
      (∀ l ∈ front, isBlankText l = true) ∧ ∀ l ∈ behind, isBlankText l = true := by
  refine ⟨ls.takeWhile isBlankText, (ls.dropWhile isBlankText).rtakeWhile isBlankText, ?_, ?_, ?_⟩
  · rw [dropBlankEnds_eq, List.rdropWhile_append_rtakeWhile, List.takeWhile_append_dropWhile]
  · exact fun l hl => List.mem_takeWhile_imp hl
  · exact fun l hl => List.mem_rtakeWhile_imp hl

/-- A line that is not blank is not dropped. -/
theorem mem_dropBlankEnds_iff {ls : List (List Char)} {l : List Char}
    (hl : isBlankText l = false) : l ∈ dropBlankEnds ls ↔ l ∈ ls := by
  obtain ⟨front, behind, hls, hfront, hbehind⟩ := exists_eq_append_dropBlankEnds ls
  have hnot : ∀ ms : List (List Char), (∀ m ∈ ms, isBlankText m = true) → l ∉ ms := by
    intro ms hms hmem
    rw [hms l hmem] at hl
    cases hl
  conv_rhs => rw [hls]
  rw [List.mem_append, List.mem_append, or_iff_right (hnot front hfront),
    or_iff_left (hnot behind hbehind)]

/-! ### The text of lines -/

theorem isBlankText_of_feeds {s : List Char} (h : ∀ c ∈ s, c = '\n') : isBlankText s = true := by
  refine List.all_eq_true.mpr fun c hc => ?_
  rw [h c hc]
  decide

/-- Line feeds at the end are blanks, so trimming takes them off in any case. -/
theorem trimEnd_trimFeeds (s : List Char) :
    trimEnd (trimFeeds s) = trimEnd (s.dropWhile (· = '\n')) := by
  have hfeeds : trimFeeds s = (s.dropWhile (· = '\n')).rdropWhile (· = '\n') := rfl
  have hblank : isBlankText ((s.dropWhile (· = '\n')).rtakeWhile (· = '\n')) = true :=
    isBlankText_of_feeds fun c hc => by simpa using List.mem_rtakeWhile_imp hc
  rw [hfeeds, ← Text.trimEnd_append_of_isBlankText hblank, List.rdropWhile_append_rtakeWhile]

theorem trimEnd_dedent (ls : List (List Char)) : trimEnd (dedent ls) = dedent ls :=
  Text.trimEnd_trimEnd _

/-- No line feed is left in front. -/
theorem dropFeeds_dedent (ls : List (List Char)) :
    (dedent ls).dropWhile (· = '\n') = dedent ls := by
  rw [dedent, trimEnd_trimFeeds]
  generalize unlines (ls.map (moveLeft (commonIndent ls))) = s
  cases hs : trimEnd (s.dropWhile (· = '\n')) with
  | nil => rfl
  | cons c t =>
    have hfront : (s.dropWhile (· = '\n')).head? = some c := Text.head?_trimEnd (by rw [hs]; rfl)
    have hhead := List.head?_dropWhile_not (fun d => decide (d = '\n')) s
    rw [hfront] at hhead
    exact List.dropWhile_cons_of_neg (by simpa using hhead)

section
variable {ls : List (List Char)} (hfeed : ∀ l ∈ ls, '\n' ∉ l) (hend : ∀ l ∈ ls, trimEnd l = l)
include hfeed hend

theorem trimEnd_trimFeeds_unlines :
    trimEnd (trimFeeds (unlines ls)) = unlines (dropBlankEnds ls) := by
  rw [trimEnd_trimFeeds, Text.dropFeeds_unlines hfeed hend, Text.trimEnd_unlines, dropBlankEnds_eq]
  exact fun l hl => hend l ((List.dropWhile_suffix _).subset hl)

/-- Read line by line, the text is the lines between the blank ones at its ends. -/
theorem lines_unlines_dropBlankEnds :
    Text.lines (unlines (dropBlankEnds ls)) = dropBlankEnds ls := by
  have hsub : (ls.dropWhile isBlankText).Sublist ls := List.dropWhile_sublist _
  exact Text.lines_unlines_rdropWhile (fun l hl => hfeed l (hsub.subset hl))
    fun l hl => hend l (hsub.subset hl)

/-- Lines that are moved hold no line feed and nothing to trim, as they did before. -/
theorem forall_mem_moved :
    (∀ m ∈ ls.map (moveLeft (commonIndent ls)), '\n' ∉ m) ∧
      ∀ m ∈ ls.map (moveLeft (commonIndent ls)), trimEnd m = m := by
  simp only [List.forall_mem_map]
  exact ⟨fun l hl hmem => hfeed l hl ((moveLeft_suffix _ l).subset hmem), fun l hl =>
    Text.trimEnd_eq_self_of_suffix (moveLeft_suffix _ l) (hend l hl)⟩

theorem dedent_eq_unlines :
    dedent ls = unlines (dropBlankEnds (ls.map (moveLeft (commonIndent ls)))) := by
  obtain ⟨hfeeds, hends⟩ := forall_mem_moved hfeed hend
  exact trimEnd_trimFeeds_unlines hfeeds hends

theorem lines_dedent :
    Text.lines (dedent ls) = dropBlankEnds (ls.map (moveLeft (commonIndent ls))) := by
  obtain ⟨hfeeds, hends⟩ := forall_mem_moved hfeed hend
  rw [dedent_eq_unlines hfeed hend, lines_unlines_dropBlankEnds hfeeds hends]

/-- The text holds a line that closes a fence if one of the lines does. -/
theorem forall_mem_lines_dedent :
    (∀ l ∈ Text.lines (dedent ls), closesFence l = false) ↔ ∀ l ∈ ls, closesFence l = false := by
  have hmoved : ∀ l ∈ ls, closesFence (moveLeft (commonIndent ls) l) = closesFence l := by
    intro l hl
    rw [closesFence, trim_moveLeft_of_mem hl, closesFence]
  rw [lines_dedent hfeed hend]
  constructor
  · intro h l hl
    by_contra hcloses
    rw [Bool.not_eq_false] at hcloses
    rw [← hmoved l hl] at hcloses
    have hsolid : isBlankText (moveLeft (commonIndent ls) l) = false := by
      rw [← Bool.not_eq_true]
      intro hblank
      rw [closesFence_of_isBlankText hblank] at hcloses
      cases hcloses
    rw [h _ ((mem_dropBlankEnds_iff hsolid).mpr (List.mem_map_of_mem hl))] at hcloses
    cases hcloses
  · intro h m hm
    obtain ⟨l, hl, rfl⟩ := List.mem_map.mp ((dropBlankEnds_sublist _).subset hm)
    rw [hmoved l hl, h l hl]

end

end DocComments.Comment
