import DocComments.Page.Markdown
import Mathlib.Data.List.Basic

/-!
# Rows that are read back

A reader of a table divides a row at the bars that stand behind no backslash, takes the space off
each side of a cell, and reads a bar for each backslash before a bar. Whatever a row is made of,
such a reader finds its five cells, and in them what was written, with spaces for line feeds. What
a cell means as a text of its own, with the backticks in it, is not said.
-/

namespace DocComments.Page

/-! ### Reading a row -/

/-- The parts of a line between the bars that do not stand directly behind a backslash, where the
given character stands in front of the line. -/
def betweenBars (before? : Option Char) : List Char → List (List Char)
  | [] => [[]]
  | c :: s =>
    if c = '|' ∧ before? ≠ some '\\' then [] :: betweenBars (some c) s
    else (betweenBars (some c) s).modifyHead (c :: ·)

/-- A text without a space at each end, which it must have. -/
def unpadded? : List Char → Option (List Char)
  | ' ' :: s => if s.getLast? = some ' ' then some s.dropLast else none
  | _ => none

/-- A text with a bar for each backslash that stands directly before a bar. -/
def unescapeBars : List Char → List Char
  | '\\' :: '|' :: s => '|' :: unescapeBars s
  | c :: s => c :: unescapeBars s
  | [] => []

/-- What a cell holds, given the part of the row between its bars. -/
def cellContent? (s : List Char) : Option (List Char) :=
  (unpadded? s).map unescapeBars

/-- A text on one line, with a space for each line feed. -/
def spaced (s : List Char) : List Char :=
  s.map fun c => if c = '\n' then ' ' else c

/-! ### Writing a row -/

/-- What stands in a cell for a character. -/
def inCell (c : Char) : List Char :=
  if c = '|' then ['\\', '|'] else if c = '\n' then [' '] else [c]

/-- What a field tells in the cells of its row, in order. -/
def contents (name : String) (f : Field) : List String :=
  [code name, (f.declaredType.map code).getD "", if f.required then "yes" else "no",
   (f.defaultValue.map fun l => code l.jsonText).getD "", f.description]

/-- The part of a row that is written for a text, without its bars. -/
def padded (s : List Char) : List Char :=
  ' ' :: (s.flatMap inCell ++ [' '])

theorem toList_cell (s : String) : (cell s).toList = s.toList.flatMap inCell :=
  String.toList_ofList

/-- Backticks stand in a cell as they are. -/
theorem code_cell (s : String) : code (cell s) = cell (code s) := by
  apply String.toList_inj.mp
  simp only [code, String.toList_append, toList_cell, List.flatMap_append]
  rfl

theorem inCell_of_ne {c : Char} (hbar : c ≠ '|') (hfeed : c ≠ '\n') : inCell c = [c] := by
  rw [inCell, if_neg hbar, if_neg hfeed]

/-- A row is a bar, and then each of its texts as it stands in a cell, with a bar behind it. -/
theorem toList_row (name : String) (f : Field) :
    (row name f).toList =
      '|' :: (contents name f).flatMap fun x => padded x.toList ++ ['|'] := by
  have hrequired : (if f.required then "yes" else "no") =
      cell (if f.required then "yes" else "no") := by
    cases f.required <;> rfl
  have hrow : row name f = "| " ++ cell (code name) ++ " | " ++
      cell ((f.declaredType.map code).getD "") ++ " | " ++
      cell (if f.required then "yes" else "no") ++ " | " ++
      cell ((f.defaultValue.map fun l => code l.jsonText).getD "") ++ " | " ++
      cell f.description ++ " |" := by
    rw [row, ← hrequired, ← code_cell]
    cases f.declaredType with
    | none => cases f.defaultValue <;> rfl
    | some t =>
      rw [Option.map_some, Option.getD_some, ← code_cell]
      cases f.defaultValue <;> rfl
  rw [hrow]
  simp only [contents, padded, String.toList_append, toList_cell, List.flatMap_cons,
    List.flatMap_nil, List.append_nil, List.append_assoc, List.cons_append]
  rfl

/-! ### What a reader finds -/

theorem betweenBars_cons {c : Char} (hc : c ≠ '|') (before? : Option Char) (s : List Char) :
    betweenBars before? (c :: s) = (betweenBars (some c) s).modifyHead (c :: ·) :=
  if_neg fun h => hc h.1

/-- What stands in a cell for a text divides nothing. -/
theorem betweenBars_inCell (before? : Option Char) (x : List Char) (t : List Char) :
    betweenBars before? (x.flatMap inCell ++ ' ' :: t) =
      (betweenBars (some ' ') t).modifyHead (x.flatMap inCell ++ ' ' :: ·) := by
  induction x generalizing before? with
  | nil => exact betweenBars_cons (by decide) before? t
  | cons c x ih =>
    rw [List.flatMap_cons, List.append_assoc]
    by_cases hbar : c = '|'
    · -- the backslash in front keeps the bar from dividing
      have hkept : ∀ u, betweenBars (some '\\') ('|' :: u) =
          (betweenBars (some '|') u).modifyHead ('|' :: ·) := fun _ => rfl
      subst hbar
      change betweenBars before? ('\\' :: '|' :: (x.flatMap inCell ++ ' ' :: t)) = _
      rw [betweenBars_cons (by decide), hkept, ih, List.modifyHead_modifyHead,
        List.modifyHead_modifyHead]
      rfl
    · by_cases hfeed : c = '\n'
      · subst hfeed
        change betweenBars before? (' ' :: (x.flatMap inCell ++ ' ' :: t)) = _
        rw [betweenBars_cons (by decide), ih, List.modifyHead_modifyHead]
        rfl
      · rw [inCell_of_ne hbar hfeed, List.singleton_append, betweenBars_cons hbar, ih,
          List.modifyHead_modifyHead]
        rfl

/-- A row that is written for texts has one cell for each of them. -/
theorem betweenBars_cells (xs : List (List Char)) :
    betweenBars (some '|') (xs.flatMap fun x => padded x ++ ['|']) = xs.map padded ++ [[]] := by
  induction xs with
  | nil => rfl
  | cons x xs ih =>
    rw [List.flatMap_cons, padded, List.append_assoc, List.cons_append, List.append_assoc,
      betweenBars_cons (by decide), List.singleton_append, List.singleton_append,
      betweenBars_inCell, betweenBars, if_pos (by simp), ih]
    rfl

theorem unescapeBars_cons {c : Char} {s : List Char} (h : c = '\\' → s.head? ≠ some '|') :
    unescapeBars (c :: s) = c :: unescapeBars s := by
  rw [unescapeBars]
  rintro t rfl rfl
  exact h rfl rfl

/-- What stands in a cell starts with no bar. -/
theorem head?_inCell (x : List Char) : (x.flatMap inCell).head? ≠ some '|' := by
  cases x with
  | nil => exact nofun
  | cons c x =>
    rw [List.flatMap_cons]
    by_cases hbar : c = '|'
    · subst hbar
      simp [inCell]
    · by_cases hfeed : c = '\n'
      · subst hfeed
        simp [inCell]
      · rw [inCell_of_ne hbar hfeed]
        simpa using hbar

/-- What stands in a cell is read as the text it was written for, on one line. -/
theorem unescapeBars_inCell (x : List Char) : unescapeBars (x.flatMap inCell) = spaced x := by
  induction x with
  | nil => rfl
  | cons c x ih =>
    rw [List.flatMap_cons, spaced, List.map_cons, ← spaced, ← ih]
    by_cases hbar : c = '|'
    · subst hbar
      rfl
    · by_cases hfeed : c = '\n'
      · subst hfeed
        rfl
      · rw [inCell_of_ne hbar hfeed, if_neg hfeed, List.singleton_append]
        exact unescapeBars_cons fun _ => head?_inCell x

theorem cellContent?_padded (x : List Char) : cellContent? (padded x) = some (spaced x) := by
  rw [padded, cellContent?, unpadded?, List.getLast?_concat, if_pos rfl, List.dropLast_concat,
    Option.map_some, unescapeBars_inCell]

/-- Besides the marks of a row, the characters of a text are left in its cell, line feeds apart. -/
theorem mem_inCell_iff {d : Char} (hd : d ∉ ['|', '\\', ' ']) (x : List Char) :
    d ∈ x.flatMap inCell ↔ d ∈ x ∧ d ≠ '\n' := by
  simp only [List.mem_cons, List.not_mem_nil, or_false, not_or] at hd
  have hone : ∀ c, d ∈ inCell c ↔ c = d ∧ d ≠ '\n' := by
    intro c
    by_cases hbar : c = '|'
    · subst hbar
      simp [inCell, hd, Ne.symm hd.1]
    · by_cases hfeed : c = '\n'
      · subst hfeed
        simp [inCell, hd, eq_comm]
      · rw [inCell_of_ne hbar hfeed, List.mem_singleton, eq_comm]
        exact (and_iff_left_of_imp fun heq => heq ▸ hfeed).symm
  simp [List.mem_flatMap, hone]

theorem mem_row_iff {d : Char} (hd : d ∉ ['|', '\\', ' ']) (name : String) (f : Field) :
    d ∈ (row name f).toList ↔ d ≠ '\n' ∧ ∃ x ∈ contents name f, d ∈ x.toList := by
  have hpadded : ∀ x, d ∈ padded x ++ ['|'] ↔ d ∈ x ∧ d ≠ '\n' := by
    intro x
    rw [← mem_inCell_iff hd]
    simp only [List.mem_cons, List.not_mem_nil, or_false, not_or] at hd
    simp [padded, hd]
  rw [toList_row, List.mem_cons, List.mem_flatMap]
  simp only [hpadded]
  constructor
  · rintro (heq | ⟨x, hx, hmem, hne⟩)
    · exact absurd (heq ▸ List.mem_cons_self) hd
    · exact ⟨hne, x, hx, hmem⟩
  · rintro ⟨hne, x, hx, hmem⟩
    exact .inr ⟨x, hx, hmem, hne⟩

/-- Every row is one line with five cells between its outer bars, and the cells hold the name, the
type, whether the field is required, its default and its description, each with spaces for line
feeds. -/
theorem row_reads_back (name : String) (f : Field) :
    '\n' ∉ (row name f).toList ∧
      ∃ cells, betweenBars none (row name f).toList = [] :: (cells ++ [[]]) ∧ cells.length = 5 ∧
        cells.map cellContent? = (contents name f).map fun x => some (spaced x.toList) := by
  constructor
  · rw [mem_row_iff (by decide)]
    exact fun h => h.1 rfl
  refine ⟨(contents name f).map fun x => padded x.toList, ?_, rfl, ?_⟩
  · have hcells := betweenBars_cells ((contents name f).map String.toList)
    rw [List.flatMap_map, List.map_map] at hcells
    rw [toList_row, betweenBars, if_pos (by simp), hcells]
    rfl
  · rw [List.map_map]
    exact List.map_congr_left fun x _ => cellContent?_padded x.toList

end DocComments.Page
