import DocComments.Page.Attachment
import DocComments.Page.Markdown
import DocComments.Proofs.Json.Characters
import DocComments.Proofs.Page.Link
import DocComments.Proofs.Record.WellFormed
import DocComments.Record.Reader

/-!
# Names in what is written

The name of a record is a path, so it starts as an identifier does and holds no mark that has a
meaning for a link or for code. In the index every name is linked to its own heading, and each
statement that attaches a description stands on lines of its own. That the heading of a name has the
anchor it is linked to is not said, nor what the statements do when they are run.
-/

namespace DocComments

/-- A name of a record is a path. -/
theorem Record.isPath_name {source : List Char} {r : Record} (hr : r ∈ all source)
    (hne : r.name ≠ "") : Signature.IsPath r.name.toList := by
  obtain ⟨b, -, rfl⟩ := List.mem_map.mp hr
  exact (Declaration.name_of_declared (Signature.declared_ofCode b.code.toList) hne).isPath

/-- Only to what has a name can something be attached. -/
theorem Record.name_ne_of_canAttach {source : List Char} {r : Record} (hr : r ∈ all source)
    (hattach : r.canAttach = true) : r.name ≠ "" := by
  obtain ⟨b, -, rfl⟩ := List.mem_map.mp hr
  have hformed := Declaration.isWellFormed_of_declared (Signature.declared_ofCode b.code.toList)
  exact (hformed.attachable hattach).2.1

namespace Page
open Signature (IsPath)

/-! ### Links to names -/

section
variable {path : List Char}

/-- A path holds none of the marks that no path has. -/
theorem not_mem_of_isPath (h : IsPath path) {c : Char} (hc : Signature.isPathPart c = false) :
    c ∉ path := fun hmem => by
  rw [h.isPathPart c hmem] at hc
  cases hc

theorem occursIn_of_not_mem {part s : List Char} {c : Char} (hpart : c ∈ part) (hs : c ∉ s) :
    Text.occursIn part s = false := by
  cases hoccurs : Text.occursIn part s with
  | false => rfl
  | true => exact absurd ((Text.occursIn_iff.mp hoccurs).subset hpart) hs

theorem isRelativePath_of_isPath (h : IsPath path) : isRelativePath path = false := by
  cases path with
  | nil => exact h.elim
  | cons c s =>
    have hne : ∀ d, Signature.isIdentifierStart d = false → (d == c) = false := by
      intro d hd
      rw [beq_eq_false_iff_ne]
      rintro rfl
      rw [h.1] at hd
      cases hd
    have hslash := hne '/' (by decide)
    have hpoint := hne '.' (by decide)
    change ('/' == c && _ || '.' == c && _ || '.' == c && _) = false
    rw [hslash, hpoint]
    rfl

theorem holdsLink_of_not_mem {s : List Char} (h : '[' ∉ s) : holdsLink s = false := by
  rw [← Bool.not_eq_true, holdsLink_iff]
  rintro ⟨text, target, hlink⟩
  exact h (hlink.subset (by simp [linkTo]))

/-- A path is linked to the heading of that name. -/
theorem link_of_isPath (h : IsPath path) : link path = linkTo path ('#' :: slug path) := by
  have hbracket : '[' ∉ path := not_mem_of_isPath h (by decide)
  have hbrace : '\x7b' ∉ path := not_mem_of_isPath h (by decide)
  have hcolon : ':' ∉ path := not_mem_of_isPath h (by decide)
  rw [link, isRelativePath_of_isPath h, holdsLink_of_not_mem hbracket,
    occursIn_of_not_mem (by decide) hbrace, occursIn_of_not_mem (by decide) hcolon]
  rfl

theorem not_mem_slug (s : List Char) : '\n' ∉ slug s := by
  intro hmem
  obtain ⟨c, hc, heq⟩ := List.mem_map.mp hmem
  have hstays := (List.mem_filter.mp hc).2
  split at heq
  · exact absurd heq (by decide)
  · rw [heq] at hstays
    exact absurd hstays (by decide)

end

/-! ### The index -/

/-- The item of a path is a link to the heading of that name. -/
theorem indexItemText_of_isPath {name : String} (h : IsPath name.toList) :
    indexItemText name =
      "* [" ++ name ++ "](#" ++ String.ofList (slug name.toList) ++ ")" := by
  apply String.toList_inj.mp
  rw [indexItemText, String.toList_ofList, indexItem, link_of_isPath h]
  simp [linkTo]

theorem not_mem_indexItemText {name : String} (h : IsPath name.toList) :
    '\n' ∉ (indexItemText name).toList := by
  have hname : '\n' ∉ name.toList := not_mem_of_isPath h (by decide)
  have hslug := not_mem_slug name.toList
  rw [indexItemText_of_isPath h]
  simp [hname, hslug]

/-- The lines of the index: its heading and an item for each record, with an empty line behind
each of the two parts. -/
def indexLines (rs : List Record) : List (List Char) :=
  ("## Index".toList :: [] :: rs.map fun r => (indexItemText r.name).toList) ++ [[]]

theorem toList_indexText {rs : List Record} (hne : rs ≠ []) :
    (indexText rs).toList = (indexLines rs).flatMap (· ++ ['\n']) := by
  have hitems : (rs.map fun r => indexItemText r.name ++ "\n").flatMap String.toList =
      (rs.map fun r => (indexItemText r.name).toList).flatMap (· ++ ['\n']) := by
    rw [List.flatMap_map, List.flatMap_map]
    exact List.flatMap_congr fun r _ => String.toList_append
  have hempty : rs.isEmpty = false := by
    simpa using hne
  rw [indexText, hempty, if_neg Bool.false_ne_true, String.toList_append, String.toList_append,
    String.toList_join, hitems, indexLines, List.flatMap_append, List.flatMap_cons,
    List.flatMap_cons]
  rfl

/-- A page with records starts with the index. -/
theorem exists_toList_markdown {rs : List Record} (hne : rs.filter isVisible ≠ []) :
    ∃ rest, (markdown rs).toList =
      Text.unlines (indexLines (rs.filter isVisible) ++ [rest]) := by
  refine ⟨(String.join ((rs.filter isVisible).map fun r => sectionText r ++ "\n")).toList, ?_⟩
  rw [Text.unlines_append_singleton, ← toList_indexText hne, ← String.toList_append]
  rfl

/-! ### The statements -/

/-- The lines of the description that is attached for a record, without its outer braces. -/
def descriptionLines (r : Record) : List (List Char) :=
  ((attachedDescription r).pretty.toList.splitOn '\n').tail.dropLast

/-- The lines of the statement that attaches the description of a record to its name. -/
def statementLines (r : Record) : List (List Char) :=
  ([] :: "try \x7b".toList :: ("  " ++ r.name ++ ".__docgenInfo = \x7b").toList ::
    (descriptionLines r ++ ["\x7d;".toList])) ++ ["\x7d catch (e) \x7b\x7d".toList]

/-- The description stands between two lines for its braces, on lines that are moved to the
right. -/
theorem pretty_attachedDescription (r : Record) :
    (attachedDescription r).pretty.toList =
        Text.unlines (['\x7b'] :: descriptionLines r ++ [['\x7d']]) ∧
      ∀ l ∈ descriptionLines r, '\n' ∉ l ∧ l.head? = some ' ' := by
  obtain ⟨inner, hpretty, hinner⟩ := Json.exists_lines_pretty_object
    (List.cons_ne_nil ("displayName", .string r.name)
      [("description", .string r.description),
        ("props", .object (r.parameters.map fun p => (p.name, attachedParameter p))),
        ("rawRecord", r.toJson)])
  rw [← attachedDescription] at hpretty
  have hlines : descriptionLines r = inner := by
    have hfeeds : ∀ l ∈ ['\x7b'] :: inner, '\n' ∉ l :=
      List.forall_mem_cons.mpr ⟨by decide, fun l hl => (hinner l hl).1⟩
    rw [descriptionLines, hpretty, Text.splitOn_unlines hfeeds (by decide), List.cons_append,
      List.tail_cons, List.dropLast_concat]
  rw [hlines]
  exact ⟨hpretty, hinner⟩

theorem toList_attachment (r : Record) :
    (attachment r).toList = Text.unlines (statementLines r) := by
  have hpretty := (pretty_attachedDescription r).1
  rw [Text.unlines_append_singleton] at hpretty
  rw [attachment, statementLines, Text.unlines_append_singleton]
  simp only [String.toList_append, hpretty, List.flatMap_cons, List.flatMap_append,
    List.flatMap_nil, List.append_nil, List.append_assoc]
  rfl

theorem not_mem_statementLines {r : Record} (hname : '\n' ∉ r.name.toList) :
    ∀ l ∈ statementLines r, '\n' ∉ l := by
  have htarget : '\n' ∉ ("  " ++ r.name ++ ".__docgenInfo = \x7b").toList := by
    simp [hname]
  simp only [statementLines, List.cons_append, List.forall_mem_cons, List.forall_mem_append,
    List.append_assoc]
  exact ⟨List.not_mem_nil, by decide, htarget, fun l hl =>
    ((pretty_attachedDescription r).2 l hl).1, by decide, List.forall_mem_nil _, by decide,
    List.forall_mem_nil _⟩

/-- What is attached for records is one statement for each of them, in order. -/
theorem unlines_statementLines (rs : List Record) :
    Text.unlines (rs.map fun r => (attachment r).toList) =
      Text.unlines (rs.flatMap statementLines) := by
  induction rs with
  | nil => rfl
  | cons r rs ih =>
    cases rs with
    | nil => simp [toList_attachment]
    | cons q rs =>
      have hfirst : statementLines r ≠ [] := List.cons_ne_nil _ _
      have hrest : (q :: rs).flatMap statementLines ≠ [] := by
        rw [List.flatMap_cons]
        exact List.append_ne_nil_of_left_ne_nil (List.cons_ne_nil _ _) _
      have hsplit : (r :: q :: rs).flatMap statementLines =
          statementLines r ++ (q :: rs).flatMap statementLines := List.flatMap_cons
      rw [List.map_cons, Text.unlines_cons (by simp), ih, toList_attachment, hsplit,
        Text.unlines_append hfirst hrest]

/-- In the index of a text's page each name that has a place is on a line of its own, in order and
as a link to its own heading. What is attached is one statement for each record that can carry one
and is not ignored, in order; each assigns to a path, and only the lines of its description are
moved further to the right. -/
theorem names_written_of_all (source : List Char) :
    (∀ r ∈ (Record.all source).filter isVisible, indexItemText r.name =
      "* [" ++ r.name ++ "](#" ++ String.ofList (slug r.name.toList) ++ ")" ∧
        '\n' ∉ (indexItemText r.name).toList) ∧
    ((Record.all source).filter isVisible ≠ [] → ∃ rest, (markdown (Record.all source)).toList =
      Text.unlines (indexLines ((Record.all source).filter isVisible) ++ [rest])) ∧
    (attachments (Record.all source)).toList =
      Text.unlines (((Record.all source).filter fun r => r.canAttach && !r.ignore).flatMap
        statementLines) ∧
    ∀ r ∈ Record.all source, r.canAttach = true →
      IsPath r.name.toList ∧ (∀ l ∈ statementLines r, '\n' ∉ l) ∧
        ∀ l ∈ descriptionLines r, l.head? = some ' ' := by
  refine ⟨fun r hr => ?_, exists_toList_markdown, ?_, fun r hr hattach => ?_⟩
  · obtain ⟨hr, hshown⟩ := List.mem_filter.mp hr
    rw [isVisible, Bool.and_eq_true] at hshown
    have hpath := Record.isPath_name hr (of_decide_eq_true hshown.2)
    exact ⟨indexItemText_of_isPath hpath, not_mem_indexItemText hpath⟩
  · rw [attachments, String.toList_intercalate, List.map_map]
    exact unlines_statementLines _
  · have hpath := Record.isPath_name hr (Record.name_ne_of_canAttach hr hattach)
    exact ⟨hpath, not_mem_statementLines (not_mem_of_isPath hpath (by decide)),
      fun l hl => ((pretty_attachedDescription r).2 l hl).2⟩

/-- A function that is assigned to a path, behind a property of the object at hand. -/
theorem names_written_of_all_assigned :
    let source :=
      "/** Size. */ this.max = 5; /** Grow. */ exports.grow = function(by) \x7b\x7d".toList
    (∃ rest, (markdown (Record.all source)).toList =
      Text.unlines (indexLines ((Record.all source).filter isVisible) ++ [rest])) ∧
    ∃ r ∈ (Record.all source).filter isVisible, r.name = "exports.grow" ∧
      indexItemText r.name = "* [exports.grow](#exportsgrow)" ∧ r.canAttach = true ∧
        IsPath r.name.toList ∧ ∀ l ∈ descriptionLines r, l.head? = some ' ' := by
  intro source
  have hrecord : ∃ r ∈ Record.all source,
      isVisible r = true ∧ r.name = "exports.grow" ∧ r.canAttach = true := by
    decide +kernel
  have hslug : String.ofList (slug "exports.grow".toList) = "exportsgrow" := by decide +kernel
  obtain ⟨r, hr, hshown, hname, hattach⟩ := hrecord
  have hvisible := List.mem_filter.mpr ⟨hr, hshown⟩
  obtain ⟨hitem, hindex, -, hstatement⟩ := names_written_of_all source
  obtain ⟨hpath, -, hinner⟩ := hstatement r hr hattach
  refine ⟨hindex (List.ne_nil_of_mem hvisible), r, hvisible, hname, ?_, hattach, hpath, hinner⟩
  rw [(hitem r hvisible).1, hname, hslug]
  rfl

end Page

end DocComments
