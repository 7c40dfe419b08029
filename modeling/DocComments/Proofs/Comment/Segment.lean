import DocComments.Proofs.Comment.FencedBlock
import DocComments.Proofs.Comment.Written

/-!
# The segments of a comment

The lines of a comment, whatever they are, can be cut before each tag line in exactly one way. The
lines in front of the first tag line make the description and the fenced examples, each segment
makes one tag or one example, and no line has a part in anything but its own segment. How
descriptions and examples are made of their lines is not said here.
-/

namespace DocComments.Comment
open Text (trim trimStart trimEnd unlines isBlankText)
open Unicode (isBlank)

/-- A tag line, blanks in front of it included, with the lines up to the next one. -/
structure Segment extends Section where
  indent : List Char
  indent_isBlank : isBlankText indent = true
  key_isKey : IsKey key
  head_apart : ∀ c, head.head? = some c → isKeyPart c = false
  body_free : ∀ l ∈ body, ¬ StartsTag l

namespace Segment

/-- The tag line. -/
def line (x : Segment) : List Char :=
  x.indent ++ '@' :: (x.key ++ x.head)

/-- All lines of the segment. -/
def lines (x : Segment) : List (List Char) :=
  x.line :: x.body

/-- Whether the segment is an example. -/
def isExample (x : Segment) : Bool :=
  x.key == exampleKey

/-- The tag that the lines of the segment make. -/
def tag (x : Segment) : Tag where
  key := String.ofList x.key
  value := String.ofList (trim (unlines ((x.head :: x.body).map trim)))

/-- The example that the lines of the segment make. -/
def sample (x : Segment) : Example :=
  taggedExample (trim x.head) (x.body.map trimEnd)

theorem startsTag_line (x : Segment) : StartsTag x.line := by
  have hkey := x.key_isKey
  cases h : x.key with
  | nil =>
    rw [h] at hkey
    exact hkey.elim
  | cons c s =>
    rw [h] at hkey
    refine ⟨c, s ++ x.head, ?_, hkey.1⟩
    rw [line, Text.trimStart_append_of_blank x.indent_isBlank, h]
    exact Text.trimStart_cons_of_not_blank rfl _

theorem tagLine?_line (x : Segment) : tagLine? x.line = some (x.key, trim x.head) := by
  rw [tagLine?, line, Text.trimStart_append_of_blank x.indent_isBlank, ← tagLine?,
    tagLine?_written x.key_isKey x.head_apart]

/-- Every tag line is the tag line of a segment. -/
theorem exists_of_startsTag {l : List Char} (h : StartsTag l) {body : List (List Char)}
    (hbody : ∀ m ∈ body, ¬ StartsTag m) : ∃ x : Segment, x.lines = l :: body := by
  obtain ⟨c, s, hstart, hc⟩ := h
  obtain ⟨indent, hindent, rfl⟩ := Text.exists_blanks_of_trimStart hstart
  have hapart : ∀ d, (s.dropWhile isKeyPart).head? = some d → isKeyPart d = false := by
    intro d hd
    have hnot := List.head?_dropWhile_not isKeyPart s
    rw [hd] at hnot
    simpa using hnot
  let x : Segment :=
    { key := c :: s.takeWhile isKeyPart
      head := s.dropWhile isKeyPart
      body := body
      indent := indent
      indent_isBlank := hindent
      key_isKey := ⟨hc, List.all_eq_true.mp List.all_takeWhile⟩
      head_apart := hapart
      body_free := hbody }
  refine ⟨x, ?_⟩
  rw [lines, line, List.cons_append, List.takeWhile_append_dropWhile]

end Segment

/-- A key ends where the text behind it starts. -/
theorem IsKey.append_inj {key key' head head' : List Char} (hkey : IsKey key) (hkey' : IsKey key')
    (hhead : ∀ c, head.head? = some c → isKeyPart c = false)
    (hhead' : ∀ c, head'.head? = some c → isKeyPart c = false)
    (h : key ++ head = key' ++ head') : key = key' ∧ head = head' := by
  cases key with
  | nil => exact hkey.elim
  | cons c s =>
    cases key' with
    | nil => exact hkey'.elim
    | cons c' s' =>
      obtain ⟨rfl, hrest⟩ := List.cons.inj h
      obtain ⟨htake, hdrop⟩ := Text.span_append hkey.2 hhead
      obtain ⟨htake', hdrop'⟩ := Text.span_append hkey'.2 hhead'
      rw [List.append_eq, List.append_eq] at hrest
      rw [hrest, htake'] at htake
      rw [hrest, hdrop'] at hdrop
      exact ⟨by rw [htake], hdrop.symm⟩

/-- A segment is known from its lines. -/
theorem Segment.lines_injective {x y : Segment} (h : x.lines = y.lines) : x = y := by
  obtain ⟨hline, hbody⟩ := List.cons.inj h
  obtain ⟨htake, hdrop⟩ := Text.span_append (t := '@' :: (x.key ++ x.head))
    (List.all_eq_true.mp x.indent_isBlank) (fun c hc => Option.some.inj hc ▸ rfl)
  obtain ⟨htake', hdrop'⟩ := Text.span_append (t := '@' :: (y.key ++ y.head))
    (List.all_eq_true.mp y.indent_isBlank) (fun c hc => Option.some.inj hc ▸ rfl)
  rw [line, line] at hline
  rw [hline, htake'] at htake
  rw [hline, hdrop'] at hdrop
  obtain ⟨hkey, hhead⟩ := x.key_isKey.append_inj y.key_isKey x.head_apart y.head_apart
    (List.cons.inj hdrop.symm).2
  obtain ⟨⟨key, head, body⟩, indent, _, _, _, _⟩ := x
  obtain ⟨⟨key', head', body'⟩, indent', _, _, _, _⟩ := y
  cases htake
  cases hkey
  cases hhead
  cases hbody
  rfl

/-! ### Cutting lines -/

/-- Lines are cut into an opening without tag lines and segments. -/
structure IsCut (ls opening : List (List Char)) (xs : List Segment) : Prop where
  eq_append : ls = opening ++ xs.flatMap Segment.lines
  opening_free : ∀ l ∈ opening, ¬ StartsTag l

namespace IsCut
variable {l : List Char} {ls opening : List (List Char)} {xs : List Segment}

/-- One more line in front of the opening. -/
theorem cons_line (hl : ¬ StartsTag l) (h : IsCut ls opening xs) :
    IsCut (l :: ls) (l :: opening) xs :=
  ⟨by rw [h.eq_append]; rfl, List.forall_mem_cons.mpr ⟨hl, h.opening_free⟩⟩

/-- A tag line takes the opening behind it into its segment. -/
theorem cons_tag {x : Segment} (h : IsCut ls x.body xs) : IsCut (x.line :: ls) [] (x :: xs) :=
  ⟨by rw [h.eq_append]; rfl, List.forall_mem_nil _⟩

/-- What is cut off in front of other lines. -/
theorem of_cons (h : IsCut (l :: ls) opening xs) :
    (¬ StartsTag l ∧ ∃ rest, opening = l :: rest ∧ IsCut ls rest xs) ∨
      ∃ x xs', opening = [] ∧ xs = x :: xs' ∧ x.line = l ∧ IsCut ls x.body xs' := by
  obtain ⟨hlines, hfree⟩ := h
  cases opening with
  | cons m rest =>
    obtain ⟨rfl, hrest⟩ := List.cons.inj hlines
    obtain ⟨hl, hfree⟩ := List.forall_mem_cons.mp hfree
    exact .inl ⟨hl, rest, rfl, hrest, hfree⟩
  | nil =>
    cases xs with
    | nil => cases hlines
    | cons x xs =>
      rw [List.nil_append, List.flatMap_cons, Segment.lines, List.cons_append] at hlines
      obtain ⟨rfl, hrest⟩ := List.cons.inj hlines
      exact .inr ⟨x, xs, rfl, rfl, rfl, hrest, x.body_free⟩

end IsCut

theorem exists_isCut (ls : List (List Char)) : ∃ opening xs, IsCut ls opening xs := by
  induction ls with
  | nil => exact ⟨[], [], rfl, List.forall_mem_nil _⟩
  | cons l ls ih =>
    obtain ⟨opening, xs, hcut⟩ := ih
    by_cases hl : StartsTag l
    · obtain ⟨x, hx⟩ := Segment.exists_of_startsTag hl hcut.opening_free
      obtain ⟨rfl, rfl⟩ := List.cons.inj hx
      exact ⟨[], x :: xs, hcut.cons_tag⟩
    · exact ⟨l :: opening, xs, hcut.cons_line hl⟩

/-- Lines are cut in one way only. -/
theorem IsCut.unique {ls opening opening' : List (List Char)} {xs xs' : List Segment}
    (h : IsCut ls opening xs) (h' : IsCut ls opening' xs') : opening' = opening ∧ xs' = xs := by
  induction ls generalizing opening opening' xs xs' with
  | nil =>
    have hnil : ∀ {d ys}, IsCut [] d ys → d = [] ∧ ys = [] := by
      intro d ys hcut
      obtain ⟨hd, hys⟩ := List.nil_eq_append_iff.mp hcut.eq_append
      cases ys with
      | nil => exact ⟨hd, rfl⟩
      | cons y ys => cases hys
    rw [(hnil h).1, (hnil h).2]
    exact hnil h'
  | cons l ls ih =>
    rcases h.of_cons with ⟨hl, rest, rfl, hrest⟩ | ⟨x, ys, rfl, rfl, rfl, hrest⟩
    · rcases h'.of_cons with ⟨-, rest', rfl, hrest'⟩ | ⟨x', ys', rfl, rfl, rfl, hrest'⟩
      · obtain ⟨rfl, rfl⟩ := ih hrest hrest'
        exact ⟨rfl, rfl⟩
      · exact absurd x'.startsTag_line hl
    · rcases h'.of_cons with ⟨hl, rest', rfl, hrest'⟩ | ⟨x', ys', rfl, rfl, hline, hrest'⟩
      · exact absurd x.startsTag_line hl
      · obtain ⟨hbody, rfl⟩ := ih hrest hrest'
        have hlines : x'.lines = x.lines := congrArg₂ List.cons hline hbody
        have hsame : x' = x := Segment.lines_injective hlines
        exact ⟨rfl, by rw [hsame]⟩

/-! ### Reading -/

/-- The sections of a comment are its segments, in order. -/
theorem IsCut.sections_eq {ls opening : List (List Char)} {xs : List Segment}
    (h : IsCut ls opening xs) :
    sections ls = (opening, xs.map fun x => x.toSection.trimHead) := by
  have hfree : ∀ {d : List (List Char)}, (∀ l ∈ d, ¬ StartsTag l) → ∀ l ∈ d, tagLine? l = none :=
    fun hd l hl => tagLine?_eq_none (hd l hl)
  have hsegments : ∀ ys : List Segment, sections (ys.flatMap Segment.lines) =
      ([], ys.map fun x => x.toSection.trimHead) := by
    intro ys
    induction ys with
    | nil => rfl
    | cons y ys ih =>
      rw [List.flatMap_cons, Segment.lines, List.cons_append, sections,
        sections_append (hfree y.body_free), ih, y.tagLine?_line, List.append_nil]
      rfl
  rw [h.eq_append, sections_append (hfree h.opening_free), hsegments, List.append_nil]

/-- The description that the lines in front of the first tag line make. -/
def openingDescription (opening : List (List Char)) : String :=
  String.ofList (descriptionAndExamples (opening.map trimEnd)).1

/-- The fenced examples in the lines in front of the first tag line. -/
def openingExamples (opening : List (List Char)) : List Example :=
  (descriptionAndExamples (opening.map trimEnd)).2

theorem form_of_mem_openingExamples {opening : List (List Char)} :
    ∀ x ∈ openingExamples opening, x.form = .fenced := by
  intro x hx
  obtain ⟨blocks, rest, hcut⟩ := exists_isFenceCut (opening.map trimEnd)
  rw [openingExamples, hcut.examples_eq] at hx
  obtain ⟨b, -, rfl⟩ := List.mem_map.mp hx
  rfl

namespace Segment

theorem tag?_trimHead (x : Segment) :
    x.toSection.trimHead.tag? = if !x.isExample then some x.tag else none := by
  change (if x.key = exampleKey then none else some x.tag) = _
  by_cases h : x.key = exampleKey
  · rw [if_pos h, if_neg (by simp [isExample, h])]
  · rw [if_neg h, if_pos (by simp [isExample, h])]

theorem example?_trimHead (x : Segment) :
    x.toSection.trimHead.example? = if x.isExample then some x.sample else none := by
  change (if x.key = exampleKey then some x.sample else none) = _
  by_cases h : x.key = exampleKey
  · rw [if_pos h, if_pos (by simp [isExample, h])]
  · rw [if_neg h, if_neg (by simp [isExample, h])]

end Segment

/-- What the opening and the segments make, with the fenced examples in front of the others. -/
theorem IsCut.read_eq {comment : List Char} {opening : List (List Char)} {xs : List Segment}
    (h : IsCut (commentLines comment) opening xs) :
    read comment =
      { description := openingDescription opening
        tags := (xs.filter (!·.isExample)).map Segment.tag
        examples := openingExamples opening ++ (xs.filter (·.isExample)).map Segment.sample } := by
  have htags : (xs.map fun x => x.toSection.trimHead).filterMap Section.tag? =
      (xs.filter (!·.isExample)).map Segment.tag := by
    rw [List.filterMap_map, ← List.filterMap_eq_map, List.filterMap_filter]
    exact List.filterMap_congr fun x _ => x.tag?_trimHead
  have hexamples : (xs.map fun x => x.toSection.trimHead).filterMap Section.example? =
      (xs.filter (·.isExample)).map Segment.sample := by
    rw [List.filterMap_map, ← List.filterMap_eq_map, List.filterMap_filter]
    exact List.filterMap_congr fun x _ => x.example?_trimHead
  rw [read, h.sections_eq]
  simp only [htags, hexamples]
  rfl

end DocComments.Comment
