import DocComments.Proofs.Comment.Segment
import DocComments.Proofs.Parameter.Characters
import DocComments.Proofs.Record.Fields
import DocComments.Proofs.Unicode.Disjoint

/-!
# How parameters are named

The fields of a record are named and typed in a tag of the comment or in the code. What stands in a
tag stands in a line of the comment. In the code a name is an identifier, unless it is a pattern in
brackets, which is named by its own text.
-/

namespace DocComments
open Text (trim)
open Unicode (isBlank)

/-- The text of a tag stands in the lines of the comment, line feeds apart. -/
theorem Comment.mem_of_mem_value {comment : List Char} {t : Tag} (ht : t ∈ (read comment).tags)
    {c : Char} (hc : c ∈ t.value.toList) : c = '\n' ∨ ∃ l ∈ commentLines comment, c ∈ l := by
  obtain ⟨opening, xs, hcut⟩ := exists_isCut (commentLines comment)
  rw [hcut.read_eq] at ht
  obtain ⟨x, hx, rfl⟩ := List.mem_map.mp ht
  rw [Segment.tag, String.toList_ofList] at hc
  rcases Text.mem_of_mem_intercalate ((Text.trim_infix _).subset hc) with hc | ⟨l, hl, hc⟩
  · exact .inl (List.mem_singleton.mp hc)
  · right
    obtain ⟨m, hm, rfl⟩ := List.mem_map.mp hl
    have hlines : ∀ n ∈ x.lines, n ∈ commentLines comment := fun n hn => by
      rw [hcut.eq_append]
      exact List.mem_append_right _
        (List.mem_flatMap.mpr ⟨x, (List.mem_filter.mp hx).1, hn⟩)
    have hc := (Text.trim_infix m).subset hc
    rcases List.mem_cons.mp hm with rfl | hm
    · refine ⟨x.line, hlines x.line List.mem_cons_self, List.mem_append_right _ ?_⟩
      exact List.mem_cons_of_mem '@' (List.mem_append_right _ hc)
    · exact ⟨m, hlines m (List.mem_cons_of_mem x.line hm), hc⟩

namespace Signature

/-- The brackets in which a pattern starts. -/
def patternMarks : List Char := ['\x7b', '[']

/-- An argument is named by an identifier, or it is a pattern. -/
theorem isIdentifier_or_pattern {piece : List Char} {a : Argument}
    (h : argument? piece = some a) :
    IsIdentifier a.name ∨ ∃ c ∈ patternMarks, a.name.head? = some c := by
  unfold argument? at h
  split at h
  · rename_i b hpattern
    cases h
    right
    unfold patternArgument? at hpattern
    split at hpattern
    · obtain ⟨found, -, rfl⟩ := Option.map_eq_some_iff.mp hpattern
      exact ⟨'\x7b', by simp [patternMarks], rfl⟩
    · obtain ⟨found, -, rfl⟩ := Option.map_eq_some_iff.mp hpattern
      exact ⟨'[', by simp [patternMarks], rfl⟩
    · cases hpattern
  · left
    unfold namedArgument? at h
    split at h
    · cases h
    · rename_i name rest hname
      split at h
      · cases h
      · cases h
        exact (isIdentifier_of_identifier? hname).1

/-- The blanks of a field that an argument declares are those of its name: its type is that of a
literal, and it has no description. -/
theorem Argument.isFreeOf_toField {c : Char} (hc : isBlank c = true) (scope : List String)
    {a : Argument} (ha : c ∉ a.name) : (a.toField scope).IsFreeOf c := by
  refine ⟨by rwa [a.name_toField, String.toList_ofList], fun t ht hmem => ?_⟩
  have htype : ∃ l : Literal, l.typeName = some t := by
    unfold Argument.toField at ht
    split at ht
    · cases ht
    · split at ht
      · cases ht
      · rename_i l _
        exact ⟨l, ht⟩
  obtain ⟨l, hl⟩ := htype
  have hsolid : isBlank c = false := by
    have hall : t.toList.all (!isBlank ·) = true := by
      cases l <;> cases hl <;> decide
    simpa using List.all_eq_true.mp hall c hmem
  rw [hsolid] at hc
  cases hc

theorem Argument.description_toField (scope : List String) (a : Argument) :
    (a.toField scope).description = "" := by
  unfold Argument.toField
  split
  · rfl
  · split <;> rfl

end Signature

namespace Record

/-- Of all blanks, the descriptions of a record's parameters and their properties have only
spaces. -/
theorem eq_space_of_mem_description {b : Block} {p : Parameter} (hp : p ∈ (ofBlock b).parameters)
    {f : Field} (hf : f = p.toField ∨ f ∈ p.properties) {c : Char} (hc : isBlank c = true)
    (h : c ∈ f.description.toList) : c = ' ' := by
  rcases exists_tag_of_mem_parameters hp with htags | hp
  · obtain ⟨t, -, rfl⟩ := htags f hf
    exact Field.eq_space_of_mem_description_ofTag hc h
  · obtain ⟨scope, a, rfl⟩ := (Signature.declared_ofCode b.code.toList).exists_of_mem hp
    rcases hf with rfl | hf
    · change c ∈ (a.toField scope).description.toList at h
      rw [a.description_toField] at h
      cases h
    · cases hf

/-- A carriage return that no line of the comment holds can only stand in a pattern. -/
theorem isFreeOf_or_pattern {b : Block}
    (hcomment : ∀ l ∈ Comment.commentLines b.comment.toList, '\r' ∉ l) {p : Parameter}
    (hp : p ∈ (ofBlock b).parameters) :
    (∀ f, f = p.toField ∨ f ∈ p.properties → f.IsFreeOf '\r') ∨
      p ∈ (Declaration.ofCode b.code.toList).parameters?.getD [] ∧ '\r' ∈ p.name.toList ∧
        ∃ c ∈ Signature.patternMarks, p.name.toList.head? = some c := by
  rcases exists_tag_of_mem_parameters hp with htags | hp
  · left
    intro f hf
    obtain ⟨t, ht, rfl⟩ := htags f hf
    apply Field.isFreeOf_ofTag rfl
    intro hmem
    rcases Comment.mem_of_mem_value ht hmem with heq | ⟨l, hl, hmem⟩
    · exact absurd heq (by decide)
    · exact hcomment l hl hmem
  · obtain ⟨scope, piece, a, hread, rfl⟩ :=
      (Signature.declared_ofCode b.code.toList).exists_argument_of_mem hp
    have hname : ((a.toField scope).toParameter).name.toList = a.name :=
      (congrArg String.toList (a.name_toField scope)).trans String.toList_ofList
    by_cases hmem : '\r' ∈ a.name
    · refine .inr ⟨hp, hname ▸ hmem, hname ▸ ?_⟩
      rcases Signature.isIdentifier_or_pattern hread with hname | hpattern
      · have hpart := hname.isPath.isPathPart '\r' hmem
        exact absurd (Signature.not_isBlank_of_isPathPart hpart) (by decide)
      · exact hpattern
    · left
      intro f hf
      rcases hf with rfl | hf
      · exact a.isFreeOf_toField rfl scope hmem
      · cases hf

end Record

end DocComments
