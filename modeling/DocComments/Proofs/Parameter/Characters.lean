import DocComments.Proofs.Parameter.Bracket
import DocComments.Proofs.Parameter.TypeName
import DocComments.Proofs.Text.Pieces

/-!
# The characters of a field

A tag is cut into a type, a name, a default and a description. Its name and its type take their
blanks from the tag; in its description every blank is a space, whatever stood in the tag.
-/

namespace DocComments
open Text (trim trimStart trimEnd collapseBlanks)
open Unicode (isBlank)

namespace TypeName
variable {s : List Char} {c : Char}

theorem not_isBlank_of_mem_aliases {a : String × String} (ha : a ∈ aliases)
    (hc : c ∈ a.2.toList) : isBlank c = false := by
  have hsolid : aliases.all (fun a => a.2.toList.all (!isBlank ·)) = true := by decide
  simpa using List.all_eq_true.mp (List.all_eq_true.mp hsolid a ha) c hc

theorem isInfix_unwrapped (s : List Char) : unwrapped s <:+: s := by
  unfold unwrapped
  split
  · rename_i t
    split
    · exact (List.dropLast_prefix t).isInfix.trans (List.suffix_cons '(' t).isInfix
    · exact List.infix_rfl
  · exact List.infix_rfl

theorem isInfix_bare (s : List Char) : bare s <:+: s :=
  (Text.trim_infix _).trans <| (isInfix_unwrapped _).trans <|
    (List.dropWhile_suffix isNullMark).isInfix.trans (Text.trim_infix s)

theorem mem_of_mem_canonical (hc : isBlank c = true) (h : c ∈ canonical s) : c ∈ s := by
  rcases canonical_cases s with ⟨a, ha, heq⟩ | heq
  · rw [heq] at h
    rw [not_isBlank_of_mem_aliases ha h] at hc
    cases hc
  · rwa [heq] at h

theorem mem_of_mem_normalMember (hc : isBlank c = true) (h : c ∈ normalMember s) : c ∈ s := by
  apply (isInfix_bare s).subset
  unfold normalMember at h
  split at h
  · rename_i base hbase
    have hsplit : bare s = base ++ listSuffix := Text.isSuffixOf?_eq_some_iff.mp hbase
    rcases List.mem_append.mp h with h | h
    · rw [hsplit]
      exact List.mem_append_left _ (mem_of_mem_canonical hc h)
    · rw [hsplit]
      exact List.mem_append_right _ h
  · exact mem_of_mem_canonical hc h

/-- The normal form of a type has no blanks but those of the type. -/
theorem mem_of_mem_normal (hc : isBlank c = true) (h : c ∈ normal s) : c ∈ s := by
  rcases Text.mem_of_mem_intercalate h with h | ⟨l, hl, h⟩
  · rw [List.mem_singleton.mp h] at hc
    cases hc
  · obtain ⟨m, hm, rfl⟩ := List.mem_map.mp hl
    exact (Text.infix_of_mem_splitOn hm).subset (mem_of_mem_normalMember hc h)

theorem mem_of_mem_ofText? {t : String} (hc : isBlank c = true) (ht : ofText? s = some t)
    (h : c ∈ t.toList) : c ∈ s := by
  simp only [ofText?] at ht
  split at ht
  · cases ht
  · cases ht
    rw [String.toList_ofList] at h
    exact (Text.trim_infix s).subset (mem_of_mem_normal hc h)

end TypeName

namespace Tag

theorem isInfix_nameAndDefault (s : List Char) : (nameAndDefault s).1 <:+: s := by
  rw [nameAndDefault]
  split
  · exact (Text.trim_infix _).trans (List.takeWhile_prefix _).isInfix
  · exact Text.trim_infix s

theorem exists_of_braced? {s type rest : List Char} (h : braced? s = some (type, rest)) :
    ∃ c d, s = c :: (type ++ d :: rest) := by
  unfold braced? at h
  split at h
  · rename_i t
    split at h
    · rename_i d r hdrop
      cases h
      exact ⟨'\x7b', d, by rw [← hdrop, List.takeWhile_append_dropWhile]⟩
    · cases h
  · cases h

end Tag

namespace Field

/-- A character stands neither in the name of a field nor in its type. -/
structure IsFreeOf (c : Char) (f : Field) : Prop where
  name : c ∉ f.name.toList
  type : ∀ t, f.declaredType = some t → c ∉ t.toList

variable {c : Char} {s : List Char} {f : Field}

theorem isFreeOf_afterType? {type? : Option (List Char)} (hc : isBlank c = true)
    (htype : ∀ type, type? = some type → c ∉ type) (hs : c ∉ s)
    (h : afterType? type? s = some f) : f.IsFreeOf c := by
  have hdeclared : ∀ t, type?.bind TypeName.ofText? = some t → c ∉ t.toList := by
    intro t ht hmem
    obtain ⟨type, hgiven, ht⟩ := Option.bind_eq_some_iff.mp ht
    exact htype type hgiven (TypeName.mem_of_mem_ofText? hc ht hmem)
  unfold afterType? at h
  split at h
  · rename_i t
    obtain ⟨⟨inside, rest⟩, hclose, rfl⟩ := Option.map_eq_some_iff.mp h
    obtain ⟨rfl, -⟩ := Tag.closeBracket_eq_some_iff.mp hclose
    refine ⟨fun hmem => hs ?_, hdeclared⟩
    rw [String.toList_ofList] at hmem
    exact List.mem_cons_of_mem _
      (List.mem_append_left _ ((Tag.isInfix_nameAndDefault inside).subset hmem))
  · cases h
    refine ⟨fun hmem => hs ?_, hdeclared⟩
    rw [String.toList_ofList] at hmem
    exact (List.takeWhile_prefix _).subset hmem

/-- The blanks of a name and of a type stand in the tag. -/
theorem isFreeOf_ofTag (hc : isBlank c = true) (hs : c ∉ s) : (ofTag s).IsFreeOf c := by
  have htrim : c ∉ trim s := fun hmem => hs ((Text.trim_infix s).subset hmem)
  unfold ofTag
  split
  · rename_i f hf
    unfold ofTrimmed? at hf
    split at hf
    · split at hf
      · rename_i type rest hbraced
        obtain ⟨b, d, hsplit⟩ := Tag.exists_of_braced? hbraced
        rw [hsplit] at htrim
        simp only [List.mem_cons, List.mem_append, not_or] at htrim
        refine isFreeOf_afterType? hc ?_ ?_ hf
        · intro given hgiven hmem
          cases hgiven
          exact htrim.2.1 ((Text.trim_infix type).subset hmem)
        · exact fun hmem => htrim.2.2.2 ((Text.trimStart_suffix rest).subset hmem)
      · cases hf
    · exact isFreeOf_afterType? hc (fun _ h => by cases h) htrim hf
  · exact ⟨List.not_mem_nil, fun _ h => by cases h⟩

/-- Of all blanks, a description has only spaces. -/
theorem eq_space_of_mem_description_ofTag (hc : isBlank c = true)
    (h : c ∈ (ofTag s).description.toList) : c = ' ' := by
  have hcollapsed : ∃ t, (ofTag s).description = String.ofList (collapseBlanks t) := by
    unfold ofTag
    split
    · rename_i f hf
      unfold ofTrimmed? at hf
      split at hf
      · split at hf
        · obtain ⟨t, rest, -, hdescription, -⟩ := exists_of_afterType? hf
          exact ⟨rest, hdescription⟩
        · cases hf
      · obtain ⟨t, rest, -, hdescription, -⟩ := exists_of_afterType? hf
        exact ⟨rest, hdescription⟩
    · exact ⟨s, rfl⟩
  obtain ⟨t, ht⟩ := hcollapsed
  rw [ht, String.toList_ofList] at h
  exact Text.eq_space_of_mem_collapseBlanks hc h

end Field

end DocComments
