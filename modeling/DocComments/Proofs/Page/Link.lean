import DocComments.Page.Link
import DocComments.Proofs.Text.Occurrence
import DocComments.Proofs.Text.Pieces

/-!
# Texts that are linked once

A text is left as it is exactly if it is no relative path and a link stands in it. Whatever a text
is made into is such a text, so it is not linked a second time. Which of the rules applied is not
told by the result, nor is a link that stands in a text said to be one for every reader.
-/

namespace DocComments.Page

/-- A text that is no relative path and in which a link stands: one with its text and its target, or
the beginning of one between comments. -/
def IsLinked (s : List Char) : Prop :=
  isRelativePath s = false ∧
    ((∃ text target, linkTo text target <:+: s) ∨ inlineLinkMark <:+: s)

/-! ### Texts that hold a link -/

/-- The marks of a link are found in a text exactly if a link stands somewhere in it. -/
theorem holdsLink_iff {s : List Char} :
    holdsLink s = true ↔ ∃ text target, linkTo text target <:+: s := by
  constructor
  · intro h
    rw [holdsLink] at h
    split at h
    · rename_i rest hafter
      obtain ⟨target, behind, rfl⟩ := List.append_of_mem (List.contains_iff_mem.mp h)
      obtain ⟨inside, hinside⟩ := Text.exists_eq_append_of_after? hafter
      have hs := List.takeWhile_append_dropWhile (p := fun c => decide (c ≠ '[')) (l := s)
      have hhead := List.head?_dropWhile_not (fun c => decide (c ≠ '[')) s
      rw [hinside] at hs hhead
      cases inside with
      | nil => simp at hhead
      | cons c text =>
        -- what was searched starts with the first bracket, and the text of the link behind it
        obtain rfl : c = '[' := by simpa using hhead
        refine ⟨text, target, s.takeWhile (fun c => decide (c ≠ '[')), behind, ?_⟩
        conv_rhs => rw [← hs]
        simp [linkTo]
    · cases h
  · rintro ⟨text, target, front, behind, rfl⟩
    have hsplit : front ++ linkTo text target ++ behind =
        front ++ '[' :: (text ++ ([']', '('] ++ (target ++ ')' :: behind))) := by
      simp [linkTo]
    have hne : [']', '('] ≠ [] := by simp
    obtain ⟨rest, hrest, hsuffix⟩ := Text.exists_after?_append hne
      (front.dropWhile (fun c => decide (c ≠ '[')) ++ '[' :: text) (target ++ ')' :: behind)
    rw [holdsLink, hsplit, Text.dropWhile_append_mark (by simp), ← List.cons_append,
      ← List.append_assoc, hrest]
    exact List.contains_iff_mem.mpr (hsuffix.mem (by simp))

theorem isLinked_iff {s : List Char} : IsLinked s ↔
    isRelativePath s = false ∧ (holdsLink s || Text.occursIn inlineLinkMark s) = true := by
  rw [IsLinked, Bool.or_eq_true, holdsLink_iff, Text.occursIn_iff]

/-- A text in which a link stands is left as it is. -/
theorem link_of_isLinked {s : List Char} (h : IsLinked s) : link s = s := by
  obtain ⟨hpath, hlink⟩ := isLinked_iff.mp h
  rw [link, hpath, if_neg Bool.false_ne_true, if_pos hlink]

/-! ### Texts that are made into links -/

theorem isRelativePath_linkTo (text target : List Char) :
    isRelativePath (linkTo text target) = false := rfl

theorem isLinked_linkTo (text target : List Char) : IsLinked (linkTo text target) :=
  ⟨isRelativePath_linkTo text target, .inl ⟨text, target, List.infix_rfl⟩⟩

/-- Whether a text is a relative path is told by its first word. -/
theorem isRelativePath_intercalate (word : List Char) (words : List (List Char)) :
    isRelativePath (List.intercalate [' '] (word :: words)) = isRelativePath word := by
  cases words with
  | nil => rw [List.intercalate_singleton]
  | cons next words =>
    have hfront : ∀ part : List Char, ' ' ∉ part → ∀ rest,
        part.isPrefixOf (word ++ ' ' :: rest) = part.isPrefixOf word := by
      intro part hpart rest
      rw [Bool.eq_iff_iff, List.isPrefixOf_iff_prefix, List.isPrefixOf_iff_prefix,
        Text.prefix_append_cons_iff hpart]
    rw [List.intercalate_cons_cons, List.append_assoc, List.singleton_append, isRelativePath,
      hfront _ (by decide), hfront _ (by decide), hfront _ (by decide), isRelativePath]

/-- An address holds no space, so it stands in one of the words, and that word becomes a link. -/
theorem isLinked_linkAddresses {s : List Char} (hpath : isRelativePath s = false)
    (haddress : Text.occursIn addressMark s = true) : IsLinked (linkAddresses s) := by
  have hne := List.splitOn_ne_nil ' ' s
  have hs : List.intercalate [' '] (s.splitOn ' ') = s := List.intercalate_splitOn ' '
  constructor
  · obtain ⟨word, words, hwords⟩ := List.exists_cons_of_ne_nil hne
    rw [hwords] at hs
    rw [linkAddresses, hwords, List.map_cons, isRelativePath_intercalate]
    split
    · exact isRelativePath_linkTo word word
    · rwa [← isRelativePath_intercalate word words, hs]
  · rw [Text.occursIn_iff, ← hs, Text.infix_intercalate_iff hne (by decide)] at haddress
    obtain ⟨word, hword, hinfix⟩ := haddress
    refine .inl ⟨word, word, Text.infix_intercalate (List.mem_map.mpr ⟨word, hword, ?_⟩)⟩
    rw [if_pos (Text.occursIn_iff.mpr hinfix)]

/-- Whatever a text is made into, a link stands in it. -/
theorem isLinked_link (s : List Char) : IsLinked (link s) := by
  rw [link]
  split
  · exact isLinked_linkTo s s
  · rename_i hpath
    rw [Bool.not_eq_true] at hpath
    split
    · rename_i hlink
      exact isLinked_iff.mpr ⟨hpath, hlink⟩
    · split
      · rename_i haddress
        exact isLinked_linkAddresses hpath haddress
      · exact isLinked_linkTo s _

theorem link_eq_self_iff {s : List Char} : link s = s ↔ IsLinked s :=
  ⟨fun h => h ▸ isLinked_link s, link_of_isLinked⟩

/-- What was made into a link is not linked again: a text is left as it is exactly if it is no
relative path and a link stands in it, and every text is made into such a one. -/
theorem linkText_linkText (s : String) :
    linkText (linkText s) = linkText s ∧ IsLinked (linkText s).toList ∧
      (linkText s = s ↔ IsLinked s.toList) := by
  have hlist : ∀ t, (linkText t).toList = link t.toList := fun _ => String.toList_ofList
  refine ⟨?_, ?_, ?_⟩
  · rw [← String.toList_inj, hlist, hlist]
    exact link_of_isLinked (isLinked_link s.toList)
  · rw [hlist]
    exact isLinked_link s.toList
  · rw [← String.toList_inj, hlist]
    exact link_eq_self_iff

end DocComments.Page
