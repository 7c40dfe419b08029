import DocComments.Proofs.Signature.Declared
import DocComments.Proofs.Signature.Member
import DocComments.Proofs.Signature.Statement

/-!
# Names that are cut out of longer ones

The name of a declaration is meant to be an identifier of the code, from its first character to its
last. Mostly it is, and the three ways in which it is not are told by what stands about it: a method
whose name gives up its last character, a function whose name is taken from behind a dollar sign
that follows the word for a function at once, and an assignment that is found in the middle of a
word. Whether a name that is cut out stands elsewhere in the code as a word of its own is left open.
-/

namespace DocComments.Signature
open Text (trim trimStart isBlankText)
open Unicode (isBlank isWordChar)

/-- A text does not start within a word. -/
def BeginsApart (s : List Char) : Prop :=
  ∀ c, s.head? = some c → isIdentifierPart c = false

/-- A name stands somewhere in a text with no character about it that goes on with the name. -/
def IsWhole (s name : List Char) : Prop :=
  ∃ u v, s = u ++ (name ++ v) ∧ EndsApart u ∧ BeginsApart v

instance : DecidablePred EndsApart :=
  fun s => decidable_of_iff (s.getLast?.all (!isIdentifierPart ·) = true) (by
    cases h : s.getLast? <;> simp [EndsApart, h])

instance : DecidablePred BeginsApart :=
  fun s => decidable_of_iff (s.head?.all (!isIdentifierPart ·) = true) (by
    cases h : s.head? <;> simp [BeginsApart, h])

/-- The places of a text decide whether a name stands in it as a word of its own. -/
theorem isWhole_iff {s name : List Char} :
    IsWhole s name ↔ ∃ p ∈ List.range (s.length + 1), name <+: s.drop p ∧ EndsApart (s.take p) ∧
      BeginsApart (s.drop (p + name.length)) := by
  constructor
  · rintro ⟨u, v, rfl, hu, hv⟩
    refine ⟨u.length, List.mem_range.mpr ?_, ?_, ?_, ?_⟩
    · rw [List.length_append]
      omega
    · rw [List.drop_left]
      exact List.prefix_append name v
    · rwa [List.take_left]
    · rwa [← List.drop_drop, List.drop_left, List.drop_left]
  · rintro ⟨p, -, ⟨v, hv⟩, hbefore, hbehind⟩
    refine ⟨s.take p, v, ?_, hbefore, ?_⟩
    · rw [hv, List.take_append_drop]
    · rwa [← List.drop_drop, ← hv, List.drop_left] at hbehind

instance (s name : List Char) : Decidable (IsWhole s name) :=
  decidable_of_iff _ isWhole_iff.symm

/-- A name that stands between two texts is cut out of a longer one, by the construct that is
declared and by what stands before and behind the name. -/
inductive Torn : Construct → List Char → List Char → List Char → Prop
  | method (isStatic isAsync : Bool) {u name v : List Char} {c : Char} (hu : EndsApart u)
      (hc : isIdentifierPart c = true) (hv : ')' ∉ v) :
      Torn (.callable (.method isStatic) isAsync) u name (c :: ')' :: v)
  | function (isAsync : Bool) {u name v : List Char} (hv : BeginsApart v) :
      Torn (.callable .plain isAsync) (u ++ "function".toList) ('$' :: name) v
  | assigned (isAsync : Bool) {u path v : List Char} {c : Char} (hc : isIdentifierPart c = true)
      (hstart : isIdentifierStart c = false) (hv : BeginsApart v) :
      Torn (.callable .assigned isAsync) (u ++ [c]) path v

/-- Where a name is cut out something goes on with it, before it or behind it. -/
theorem Torn.not_apart {x : Construct} {u name v : List Char} (h : Torn x u name v) :
    ¬ (EndsApart u ∧ BeginsApart v) := by
  rintro ⟨hu, hv⟩
  cases h with
  | method _ _ _ hc _ =>
    rw [hv _ rfl] at hc
    cases hc
  | function _ _ =>
    have hn := hu 'n' (by simp)
    exact absurd hn (by decide)
  | assigned _ hc _ _ =>
    rw [hu _ (by simp)] at hc
    cases hc

/-- The name of a declaration stands in a text, as a word of its own unless it is cut out. -/
def Located (s : List Char) (d : Declaration) : Prop :=
  ∃ u v, s = u ++ (d.name.toList ++ v) ∧
    (EndsApart u ∧ BeginsApart v ∨ Torn d.construct u d.name.toList v)

section
variable {s t name rest : List Char} {d : Declaration}

/-- What stands behind an identifier that was read does not go on with it. -/
theorem beginsApart_of_identifier? (h : identifier? s = some (name, rest)) : BeginsApart rest := by
  cases s with
  | nil => cases h
  | cons c s =>
    rw [identifier?] at h
    split at h
    · cases h
      intro d hd
      have hnot := List.head?_dropWhile_not isIdentifierPart s
      rw [hd] at hnot
      simpa using hnot
    · cases h

theorem located_of_name {u v : List Char} (hname : d.name = String.ofList name)
    (hs : s = u ++ (name ++ v))
    (h : EndsApart u ∧ BeginsApart v ∨ Torn d.construct u name v) : Located s d := by
  rw [Located, hname, String.toList_ofList]
  exact ⟨u, v, hs, h⟩

/-- An identifier that is read where no word goes on is a word of its own. -/
theorem located_of_identifier? (hst : StartsApart s t) (h : identifier? t = some (name, rest))
    (hname : d.name = String.ofList name) : Located s d := by
  obtain ⟨u, rfl, hu⟩ := hst
  obtain ⟨-, rfl⟩ := isIdentifier_of_identifier? h
  exact located_of_name hname rfl (.inl ⟨hu, beginsApart_of_identifier? h⟩)

theorem located_of_classDeclaration? (h : classDeclaration? s = some d) : Located s d := by
  rw [classDeclaration?] at h
  split at h
  · cases h
  · rename_i t ht
    split at h
    · cases h
    · rename_i name rest hname
      split at h <;> cases h
      exact located_of_identifier? ((afterExport_startsApart s).trans (spacedWord?_startsApart ht))
        hname rfl

/-- A text ends with another one, in front of which a character stands that is in no word, or it is
that text. -/
def GoesOn (s t : List Char) : Prop :=
  t = s ∨ ∃ u c, s = u ++ c :: t ∧ isIdentifierPart c = false

theorem goesOn_trimStart (s : List Char) : GoesOn s (trimStart s) := by
  obtain ⟨g, hg, hs⟩ := Text.exists_blanks_of_trimStart (s := s) rfl
  rcases List.eq_nil_or_concat g with rfl | ⟨g, b, rfl⟩
  · exact .inl hs.symm
  · rw [List.concat_eq_append] at hg hs
    have hb : isBlank b = true := List.all_eq_true.mp hg b (by simp)
    refine .inr ⟨g, b, ?_, isIdentifierPart_of_isPathPart (isPathPart_of_isBlank hb)⟩
    conv_lhs => rw [hs]
    simp

theorem goesOn_dropStar (s : List Char) : GoesOn s (dropStar s) := by
  unfold dropStar
  split
  · exact .inr ⟨[], '*', rfl, by decide⟩
  · exact .inl rfl

theorem GoesOn.trans {r : List Char} (h : GoesOn s t) (h' : GoesOn t r) : GoesOn s r := by
  rcases h' with rfl | ⟨v, d, rfl, hd⟩
  · exact h
  · rcases h with heq | ⟨u, c, rfl, hc⟩
    · exact .inr ⟨v, d, heq.symm, hd⟩
    · exact .inr ⟨u ++ c :: v, d, by simp, hd⟩

/-- Only a dollar sign starts an identifier without being a character of words. -/
theorem eq_dollar_of_isIdentifierStart {c : Char} (h : isIdentifierStart c = true)
    (hword : isWordChar c = false) : c = '$' := by
  simp only [isIdentifierStart, Bool.or_eq_true, beq_iff_eq] at h
  rcases h with (rfl | rfl) | h
  · rfl
  · exact absurd hword (by decide)
  · rw [Unicode.isWordChar_of_isWordLetter h] at hword
    cases hword

/-- Behind the word for a function a name starts a word, unless it follows the word at once. -/
theorem located_of_functionDeclaration? (h : functionDeclaration? s = some d)
    (hne : d.name ≠ "") : Located s d := by
  rw [functionDeclaration?] at h
  split at h
  · cases h
  · rename_i isAsync rest hrest
    obtain ⟨hmark, hword⟩ := functionWord?_eq_some_iff.mp hrest
    have hfunction : StartsApart s ("function".toList ++ rest) := by
      have hasync := asyncMark_startsApart (afterExport s)
      rw [hmark] at hasync
      exact (afterExport_startsApart s).trans hasync
    obtain ⟨p, rfl, -⟩ := hfunction
    have hgoes : GoesOn rest (trimStart (dropStar (trimStart rest))) :=
      ((goesOn_trimStart rest).trans (goesOn_dropStar _)).trans (goesOn_trimStart _)
    cases hname : identifier? (trimStart (dropStar (trimStart rest))) with
    | none =>
      rw [hname] at h
      cases h
      exact absurd rfl hne
    | some found =>
      obtain ⟨name, behind⟩ := found
      rw [hname] at h
      cases h
      rcases hgoes with heq | ⟨u, c, heq, hc⟩
      · -- the name follows the word at once, so it starts with a dollar sign
        rw [heq] at hname
        have hapart := beginsApart_of_identifier? hname
        obtain ⟨hidentifier, rfl⟩ := isIdentifier_of_identifier? hname
        cases name with
        | nil => exact hidentifier.elim
        | cons c name =>
          obtain rfl : c = '$' := eq_dollar_of_isIdentifierStart hidentifier.1 hword
          refine located_of_name rfl ?_ (.inr (.function (u := p) isAsync hapart))
          rw [List.append_assoc]
      · refine located_of_identifier? ⟨p ++ ("function".toList ++ u ++ [c]), ?_, ?_⟩ hname rfl
        · conv_lhs => rw [heq]
          simp
        · rw [← List.append_assoc]
          exact endsApart_append_singleton hc _

/-- A path with a character in front that starts an identifier is a path. -/
theorem assignmentHere?_cons {c : Char} (hc : isIdentifierStart c = true)
    (h : (assignmentHere? s).isSome = true) : (assignmentHere? (c :: s)).isSome = true := by
  rw [assignmentHere?_isSome_iff] at h ⊢
  obtain ⟨path, g, k, f, rfl, hpath, hg, hk, hf⟩ := h
  exact ⟨c :: path, g, k, f, rfl, ⟨hc, hpath.isPathPart⟩, hg, hk, hf⟩

/-- The first path to which a function is assigned starts at its first character that can start an
identifier. -/
theorem exists_of_assignment? {path : List Char} {isAsync : Bool}
    (h : assignment? s = some (path, isAsync)) :
    ∃ u t, s = u ++ t ∧ assignmentHere? t = some (path, isAsync) ∧
      ∀ c, u.getLast? = some c → isIdentifierStart c = false := by
  induction s with
  | nil => cases h
  | cons c s ih =>
    rw [assignment?] at h
    cases hhere : assignmentHere? (c :: s) with
    | some a =>
      rw [hhere] at h
      cases h
      exact ⟨[], c :: s, rfl, hhere, fun _ hd => by cases hd⟩
    | none =>
      rw [hhere] at h
      obtain ⟨u, t, rfl, ht, hu⟩ := ih h
      refine ⟨c :: u, t, rfl, ht, ?_⟩
      cases u with
      | cons d u => rwa [List.getLast?_cons_cons]
      | nil =>
        intro d hd
        obtain rfl : c = d := Option.some.inj hd
        cases hc : isIdentifierStart c with
        | false => rfl
        | true =>
          have hsome := assignmentHere?_cons hc (Option.isSome_of_eq_some ht)
          rw [List.nil_append] at hhere
          rw [hhere] at hsome
          cases hsome

/-- The path is read to its end. -/
theorem exists_of_assignmentHere? {path : List Char} {isAsync : Bool}
    (h : assignmentHere? s = some (path, isAsync)) : ∃ v, s = path ++ v ∧ BeginsApart v := by
  cases s with
  | nil => cases h
  | cons c t =>
    rw [assignmentHere?] at h
    split at h
    · split at h
      · cases h
      · obtain ⟨m, -, heq⟩ := Option.map_eq_some_iff.mp h
        cases heq
        refine ⟨t.dropWhile isPathPart, ?_, fun d hd => ?_⟩
        · rw [List.cons_append, List.takeWhile_append_dropWhile]
        · have hnot := List.head?_dropWhile_not isPathPart t
          rw [hd] at hnot
          exact isIdentifierPart_of_isPathPart (by simpa using hnot)
    · cases h

/-- A path is a word of its own unless a character stands before it that is in a word and starts
none. -/
theorem located_of_assignedDeclaration? (h : assignedDeclaration? s = some d) : Located s d := by
  obtain ⟨⟨path, isAsync⟩, ha, rfl⟩ := Option.map_eq_some_iff.mp h
  obtain ⟨u, t, rfl, ht, hu⟩ := exists_of_assignment? ha
  obtain ⟨v, rfl, hv⟩ := exists_of_assignmentHere? ht
  rcases List.eq_nil_or_concat u with rfl | ⟨u, c, rfl⟩
  · exact located_of_name rfl rfl (.inl ⟨endsApart_nil, hv⟩)
  · rw [List.concat_eq_append] at hu ⊢
    cases hc : isIdentifierPart c with
    | false => exact located_of_name rfl rfl (.inl ⟨endsApart_append_singleton hc u, hv⟩)
    | true =>
      have hstart := hu c List.getLast?_concat
      exact located_of_name rfl rfl (.inr (.assigned isAsync hc hstart hv))

theorem located_of_initializerDeclaration? (h : initializerDeclaration? s = some d) :
    Located s d := by
  rw [initializerDeclaration?] at h
  split at h
  · cases h
  · rename_i rest hrest
    split at h
    · rename_i hparen
      cases h
      have hs : s = "constructor".toList ++ rest := Text.eq_append_of_isPrefixOf? hrest
      refine located_of_name (u := []) rfl hs (.inl ⟨endsApart_nil, ?_⟩)
      · intro c hc
        cases hb : isBlank c with
        | true => exact isIdentifierPart_of_isPathPart (isPathPart_of_isBlank hb)
        | false =>
          obtain ⟨t, rfl⟩ := List.head?_eq_some_iff.mp hc
          rw [Text.trimStart_cons_of_not_blank hb] at hparen
          cases hparen
          decide
    · cases h

theorem located_of_arrowDeclaration? (h : arrowDeclaration? s = some d) : Located s d := by
  obtain ⟨-, name, rest, isAsync, hname, rfl⟩ := exists_of_arrowDeclaration? h
  exact located_of_identifier? (.refl s) hname rfl

/-- The name of a method is a word of its own unless it has given up its last character. -/
theorem located_of_methodDeclaration? (h : methodDeclaration? s = some d) : Located s d := by
  obtain ⟨⟨isStatic, isAsync, t⟩, hp, name, hname, rfl⟩ := exists_of_methodDeclaration? h
  have hst : StartsApart s t := methodPrefixes_startsApart hp
  rw [methodName?] at hname
  split at hname
  · cases hname
  · rename_i word rest hword
    split at hname
    · cases hname
      exact located_of_identifier? hst hword rfl
    · rename_i hclose
      split at hname
      · rename_i hdirect
        cases hname
        simp only [Bool.and_eq_true, decide_eq_true_eq] at hdirect
        obtain ⟨v, rfl⟩ := List.head?_eq_some_iff.mp hdirect.1
        obtain ⟨hidentifier, rfl⟩ := isIdentifier_of_identifier? hword
        have hne : word ≠ [] := List.ne_nil_of_length_pos (by omega)
        obtain ⟨u, rfl, hu⟩ := hst
        have hlast := hidentifier.isIdentifierPart _ (List.getLast_mem hne)
        refine located_of_name rfl ?_ (.inr (.method isStatic isAsync hu hlast hclose))
        conv_lhs => rw [← List.dropLast_concat_getLast hne]
        rw [List.append_assoc]
        rfl
      · cases hname

theorem located_of_propertyDeclaration? (h : propertyDeclaration? s = some d) : Located s d := by
  rw [propertyDeclaration?] at h
  split at h
  · cases h
  · rename_i rest hrest
    obtain ⟨found, hfound, rfl⟩ := Option.map_eq_some_iff.mp h
    obtain ⟨name, behind⟩ := found
    obtain ⟨-, rfl⟩ := isIdentifier_of_identifier? hfound
    have hs : s = ("this.".toList ++ name) ++ behind := by
      rw [List.append_assoc]
      exact Text.eq_append_of_isPrefixOf? hrest
    exact located_of_name (u := []) rfl hs
      (.inl ⟨endsApart_nil, beginsApart_of_identifier? hfound⟩)

end

/-- The name of a declaration stands in the code as a word of its own unless it is cut out of a
longer one. -/
theorem located_ofCode (code : List Char) (hname : (Declaration.ofCode code).name ≠ "") :
    Located (trim code) (Declaration.ofCode code) := by
  rw [Declaration.ofCode] at hname ⊢
  cases hread : shapes.findSome? (· (trim code)) with
  | none =>
    rw [hread] at hname
    exact absurd rfl hname
  | some d =>
    rw [hread] at hname
    obtain ⟨shape, hshape, hd⟩ := List.exists_of_findSome?_eq_some hread
    simp only [shapes, List.mem_cons, List.not_mem_nil, or_false] at hshape
    rcases hshape with rfl | rfl | rfl | rfl | rfl | rfl | rfl
    · exact located_of_classDeclaration? hd
    · exact located_of_functionDeclaration? hd hname
    · exact located_of_assignedDeclaration? hd
    · exact located_of_initializerDeclaration? hd
    · exact located_of_arrowDeclaration? hd
    · exact located_of_methodDeclaration? hd
    · exact located_of_propertyDeclaration? hd

/-! ### Names that give up their last character -/

/-- A first word is no modifier if a mark directly follows it. -/
theorem methodPrefixes_mark (n : Name) {c : Char} (hc : isBlank c = false)
    (hpart : isPathPart c = false) (t : List Char) :
    methodPrefixes (n.text ++ c :: t) = [(false, false, n.text ++ c :: t)] := by
  have hword : ∀ word : String, IsIdentifier word.toList →
      spacedWord? word (n.text ++ c :: t) = none := by
    intro word hk
    have hread := spacedWord?_word (g := []) (t := t) n.isPathPart rfl hc (fun _ => hpart) hk
    rwa [if_neg fun h => h.2 rfl] at hread
  simp only [methodPrefixes, optionalWord, hword "static" (by decide), hword "async" (by decide),
    hword "get" (by decide), hword "set" (by decide), List.flatMap_cons, List.flatMap_nil,
    List.filterMap_cons, List.filterMap_nil, List.nil_append, List.append_nil, List.map_cons,
    List.map_nil]

section
variable (n : Name)

/-- A name gives up its last character if a closing parenthesis follows it and no other does. -/
theorem methodName?_closed (hlength : 2 ≤ n.text.length) :
    methodName? (n.text ++ [')']) = some n.text.dropLast := by
  have hread : identifier? (n.text ++ [')']) = some (n.text, [')']) :=
    identifier?_word (g := []) (t := []) n.isIdentifier rfl fun _ => by decide
  rw [methodName?, hread]
  simp [hlength]

theorem memberDeclaration?_closed (hlength : 2 ≤ n.text.length)
    (hstatement : String.ofList n.text.dropLast ∉ statementWords) :
    memberDeclaration? (n.text ++ [')']) =
      some (callable n.text.dropLast (.method false) false (n.text ++ [')'])) := by
  have hblank : isBlank ')' = false := by decide
  have hpart : isPathPart ')' = false := by decide
  have hinitializer : initializerDeclaration? (n.text ++ [')']) = none := by
    have hread := initializerDeclaration?_word (g := []) (t := []) rfl hblank (fun _ => hpart)
      n.isPathPart
    rwa [if_neg fun h => absurd h.2 (by decide)] at hread
  have harrow : arrowDeclaration? (n.text ++ [')']) = none :=
    arrowDeclaration?_eq_none (g := []) (t := []) rfl hblank (fun _ => hpart) n.isIdentifier
      (by decide)
  have hmethod : methodDeclaration? (n.text ++ [')']) =
      some (callable n.text.dropLast (.method false) false (n.text ++ [')'])) := by
    simp only [methodDeclaration?, methodPrefixes_mark n hblank hpart, List.findSome?_singleton,
      methodName?_closed n hlength, Option.map_some, if_neg hstatement]
  simp only [memberDeclaration?, List.findSome?_cons, hinitializer, harrow, hmethod]

/-- An identifier with a closing parenthesis behind it and nothing else is a method without its last
character, unless what is left is a word of a statement. -/
theorem ofCode_closed (hlength : 2 ≤ n.text.length)
    (hstatement : String.ofList n.text.dropLast ∉ statementWords)
    (hfunction : ¬ StartsFunctionWord n.text) :
    Declaration.ofCode (n.text ++ [')']) =
      callable n.text.dropLast (.method false) false (n.text ++ [')']) := by
  have htrim : trim (n.text ++ [')']) = n.text ++ [')'] := n.trim_append [')']
  have hunannounced : Unannounced (afterExport (n.text ++ [')'])) :=
    unannounced_afterExport_mark (g := []) n.isPathPart rfl (by decide) (by decide) hfunction
  have hassign : ¬ Assigns IsPath (n.text ++ [')']) :=
    not_assigns_of_not_mem
      (by simp [mark_not_mem_word n.isIdentifier (by decide : isPathPart '=' = false)])
  rw [← htrim] at hunannounced hassign
  rw [ofCode_of_unannounced hunannounced hassign, htrim,
    memberDeclaration?_closed n hlength hstatement, Option.getD_some]

/-- Without its last character the identifier is no word of the text. -/
theorem not_isWhole_dropLast (hlength : 2 ≤ n.text.length) :
    ¬ IsWhole (n.text ++ [')']) n.text.dropLast := by
  have hpart := n.isIdentifier.isIdentifierPart
  have hne : n.text ≠ [] := by
    intro hnil
    simp [hnil] at hlength
  have hsplit := List.dropLast_concat_getLast hne
  rintro ⟨u, v, heq, hu, hv⟩
  rcases List.eq_nil_or_concat u with rfl | ⟨t, e, hconcat⟩
  · -- at the front of the text the last character stands behind it
    have hrest : v = [n.text.getLast hne] ++ [')'] := by
      have hend : n.text.dropLast ++ ([n.text.getLast hne] ++ [')']) = n.text.dropLast ++ v := by
        rw [← List.append_assoc, hsplit]
        exact heq
      exact (List.append_cancel_left hend).symm
    have hlast := hv (n.text.getLast hne) (by rw [hrest]; rfl)
    rw [hpart _ (List.getLast_mem hne)] at hlast
    cases hlast
  · -- there is no room for it behind the whole identifier, so a character of that is before it
    rw [List.concat_eq_append] at hconcat
    have hlengths := congrArg List.length heq
    simp only [List.length_append, List.length_dropLast, List.length_singleton] at hlengths
    have hfront : u <+: n.text :=
      List.prefix_of_prefix_length_le ⟨_, heq.symm⟩ (List.prefix_append _ _) (by omega)
    have he : isIdentifierPart e = true := hpart e (hfront.subset (by simp [hconcat]))
    have hapart := hu e (by simp [hconcat])
    rw [he] at hapart
    cases hapart

end

/-- The name of a declaration stands in the code as a word of its own unless it is cut out of a
longer one in one of three ways. The first of these is that of every identifier of at least two
characters that nothing but a closing parenthesis follows, as one does that stands last among
arguments, unless it starts with the word for a function or what is left is a word of a
statement. -/
theorem name_isWhole_or_torn (code : List Char) (hname : (Declaration.ofCode code).name ≠ "") :
    Located (trim code) (Declaration.ofCode code) ∧
      ∀ n : Name, code = n.text ++ [')'] → 2 ≤ n.text.length →
        String.ofList n.text.dropLast ∉ statementWords → ¬ StartsFunctionWord n.text →
          ¬ IsWhole (trim code) (Declaration.ofCode code).name.toList := by
  refine ⟨located_ofCode code hname, fun n hcode hlength hstatement hfunction => ?_⟩
  have hclosed : (Declaration.ofCode code).name.toList = n.text.dropLast := by
    rw [hcode, ofCode_closed n hlength hstatement hfunction]
    exact String.toList_ofList
  have htrim : trim code = n.text ++ [')'] := by
    rw [hcode]
    exact n.trim_append [')']
  rw [hclosed, htrim]
  exact not_isWhole_dropLast n hlength

/-- An argument that stands last. -/
theorem name_isWhole_or_torn_callback :
    Located (trim "callback)".toList) (Declaration.ofCode "callback)".toList) ∧
      ¬ IsWhole (trim "callback)".toList) (Declaration.ofCode "callback)".toList).name.toList := by
  have hfunction : ¬ StartsFunctionWord "callback".toList :=
    not_startsFunctionWord_of_isPrefixOf (by decide)
  let n : Name := ⟨"callback".toList, by decide +kernel⟩
  obtain ⟨hlocated, hnot⟩ := name_isWhole_or_torn "callback)".toList (by decide +kernel)
  exact ⟨hlocated, hnot n rfl (by decide) (by decide +kernel) hfunction⟩

/-- All three ways to cut out a name: at its end, behind the word for a function, and behind a
digit. -/
theorem not_isWhole_callback :
    ((Declaration.ofCode "callback)".toList).name = "callbac" ∧
      ¬ IsWhole (trim "callback)".toList) "callbac".toList) ∧
    ((Declaration.ofCode "function$of(a)".toList).name = "$of" ∧
      ¬ IsWhole (trim "function$of(a)".toList) "$of".toList) ∧
    (Declaration.ofCode "2x = function()".toList).name = "x" ∧
      ¬ IsWhole (trim "2x = function()".toList) "x".toList := by
  decide +kernel

end DocComments.Signature
