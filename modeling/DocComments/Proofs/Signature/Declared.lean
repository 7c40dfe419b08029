import DocComments.Proofs.Signature.Assignment

/-!
# What a declaration that was read can be

Code is compared with seven shapes, but what is read from it is one of few things: nothing at all,
a class or a property of the object at hand with a name and no more, or a function whose arguments
are those of the whole code. Names stand in the code as they are. All that is told of a declaration
besides goes together as its kind asks for; whether the code is meant that way is not said.
-/

namespace DocComments.Signature
open Text (trim trimStart trimEnd isBlankText)
open Unicode (isBlank)

theorem IsIdentifier.head?_of_prefix {name s : List Char} (h : IsIdentifier name)
    (hp : name <+: s) : name.head? = s.head? := by
  obtain ⟨rest, rfl⟩ := hp
  cases name with
  | nil => exact h.elim
  | cons c t => rfl

theorem IsIdentifier.dropLast {name : List Char} (h : IsIdentifier name) (hlen : 2 ≤ name.length) :
    IsIdentifier name.dropLast := by
  cases name with
  | nil => exact h.elim
  | cons c t =>
    cases t with
    | nil => exact absurd hlen (by simp)
    | cons d t => exact ⟨h.1, fun e he => h.2 e (List.dropLast_subset _ he)⟩

/-! ### The readers leave an end of the text -/

/-- A text does not end within a word. -/
def EndsApart (s : List Char) : Prop :=
  ∀ c, s.getLast? = some c → isIdentifierPart c = false

/-- A text ends with another one, which does not start within a word. -/
def StartsApart (s t : List Char) : Prop :=
  ∃ u, s = u ++ t ∧ EndsApart u

section
variable {s t r : List Char}

theorem endsApart_nil : EndsApart [] :=
  fun _ hc => by cases hc

theorem endsApart_append_singleton {c : Char} (hc : isIdentifierPart c = false) (s : List Char) :
    EndsApart (s ++ [c]) := by
  intro d hd
  rw [List.getLast?_concat] at hd
  exact Option.some.inj hd ▸ hc

theorem StartsApart.refl (s : List Char) : StartsApart s s :=
  ⟨[], rfl, endsApart_nil⟩

theorem StartsApart.suffix (h : StartsApart s t) : t <:+ s := by
  obtain ⟨u, rfl, -⟩ := h
  exact List.suffix_append u t

theorem StartsApart.trans (h : StartsApart s t) (h' : StartsApart t r) : StartsApart s r := by
  obtain ⟨u, rfl, hu⟩ := h
  obtain ⟨v, rfl, hv⟩ := h'
  refine ⟨u ++ v, (List.append_assoc u v r).symm, ?_⟩
  rcases List.eq_nil_or_concat v with rfl | ⟨v, c, rfl⟩
  · rwa [List.append_nil]
  · rw [List.concat_eq_append] at hv ⊢
    rw [← List.append_assoc]
    exact endsApart_append_singleton (hv c List.getLast?_concat) (u ++ v)

/-- Behind blanks a text does not start within a word. -/
theorem startsApart_of_blanks {g : List Char} (hg : isBlankText g = true) (hne : g ≠ [])
    (s t : List Char) : StartsApart (s ++ (g ++ t)) t := by
  obtain ⟨l, b, rfl⟩ := (List.eq_nil_or_concat g).resolve_left hne
  rw [List.concat_eq_append] at hg ⊢
  have hb : isBlank b = true := List.all_eq_true.mp hg b (by simp)
  refine ⟨s ++ l ++ [b], by simp, ?_⟩
  exact endsApart_append_singleton (isIdentifierPart_of_isPathPart (isPathPart_of_isBlank hb)) _

theorem spacedWord?_startsApart {word : String} (h : spacedWord? word s = some t) :
    StartsApart s t := by
  obtain ⟨r, rfl, hblank, rfl⟩ := exists_of_spacedWord? h
  cases r with
  | nil => cases hblank
  | cons b r =>
    have hb : isBlank b = true := hblank
    have hstart : trimStart (b :: r) = trimStart r := by
      rw [trimStart, List.dropWhile_cons_of_pos hb, ← trimStart]
    have hsplit : b :: r = (b :: r.takeWhile isBlank) ++ trimStart r := by
      rw [List.cons_append, trimStart, List.takeWhile_append_dropWhile]
    have hblanks : isBlankText (b :: r.takeWhile isBlank) = true := by
      rw [isBlankText, List.all_cons, hb, Bool.true_and]
      exact List.all_takeWhile
    rw [hstart, hsplit]
    exact startsApart_of_blanks hblanks (List.cons_ne_nil _ _) word.toList (trimStart r)

theorem afterExport_startsApart (s : List Char) : StartsApart s (afterExport s) := by
  rw [afterExport]
  split
  · rename_i rest hrest
    have hexport := spacedWord?_startsApart hrest
    cases hdefault : spacedWord? "default" rest with
    | none => exact hexport
    | some t => exact hexport.trans (spacedWord?_startsApart hdefault)
  · exact .refl s

theorem asyncMark_startsApart (s : List Char) : StartsApart s (asyncMark s).2 := by
  rw [asyncMark]
  split
  · rename_i t ht
    exact spacedWord?_startsApart ht
  · exact .refl s

theorem optionalWord_startsApart {word : String} {p : Bool × List Char}
    (hp : p ∈ optionalWord word s) : StartsApart s p.2 := by
  unfold optionalWord at hp
  split at hp
  · rename_i t ht
    rcases List.mem_cons.mp hp with rfl | hp
    · exact spacedWord?_startsApart ht
    · exact List.mem_singleton.mp hp ▸ .refl s
  · exact List.mem_singleton.mp hp ▸ .refl s

theorem methodPrefixes_startsApart {p : Bool × Bool × List Char} (hp : p ∈ methodPrefixes s) :
    StartsApart s p.2.2 := by
  obtain ⟨x, hx, hp⟩ := List.mem_flatMap.mp hp
  obtain ⟨y, hy, hp⟩ := List.mem_flatMap.mp hp
  obtain ⟨t, ht, rfl⟩ := List.mem_map.mp hp
  have hapart : StartsApart s y.2 :=
    (optionalWord_startsApart hx).trans (optionalWord_startsApart hy)
  rcases List.mem_append.mp ht with ht | ht
  · obtain ⟨word, -, hword⟩ := List.mem_filterMap.mp ht
    exact hapart.trans (spacedWord?_startsApart hword)
  · rw [List.mem_singleton.mp ht]
    exact hapart

end

theorem spacedWord?_suffix {word : String} {s t : List Char} (h : spacedWord? word s = some t) :
    t <:+ s :=
  (spacedWord?_startsApart h).suffix

theorem afterExport_suffix (s : List Char) : afterExport s <:+ s :=
  (afterExport_startsApart s).suffix

theorem asyncMark_suffix (s : List Char) : (asyncMark s).2 <:+ s :=
  (asyncMark_startsApart s).suffix

theorem functionWord?_suffix {s rest : List Char} {isAsync : Bool}
    (h : functionWord? s = some (isAsync, rest)) : rest <:+ s := by
  have hsuffix := asyncMark_suffix s
  rw [(functionWord?_eq_some_iff.mp h).1] at hsuffix
  exact (List.suffix_append _ _).trans hsuffix

theorem mark?_suffix {s r : List Char} {c : Char} (h : mark? c s = some r) : r <:+ s := by
  obtain ⟨g, t, -, rfl, rfl⟩ := exists_of_mark? h
  exact (Text.trimStart_suffix t).trans
    ((List.suffix_cons c t).trans (List.suffix_append g (c :: t)))

theorem dropStar_suffix (s : List Char) : dropStar s <:+ s := by
  unfold dropStar
  split
  · exact List.suffix_cons _ _
  · exact List.suffix_rfl

theorem methodPrefixes_suffix {s : List Char} {p : Bool × Bool × List Char}
    (hp : p ∈ methodPrefixes s) : p.2.2 <:+ s :=
  (methodPrefixes_startsApart hp).suffix

/-! ### What the shapes of members read -/

/-- A closing parenthesis behind an arrow function is one of the text. -/
theorem mem_of_closesArrow {s : List Char} (h : closesArrow s = true) : ')' ∈ s := by
  induction s with
  | nil => cases h
  | cons c s ih =>
    rw [closesArrow, Bool.or_eq_true, Bool.and_eq_true, beq_iff_eq] at h
    rcases h with ⟨rfl, -⟩ | h
    · exact List.mem_cons_self
    · exact List.mem_cons_of_mem c (ih h)

/-- An arrow function is a method whose name the text starts with, and its parenthesis is closed. -/
theorem exists_of_arrowDeclaration? {s : List Char} {d : Declaration}
    (h : arrowDeclaration? s = some d) :
    ')' ∈ s ∧ ∃ name rest isAsync, identifier? s = some (name, rest) ∧
      d = callable name (.method false) isAsync s := by
  rw [arrowDeclaration?] at h
  split at h
  · cases h
  · rename_i name rest hname
    have hrest : rest <:+ s := ⟨name, (isIdentifier_of_identifier? hname).2⟩
    split at h
    · cases h
    · rename_i r hmark
      have hsuffix := (asyncMark_suffix r).trans ((mark?_suffix hmark).trans hrest)
      generalize hasync : asyncMark r = m at h hsuffix
      obtain ⟨isAsync, t⟩ := m
      simp only at h hsuffix
      split at h
      · rename_i inside
        split at h
        · rename_i hclose
          exact ⟨hsuffix.mem (List.mem_cons_of_mem _ (mem_of_closesArrow hclose)), name, rest,
            isAsync, hname, (Option.some.inj h).symm⟩
        · cases h
      · cases h

/-- The name of a method is in front of its text, in which a parenthesis is closed. -/
theorem mem_of_methodName? {s name : List Char} (h : methodName? s = some name) :
    ')' ∈ s ∧ IsIdentifier name ∧ name <+: s := by
  rw [methodName?] at h
  split at h
  · cases h
  · rename_i word rest hword
    obtain ⟨hidentifier, hsplit⟩ := isIdentifier_of_identifier? hword
    have hrest : rest <:+ s := ⟨word, hsplit⟩
    have hprefix : word <+: s := ⟨rest, hsplit⟩
    split at h
    · rename_i hclose
      cases h
      exact ⟨hrest.mem (List.mem_of_mem_tail hclose), hidentifier, hprefix⟩
    · split at h
      · rename_i hclose
        simp only [Bool.and_eq_true, decide_eq_true_eq] at hclose
        obtain ⟨hparen, hlength⟩ := hclose
        cases h
        exact ⟨hrest.mem (List.mem_of_mem_head? (by rw [hparen]; exact rfl)),
          hidentifier.dropLast hlength, (List.dropLast_prefix word).trans hprefix⟩
      · cases h

/-- A method in short form has a name that one of the ways to read its first words leaves. -/
theorem exists_of_methodDeclaration? {s : List Char} {d : Declaration}
    (h : methodDeclaration? s = some d) :
    ∃ p ∈ methodPrefixes s, ∃ name, methodName? p.2.2 = some name ∧
      d = callable name (.method p.1) p.2.1 s := by
  rw [methodDeclaration?] at h
  simp only at h
  split at h
  · cases h
  · rename_i isStatic isAsync name hfound
    obtain ⟨p, hp, hname⟩ := List.exists_of_findSome?_eq_some hfound
    obtain ⟨n, hn, heq⟩ := Option.map_eq_some_iff.mp hname
    cases heq
    split at h
    · cases h
    · exact ⟨p, hp, _, hn, (Option.some.inj h).symm⟩

/-! ### What can be read -/

/-- A text holds a path as it is. -/
structure Holds (s path : List Char) : Prop where
  isPath : IsPath path
  isInfix : path <:+: s

theorem Holds.ne_nil {s path : List Char} (h : Holds s path) : path ≠ [] := by
  rintro rfl
  exact h.isPath

theorem holds_of_identifier? {s t name rest : List Char} (h : identifier? t = some (name, rest))
    (ht : t <:+ s) : Holds s name := by
  obtain ⟨hname, hsplit⟩ := isIdentifier_of_identifier? h
  exact ⟨hname.isPath, (List.IsPrefix.isInfix ⟨rest, hsplit⟩).trans ht.isInfix⟩

theorem holds_of_assignment? {s path : List Char} {isAsync : Bool}
    (h : assignment? s = some (path, isAsync)) : Holds s path := by
  induction s with
  | nil => cases h
  | cons c s ih =>
    rw [assignment?] at h
    split at h
    · rename_i a hhere
      cases h
      rw [assignmentHere?] at hhere
      split at hhere
      · rename_i hc
        split at hhere
        · cases hhere
        · obtain ⟨m, -, heq⟩ := Option.map_eq_some_iff.mp hhere
          cases heq
          refine ⟨⟨hc, fun d hd => List.all_eq_true.mp List.all_takeWhile d hd⟩, ?_⟩
          exact (List.prefix_cons_inj c).mpr (List.takeWhile_prefix _) |>.isInfix
      · cases hhere
    · obtain ⟨hpath, hinfix⟩ := ih h
      exact ⟨hpath, hinfix.trans (List.suffix_cons c s).isInfix⟩

/-- What can be read from a code. Only a function that is declared by its own word may be without a
name. -/
inductive Declared (s : List Char) : Declaration → Prop
  | nothing : Declared s {}
  | classHead {name : List Char} (h : Holds s name) :
      Declared s { name := String.ofList name, construct := .classHead }
  | property {name : List Char} (h : Holds s ("this.".toList ++ name)) :
      Declared s { name := String.ofList ("this.".toList ++ name), construct := .property }
  | anonymous (isAsync : Bool) : Declared s (callable [] .plain isAsync s)
  | named {name : List Char} (role : Role) (isAsync : Bool) (h : Holds s name) :
      Declared s (callable name role isAsync s)

section
variable {s : List Char} {d : Declaration}

theorem declared_of_classDeclaration? (h : classDeclaration? s = some d) : Declared s d := by
  rw [classDeclaration?] at h
  split at h
  · cases h
  · rename_i rest hrest
    split at h
    · cases h
    · rename_i name behind hname
      split at h <;> cases h
      exact .classHead
        (holds_of_identifier? hname ((spacedWord?_suffix hrest).trans (afterExport_suffix s)))

theorem declared_of_functionDeclaration? (h : functionDeclaration? s = some d) : Declared s d := by
  rw [functionDeclaration?] at h
  split at h
  · cases h
  · rename_i isAsync rest hrest
    have hsuffix : trimStart (dropStar (trimStart rest)) <:+ s :=
      (Text.trimStart_suffix _).trans <| (dropStar_suffix _).trans <|
        (Text.trimStart_suffix rest).trans <| (functionWord?_suffix hrest).trans <|
          afterExport_suffix s
    cases hname : identifier? (trimStart (dropStar (trimStart rest))) with
    | none =>
      rw [hname] at h
      cases h
      exact .anonymous isAsync
    | some found =>
      rw [hname] at h
      cases h
      exact .named .plain isAsync (holds_of_identifier? hname hsuffix)

theorem declared_of_assignedDeclaration? (h : assignedDeclaration? s = some d) : Declared s d := by
  obtain ⟨a, ha, rfl⟩ := Option.map_eq_some_iff.mp h
  exact .named .assigned a.2 (holds_of_assignment? ha)

theorem declared_of_initializerDeclaration? (h : initializerDeclaration? s = some d) :
    Declared s d := by
  rw [initializerDeclaration?] at h
  split at h
  · cases h
  · rename_i rest hrest
    split at h <;> cases h
    refine .named .initializer false ⟨by decide, ?_⟩
    exact List.IsPrefix.isInfix ⟨rest, (Text.eq_append_of_isPrefixOf? hrest).symm⟩

theorem declared_of_arrowDeclaration? (h : arrowDeclaration? s = some d) : Declared s d := by
  obtain ⟨-, name, rest, isAsync, hname, rfl⟩ := exists_of_arrowDeclaration? h
  exact .named _ isAsync (holds_of_identifier? hname List.suffix_rfl)

theorem declared_of_methodDeclaration? (h : methodDeclaration? s = some d) : Declared s d := by
  obtain ⟨p, hp, name, hname, rfl⟩ := exists_of_methodDeclaration? h
  obtain ⟨-, hidentifier, hprefix⟩ := mem_of_methodName? hname
  exact .named _ _ ⟨hidentifier.isPath, hprefix.isInfix.trans (methodPrefixes_suffix hp).isInfix⟩

theorem declared_of_propertyDeclaration? (h : propertyDeclaration? s = some d) : Declared s d := by
  rw [propertyDeclaration?] at h
  split at h
  · cases h
  · rename_i rest hrest
    obtain ⟨found, hfound, rfl⟩ := Option.map_eq_some_iff.mp h
    obtain ⟨name, behind⟩ := found
    obtain ⟨hname, rfl⟩ := isIdentifier_of_identifier? hfound
    have hs : s = "this.".toList ++ (name ++ behind) := Text.eq_append_of_isPrefixOf? hrest
    refine .property ⟨⟨by decide, ?_⟩, ?_⟩
    · intro c hc
      rcases List.mem_append.mp (show c ∈ "his.".toList ++ name from hc) with hc | hc
      · exact List.all_eq_true.mp (by decide : "his.".toList.all isPathPart = true) c hc
      · exact hname.isPath.isPathPart c hc
    · rw [hs, ← List.append_assoc]
      exact (List.prefix_append _ _).isInfix

end

/-- Each of the shapes reads one of these. -/
theorem declared_ofCode (code : List Char) : Declared (trim code) (Declaration.ofCode code) := by
  rw [Declaration.ofCode]
  cases hread : shapes.findSome? (· (trim code)) with
  | none => exact .nothing
  | some d =>
    obtain ⟨shape, hshape, hd⟩ := List.exists_of_findSome?_eq_some hread
    simp only [shapes, List.mem_cons, List.not_mem_nil, or_false] at hshape
    rcases hshape with rfl | rfl | rfl | rfl | rfl | rfl | rfl
    · exact declared_of_classDeclaration? hd
    · exact declared_of_functionDeclaration? hd
    · exact declared_of_assignedDeclaration? hd
    · exact declared_of_initializerDeclaration? hd
    · exact declared_of_arrowDeclaration? hd
    · exact declared_of_methodDeclaration? hd
    · exact declared_of_propertyDeclaration? hd

end DocComments.Signature
