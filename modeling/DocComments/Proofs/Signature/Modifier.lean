import DocComments.Proofs.Signature.Words

/-!
# Modifiers of methods

The words that may stand before the name of a method are read as they are written, also where the
name is itself one of them: such a word is taken for a modifier only if a name follows it.
-/

namespace DocComments.Signature
open Text (trim trimStart trimEnd isBlankText)
open Unicode (isBlank)

/-- Blanks, perhaps none. -/
structure Gap where
  text : List Char
  blank : isBlankText text = true

/-- Blanks, at least one. -/
structure Space extends Gap where
  ne_nil : text ≠ []

/-- An identifier. -/
structure Name where
  text : List Char
  isIdentifier : IsIdentifier text

/-- A word that may be missing, with the blanks behind it. -/
def optional (word : String) : Option Space → List Char
  | none => []
  | some g => word.toList ++ g.text

/-- The two sorts of accessor. -/
inductive Accessor
  | getter
  | setter

/-- The word for an accessor. -/
def Accessor.word : Accessor → String
  | getter => "get"
  | setter => "set"

/-- The words in front of the name of a method. -/
structure Modifiers where
  static : Option Space := none
  async : Option Space := none
  accessor : Option (Accessor × Space) := none

namespace Modifiers

/-- The word for an accessor, if there is one, with the blanks behind it. -/
def accessorText (m : Modifiers) : List Char :=
  match m.accessor with
  | none => []
  | some (a, g) => a.word.toList ++ g.text

/-- The modifiers as they are written in front of a text. -/
def before (m : Modifiers) (s : List Char) : List Char :=
  optional "static" m.static ++ (optional "async" m.async ++ (m.accessorText ++ s))

/-- Whether there are no modifiers. -/
def isEmpty (m : Modifiers) : Bool :=
  m.static.isNone && m.async.isNone && m.accessor.isNone

theorem before_of_isEmpty {m : Modifiers} (h : m.isEmpty = true) (s : List Char) :
    m.before s = s := by
  obtain ⟨_ | _, _ | _, _ | _⟩ := m <;> first | rfl | cases h

end Modifiers

/-- A text that starts with one of some words, blanks and another word, or with a name and a
mark. -/
inductive Opening (words : List String) : List Char → Prop
  | word {word : String} (hword : word ∈ words) (g : Space) {c : Char} (t : List Char)
      (hc : isIdentifierStart c = true) : Opening words (word.toList ++ (g.text ++ c :: t))
  | name (n : Name) (g : Gap) {c : Char} (t : List Char) (hc : isBlank c = false)
      (hpart : isPathPart c = false) : Opening words (n.text ++ (g.text ++ c :: t))

/-- A text that starts with a mark. -/
def Marked (s : List Char) : Prop :=
  ∃ c t, s = c :: t ∧ isBlank c = false ∧ isPathPart c = false

/-- A text with blanks in front of it, if any, starts with a blank or as it would without them. -/
theorem Gap.head?_append (g : Gap) {s : List Char} {c : Char} (h : (g.text ++ s).head? = some c) :
    isBlank c = true ∨ g.text = [] ∧ s.head? = some c := by
  cases htext : g.text with
  | nil =>
    rw [htext] at h
    exact .inr ⟨rfl, h⟩
  | cons b t =>
    rw [htext] at h
    obtain rfl : b = c := Option.some.inj h
    exact .inl (List.all_eq_true.mp g.blank b (by rw [htext]; exact List.mem_cons_self))

theorem Space.isBlank_of_head?_append (g : Space) {s : List Char} {c : Char}
    (h : (g.text ++ s).head? = some c) : isBlank c = true :=
  (g.head?_append h).resolve_right fun hnil => g.ne_nil hnil.1

theorem Name.isPathPart (n : Name) : ∀ c ∈ n.text, isPathPart c = true :=
  n.isIdentifier.isPath.isPathPart

theorem Name.not_isBlank (n : Name) : ∀ c ∈ n.text, isBlank c = false := fun c hc =>
  not_isBlank_of_isPathPart (n.isPathPart c hc)

theorem Name.ne_nil (n : Name) : n.text ≠ [] := by
  intro h
  have hname := n.isIdentifier
  rw [h] at hname
  exact hname

/-- The last character of a name is no blank. -/
theorem Name.exists_eq_append (n : Name) : ∃ t d, n.text = t ++ [d] ∧ isBlank d = false := by
  obtain ⟨t, d, heq⟩ := (List.eq_nil_or_concat n.text).resolve_left n.ne_nil
  rw [List.concat_eq_append] at heq
  exact ⟨t, d, heq, n.not_isBlank d (by simp [heq])⟩

/-- Only behind an identifier in front of a text is anything trimmed. -/
theorem Name.trim_append (n : Name) (s : List Char) : trim (n.text ++ s) = n.text ++ trimEnd s := by
  obtain ⟨c, t, hcons, hc⟩ := n.isIdentifier.isPath.exists_eq_cons []
  rw [List.append_nil] at hcons
  obtain ⟨l, d, heq, hd⟩ := n.exists_eq_append
  rw [hcons]
  exact Text.trim_append (not_isBlank_of_isIdentifierStart hc) hd (hcons ▸ heq) s

theorem isPathPart_of_word {word : String} (h : IsIdentifier word.toList) :
    ∀ c ∈ word.toList, isPathPart c = true :=
  h.isPath.isPathPart

/-- No word holds a mark, and no blanks do. -/
theorem mark_not_mem_word {w : List Char} (hw : IsIdentifier w) {c : Char}
    (hpart : isPathPart c = false) : c ∉ w := by
  intro hmem
  rw [hw.isPath.isPathPart c hmem] at hpart
  cases hpart

theorem Gap.mark_not_mem (g : Gap) {c : Char} (hblank : isBlank c = false) : c ∉ g.text := by
  intro hmem
  rw [List.all_eq_true.mp g.blank c hmem] at hblank
  cases hblank

theorem mark_not_mem_optional {word : String} (hw : IsIdentifier word.toList) (o : Option Space)
    {c : Char} (hblank : isBlank c = false) (hpart : isPathPart c = false) :
    c ∉ optional word o := by
  cases o with
  | none => exact List.not_mem_nil
  | some g =>
    rw [optional, List.mem_append, not_or]
    exact ⟨mark_not_mem_word hw hpart, g.mark_not_mem hblank⟩

namespace Opening
variable {words : List String} {s : List Char}

theorem mono {others : List String} (hsub : words ⊆ others) (h : Opening words s) :
    Opening others s := by
  cases h with
  | word hword g t hc => exact .word (hsub hword) g t hc
  | name n g t hc hpart => exact .name n g t hc hpart

theorem exists_eq_cons (hwords : ∀ w ∈ words, IsIdentifier w.toList) (h : Opening words s) :
    ∃ c t, s = c :: t ∧ isIdentifierStart c = true := by
  cases h with
  | word hword g t hc => exact (hwords _ hword).isPath.exists_eq_cons _
  | name n g t hc hpart => exact n.isIdentifier.isPath.exists_eq_cons _

theorem trimStart_eq (hwords : ∀ w ∈ words, IsIdentifier w.toList) (h : Opening words s) :
    trimStart s = s := by
  obtain ⟨c, t, rfl, hc⟩ := h.exists_eq_cons hwords
  exact Text.trimStart_cons_of_not_blank (not_isBlank_of_isIdentifierStart hc) t

theorem optional (hwords : ∀ w ∈ words, IsIdentifier w.toList) (h : Opening words s)
    (word : String) (o : Option Space) : Opening (word :: words) (optional word o ++ s) := by
  cases o with
  | none => exact h.mono (List.subset_cons_self word words)
  | some g =>
    obtain ⟨c, t, rfl, hc⟩ := h.exists_eq_cons hwords
    rw [Signature.optional, List.append_assoc]
    exact .word List.mem_cons_self g t hc

/-- A word that the text cannot start with is read only if it is the name, and then a mark is
behind it. -/
theorem marked_of_spacedWord? (hwords : ∀ w ∈ words, IsIdentifier w.toList)
    (h : Opening words s) {k : String} (hk : IsIdentifier k.toList) (hmem : k ∉ words)
    {t : List Char} (hread : spacedWord? k s = some t) : Marked t := by
  cases h with
  | word hword g u hc =>
    rw [spacedWord?_word (isPathPart_of_word (hwords _ hword)) g.blank
      (not_isBlank_of_isIdentifierStart hc) (fun hnil => absurd hnil g.ne_nil) hk] at hread
    split at hread
    · rename_i heq
      exact absurd (String.toList_injective heq.1 ▸ hword) hmem
    · cases hread
  | name n g u hc hpart =>
    rw [spacedWord?_word n.isPathPart g.blank hc (fun _ => hpart) hk] at hread
    split at hread
    · exact ⟨_, u, (Option.some.inj hread).symm, hc, hpart⟩
    · cases hread

end Opening

section
variable {β : Type} (f : Bool × List Char → Option β)

/-- An optional word that is written is read first. -/
theorem findSome?_optionalWord_append {word : String} (g : Space) {t : List Char}
    (ht : trimStart t = t) {b : β} (h : f (true, t) = some b) :
    (optionalWord word (word.toList ++ (g.text ++ t))).findSome? f = some b := by
  rw [optionalWord, spacedWord?_append word g.blank g.ne_nil, ht]
  simp only [List.findSome?_cons, h]

/-- An optional word is not read if it leads nowhere. -/
theorem findSome?_optionalWord_of_none {word : String} {s : List Char}
    (h : ∀ t, spacedWord? word s = some t → f (true, t) = none) :
    (optionalWord word s).findSome? f = f (false, s) := by
  rw [optionalWord]
  split
  · rename_i t ht
    simp only [List.findSome?_cons, h t ht, List.findSome?_nil]
    cases f (false, s) <;> rfl
  · exact List.findSome?_singleton

end

theorem findSome?_flatMap {α β γ : Type} (l : List α) (g : α → List β) (f : β → Option γ) :
    (l.flatMap g).findSome? f = l.findSome? fun a => (g a).findSome? f := by
  induction l with
  | nil => rfl
  | cons a l ih =>
    rw [List.flatMap_cons, List.findSome?_append, ih, List.findSome?_cons]
    cases (g a).findSome? f <;> rfl

/-- The name of a method behind the word for an accessor, which may be missing. -/
def accessorName? (s : List Char) : Option (List Char) :=
  ((["get", "set"].filterMap (spacedWord? · s)) ++ [s]).findSome? methodName?

/-- The name of a method behind the words for an asynchronous one and for an accessor. -/
def asyncName? (s : List Char) : Option (Bool × List Char) :=
  (optionalWord "async" s).findSome? fun p => (accessorName? p.2).map (Prod.mk p.1)

/-- The modifiers are read one after the other. -/
theorem findSome?_methodPrefixes (s : List Char) :
    ((methodPrefixes s).findSome? fun (isStatic, isAsync, rest) =>
        (methodName? rest).map fun name => (isStatic, isAsync, name)) =
      (optionalWord "static" s).findSome? fun p => (asyncName? p.2).map (Prod.mk p.1) := by
  rw [methodPrefixes, findSome?_flatMap]
  congr 1
  funext ⟨isStatic, s⟩
  simp only [findSome?_flatMap, asyncName?, List.map_findSome?]
  congr 1
  funext ⟨isAsync, s⟩
  simp only [List.findSome?_map, Function.comp_apply, accessorName?, List.map_findSome?]
  congr 1
  funext r
  simp only [Function.comp_apply, Option.map_map]
  rfl

theorem methodName?_of_marked {s : List Char} (h : Marked s) : methodName? s = none := by
  obtain ⟨c, t, rfl, -, hpart⟩ := h
  rw [methodName?, identifier?_cons_eq_none (isIdentifierStart_of_isPathPart hpart)]

theorem spacedWord?_of_marked {s : List Char} (h : Marked s) {k : String}
    (hk : IsIdentifier k.toList) : spacedWord? k s = none := by
  obtain ⟨c, t, rfl, hc, hpart⟩ := h
  exact spacedWord?_mark hc hpart hk

theorem accessorName?_of_marked {s : List Char} (h : Marked s) : accessorName? s = none := by
  have hget : spacedWord? "get" s = none := spacedWord?_of_marked h (by decide)
  have hset : spacedWord? "set" s = none := spacedWord?_of_marked h (by decide)
  simp only [accessorName?, List.filterMap_cons, List.filterMap_nil, hget, hset, List.nil_append,
    List.findSome?_singleton, methodName?_of_marked h]

theorem asyncName?_of_marked {s : List Char} (h : Marked s) : asyncName? s = none := by
  rw [asyncName?, findSome?_optionalWord_of_none]
  · simp only [accessorName?_of_marked h, Option.map_none]
  · intro t ht
    rw [spacedWord?_of_marked h (by decide)] at ht
    cases ht

/-- The name of a method is read up to the mark behind it, if a parenthesis is closed later. -/
theorem methodName?_append (n : Name) (g : Gap) {c : Char} {t : List Char}
    (hpart : isPathPart c = false) (ht : ')' ∈ t) :
    methodName? (n.text ++ (g.text ++ c :: t)) = some n.text := by
  have hclose : ')' ∈ (g.text ++ c :: t).tail := by
    cases g.text with
    | nil => exact ht
    | cons b g => simp [ht]
  rw [methodName?, identifier?_word n.isIdentifier g.blank fun _ => hpart]
  simp only [hclose, if_true]

namespace Modifiers
variable (m : Modifiers) (n : Name) (g : Gap) {c : Char} {t : List Char}
  (hc : isBlank c = false) (hpart : isPathPart c = false)
include hc hpart

theorem opening_accessor :
    Opening ["get", "set"] (m.accessorText ++ (n.text ++ (g.text ++ c :: t))) := by
  rw [accessorText]
  split
  · exact .name n g t hc hpart
  · rename_i a h _
    have hname : Opening [] (n.text ++ (g.text ++ c :: t)) := .name n g t hc hpart
    refine (hname.optional (by simp) a.word (some h)).mono ?_
    cases a <;> simp [Accessor.word]

theorem opening_async : Opening ["async", "get", "set"]
    (optional "async" m.async ++ (m.accessorText ++ (n.text ++ (g.text ++ c :: t)))) :=
  (m.opening_accessor n g hc hpart).optional (by decide) "async" m.async

/-- Where there are modifiers the first word is one of them, with another word behind it. That is
the word for a function only if it starts the name. -/
theorem exists_first_word (hempty : m.isEmpty = false) :
    ∃ word ∈ ["static", "async", "get", "set"], ∃ (h : Space) (d : Char) (u : List Char),
      m.before (n.text ++ (g.text ++ c :: t)) = word.toList ++ (h.text ++ d :: u) ∧
        isIdentifierStart d = true ∧ (word = "async" → StartsFunctionWord (d :: u) →
          m.static = none ∧ m.accessor = none ∧ StartsFunctionWord n.text) := by
  have hname : Opening [] (n.text ++ (g.text ++ c :: t)) := .name n g t hc hpart
  obtain ⟨static, async, accessor⟩ := m
  cases static with
  | some h =>
    obtain ⟨d, u, hcons, hd⟩ := (opening_async ⟨none, async, accessor⟩ n g (t := t) hc hpart
      ).exists_eq_cons (by decide)
    refine ⟨"static", by simp, h, d, u, ?_, hd, by simp⟩
    rw [← hcons, before, optional, List.append_assoc]
    rfl
  | none =>
    cases async with
    | some h =>
      obtain ⟨d, u, hcons, hd⟩ := (opening_accessor ⟨none, none, accessor⟩ n g (t := t) hc hpart
        ).exists_eq_cons (by decide)
      refine ⟨"async", by simp, h, d, u, ?_, hd, fun _ hword => ?_⟩
      · rw [← hcons, before, optional, List.nil_append, optional, List.append_assoc]
        rfl
      · rw [← hcons] at hword
        rcases accessor with _ | ⟨_ | _, k⟩
        · exact ⟨rfl, rfl, hword.of_word n.isPathPart g.blank fun _ => hpart⟩
        · obtain ⟨rest, heq, -⟩ := hword
          cases heq
        · obtain ⟨rest, heq, -⟩ := hword
          cases heq
    | none =>
      obtain ⟨d, u, hcons, hd⟩ := hname.exists_eq_cons (by simp)
      rcases accessor with _ | ⟨_ | _, k⟩
      · cases hempty
      · exact ⟨"get", by simp, k, d, u, by rw [← hcons]; exact List.append_assoc _ _ _, hd, by simp⟩
      · exact ⟨"set", by simp, k, d, u, by rw [← hcons]; exact List.append_assoc _ _ _, hd, by simp⟩

variable (ht : ')' ∈ t)
include ht

theorem accessorName?_append :
    accessorName? (m.accessorText ++ (n.text ++ (g.text ++ c :: t))) = some n.text := by
  have hname := methodName?_append n g hpart ht
  have hopening : Opening [] (n.text ++ (g.text ++ c :: t)) := .name n g t hc hpart
  have htrim := hopening.trimStart_eq (by simp)
  rw [accessorText]
  split
  · -- a name that reads like the word for an accessor leaves no name behind it
    have hnone : (["get", "set"].filterMap (spacedWord? · (n.text ++ (g.text ++ c :: t)))).findSome?
        methodName? = none := by
      rw [List.findSome?_eq_none_iff]
      intro r hr
      obtain ⟨k, hk, hread⟩ := List.mem_filterMap.mp hr
      have hidentifier : IsIdentifier k.toList :=
        (by decide : ∀ k ∈ ["get", "set"], IsIdentifier k.toList) k hk
      exact methodName?_of_marked
        (hopening.marked_of_spacedWord? (by simp) hidentifier List.not_mem_nil hread)
    rw [accessorName?, List.nil_append, List.findSome?_append, hnone, Option.none_or,
      List.findSome?_singleton, hname]
  · rename_i a h _
    have hread := fun word => spacedWord?_append word h.blank h.ne_nil (n.text ++ (g.text ++ c :: t))
    simp only [htrim] at hread
    cases a with
    | getter =>
      simp only [Accessor.word, accessorName?, List.append_assoc, List.filterMap_cons, hread,
        List.cons_append, List.findSome?_cons, hname]
    | setter =>
      have hget : spacedWord? "get" ("set".toList ++ (h.text ++ (n.text ++ (g.text ++ c :: t)))) =
          none := rfl
      simp only [Accessor.word, accessorName?, List.append_assoc, List.filterMap_cons, hget, hread,
        List.cons_append, List.findSome?_cons, hname]

theorem asyncName?_append :
    asyncName? (optional "async" m.async ++ (m.accessorText ++ (n.text ++ (g.text ++ c :: t)))) =
      some (m.async.isSome, n.text) := by
  have hname := m.accessorName?_append n g hc hpart ht
  have hopening := m.opening_accessor n g (t := t) hc hpart
  cases m.async with
  | none =>
    rw [asyncName?, optional, List.nil_append, findSome?_optionalWord_of_none]
    · simp only [hname, Option.map_some, Option.isSome_none]
    · intro r hr
      have hmark := hopening.marked_of_spacedWord? (by decide) (by decide)
        (by decide) hr
      simp only [accessorName?_of_marked hmark, Option.map_none]
  | some h =>
    rw [optional, List.append_assoc, asyncName?]
    refine findSome?_optionalWord_append _ h (hopening.trimStart_eq (by decide)) ?_
    simp only [hname, Option.map_some, Option.isSome_some]

/-- The name behind the modifiers is read, and each modifier as it is written. -/
theorem findSome?_before :
    ((methodPrefixes (m.before (n.text ++ (g.text ++ c :: t)))).findSome?
        fun (isStatic, isAsync, rest) =>
          (methodName? rest).map fun name => (isStatic, isAsync, name)) =
      some (m.static.isSome, m.async.isSome, n.text) := by
  have hname := m.asyncName?_append n g hc hpart ht
  have hopening := m.opening_async n g (t := t) hc hpart
  rw [findSome?_methodPrefixes, before]
  cases m.static with
  | none =>
    rw [optional, List.nil_append, findSome?_optionalWord_of_none]
    · simp only [hname, Option.map_some, Option.isSome_none]
    · intro r hr
      have hmark := hopening.marked_of_spacedWord? (by decide) (by decide)
        (by decide) hr
      simp only [asyncName?_of_marked hmark, Option.map_none]
  | some h =>
    rw [optional, List.append_assoc]
    refine findSome?_optionalWord_append _ h (hopening.trimStart_eq (by decide)) ?_
    simp only [hname, Option.map_some, Option.isSome_some]

/-- A name with modifiers in front of it and a parenthesis closed behind it is a method, unless
the name is a word of a statement. -/
theorem methodDeclaration?_before :
    methodDeclaration? (m.before (n.text ++ (g.text ++ c :: t))) =
      if String.ofList n.text ∈ statementWords then none
      else some (callable n.text (.method m.static.isSome) m.async.isSome
        (m.before (n.text ++ (g.text ++ c :: t)))) := by
  rw [methodDeclaration?, m.findSome?_before n g hc hpart ht]

end Modifiers

end DocComments.Signature
