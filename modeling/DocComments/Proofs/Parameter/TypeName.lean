import DocComments.Parameter.TypeName
import DocComments.Proofs.Text.Trimming

/-!
# Normal forms of types

A type is written as one member or several with bars between them. Its normal form depends on the
names of the members alone: blanks and marks for null do not show, an alias has its better known
form whatever the case of its letters, and what is normal stays as it is. Parentheses about the
whole of a type are seen as such only if it has a single member and no mark stands inside them.
-/

namespace DocComments.TypeName
open Text (trim trimStart trimEnd isBlankText)
open Unicode (isBlank)

/-! ### Better known forms -/

/-- Two texts have the same letters, in upper or lower case. -/
def SameLetters (s t : List Char) : Prop :=
  s.map Char.toLower = t.map Char.toLower

instance (s t : List Char) : Decidable (SameLetters s t) :=
  inferInstanceAs (Decidable (s.map Char.toLower = t.map Char.toLower))

theorem sameLetters_alias_iff {a : String × String} (ha : a ∈ aliases) (base : List Char) :
    SameLetters base a.1.toList ↔ String.ofList (base.map Char.toLower) = a.1 := by
  have hlower : ∀ a ∈ aliases, a.1.toList.map Char.toLower = a.1.toList := by decide
  rw [SameLetters, hlower a ha, ← String.toList_inj, String.toList_ofList]

/-- An alias has its better known form in any case of its letters. -/
theorem canonical_of_sameLetters {a : String × String} (ha : a ∈ aliases) {base : List Char}
    (h : SameLetters base a.1.toList) : canonical base = a.2.toList := by
  have hlookup : ∀ a ∈ aliases, aliases.lookup a.1 = some a.2 := by decide
  rw [canonical, (sameLetters_alias_iff ha base).mp h, hlookup a ha]

/-- A name that is no alias stays as it is. -/
theorem canonical_of_forall_not {base : List Char}
    (h : ∀ a ∈ aliases, ¬ SameLetters base a.1.toList) : canonical base = base := by
  have hnone : aliases.lookup (String.ofList (base.map Char.toLower)) = none :=
    List.lookup_eq_none_iff.mpr fun a ha =>
      bne_iff_ne.mpr fun heq => h a ha ((sameLetters_alias_iff ha base).mpr heq)
  rw [canonical, hnone]

/-- A form is the best known one of a name if it is the one of an alias with the same letters, or
the name itself where it is no alias. -/
def IsBestKnown (base form : List Char) : Prop :=
  (∃ a ∈ aliases, SameLetters base a.1.toList ∧ form = a.2.toList) ∨
    (∀ a ∈ aliases, ¬ SameLetters base a.1.toList) ∧ form = base

/-- Every name has exactly one best known form. -/
theorem canonical_eq_iff {base form : List Char} : canonical base = form ↔ IsBestKnown base form := by
  constructor
  · rintro rfl
    by_cases h : ∃ a ∈ aliases, SameLetters base a.1.toList
    · obtain ⟨a, ha, hsame⟩ := h
      exact .inl ⟨a, ha, hsame, canonical_of_sameLetters ha hsame⟩
    · have hnot : ∀ a ∈ aliases, ¬ SameLetters base a.1.toList := fun a ha hsame => h ⟨a, ha, hsame⟩
      exact .inr ⟨hnot, canonical_of_forall_not hnot⟩
  · rintro (⟨a, ha, hsame, rfl⟩ | ⟨hnot, rfl⟩)
    · exact canonical_of_sameLetters ha hsame
    · exact canonical_of_forall_not hnot

theorem canonical_cases (base : List Char) :
    (∃ a ∈ aliases, canonical base = a.2.toList) ∨ canonical base = base := by
  rcases canonical_eq_iff.mp (Eq.refl (canonical base)) with ⟨a, ha, -, h⟩ | ⟨-, h⟩
  · exact .inl ⟨a, ha, h⟩
  · exact .inr h

/-- A better known form has no better known form than itself. -/
theorem canonical_canonical (base : List Char) : canonical (canonical base) = canonical base := by
  rcases canonical_cases base with ⟨a, ha, h⟩ | h
  · have hself : ∀ a ∈ aliases, canonical a.2.toList = a.2.toList := by decide
    rw [h, hself a ha]
  · rw [h, h]

/-- A name is an alias only if it starts with a letter. -/
theorem canonical_cons_of_not_isAlpha {c : Char} (hc : c.isAlpha = false) (s : List Char) :
    canonical (c :: s) = c :: s := by
  apply canonical_of_forall_not
  intro a ha hsame
  have hletter : ∀ a ∈ aliases, (a.1.toList.map Char.toLower).head?.any Char.isAlpha = true := by
    decide
  have hlower : c.toLower = c := by
    have hupper : c.isUpper = false := (Bool.or_eq_false_iff.mp hc).1
    exact dif_neg (of_decide_eq_false hupper)
  have hstart := hletter a ha
  rw [← hsame, List.map_cons, List.head?_cons, Option.any_some, hlower, hc] at hstart
  cases hstart

/-! ### Members -/

/-- Whether a character can stand in the name of a member. -/
def isNameChar (c : Char) : Bool :=
  !isBlank c && !"|()[]".toList.contains c

/-- The name of a member: no blanks, no bars, no parentheses and brackets, and no mark in front. -/
structure PlainName where
  text : List Char
  isNameChar : ∀ c ∈ text, isNameChar c = true
  unmarked : ∀ c, text.head? = some c → isNullMark c = false

/-- The better known form of a name is a name again. -/
def PlainName.canonical (n : PlainName) : PlainName where
  text := TypeName.canonical n.text
  isNameChar := by
    rcases canonical_cases n.text with ⟨a, ha, h⟩ | h
    · have hall : ∀ a ∈ aliases, a.2.toList.all TypeName.isNameChar = true := by decide
      rw [h]
      exact List.all_eq_true.mp (hall a ha)
    · rw [h]
      exact n.isNameChar
  unmarked := by
    rcases canonical_cases n.text with ⟨a, ha, h⟩ | h
    · have hall : ∀ a ∈ aliases, a.2.toList.head?.all (!isNullMark ·) = true := by decide
      intro c hc
      have hmark := hall a ha
      rw [← h, hc] at hmark
      simpa using hmark
    · rw [h]
      exact n.unmarked

/-- The brackets of a list, if it is one. -/
def suffix (isList : Bool) : List Char :=
  if isList then listSuffix else []

/-- A member as it is written: a name behind marks for null, perhaps with the brackets of a list,
between blanks. -/
structure Member where
  before : List Char
  marks : List Char
  name : PlainName
  isList : Bool
  after : List Char
  before_isBlank : isBlankText before = true
  marks_isNullMark : ∀ c ∈ marks, isNullMark c = true
  after_isBlank : isBlankText after = true

/-- Whether a character can stand in a member. -/
def isMemberChar (c : Char) : Bool :=
  isBlank c || isNullMark c || isNameChar c || listSuffix.contains c

/-- Members with bars between them. -/
def joined (members : List (List Char)) : List Char :=
  List.intercalate ['|'] members

namespace Member
variable (m : Member)

/-- The member without the blanks around it. -/
def core : List Char :=
  m.marks ++ (m.name.text ++ suffix m.isList)

/-- The member as it is written. -/
def text : List Char :=
  m.before ++ (m.core ++ m.after)

/-- What is kept of the member: the better known form of its name, and the brackets. -/
def kept : List Char :=
  canonical m.name.text ++ suffix m.isList

/-- What of the member is no mark and no blank. -/
def named : PlainName × Bool :=
  (m.name, m.isList)

/-- The member that is kept. -/
def normal : Member where
  before := []
  marks := []
  name := m.name.canonical
  isList := m.isList
  after := []
  before_isBlank := Text.isBlankText_nil
  marks_isNullMark := List.forall_mem_nil _
  after_isBlank := Text.isBlankText_nil

theorem map_kept_eq {ms ns : List Member} (h : ms.map named = ns.map named) :
    ms.map kept = ns.map kept := by
  have hkept : ∀ ls : List Member, ls.map kept =
      (ls.map named).map fun x => canonical x.1.text ++ suffix x.2 := fun ls => by
    rw [List.map_map]
    rfl
  rw [hkept, h, hkept]

theorem text_normal : m.normal.text = m.kept :=
  List.append_nil m.kept

theorem core_normal : m.normal.name.text ++ suffix m.normal.isList = m.kept := rfl

theorem kept_normal : m.normal.kept = m.kept :=
  congrArg (· ++ suffix m.isList) (canonical_canonical m.name.text)

/-- Which characters can stand in a member without the blanks around it. -/
theorem mem_core {c : Char} (h : c ∈ m.core) :
    isNullMark c = true ∨ isNameChar c = true ∨ c ∈ listSuffix := by
  rcases List.mem_append.mp h with h | h
  · exact .inl (m.marks_isNullMark c h)
  · rcases List.mem_append.mp h with h | h
    · exact .inr (.inl (m.name.isNameChar c h))
    · rw [suffix] at h
      split at h
      · exact .inr (.inr h)
      · cases h

theorem not_isBlank_of_mem_core {c : Char} (h : c ∈ m.core) : isBlank c = false := by
  rcases m.mem_core h with h | h | h
  · rw [isNullMark, Bool.or_eq_true, beq_iff_eq, beq_iff_eq] at h
    rcases h with rfl | rfl <;> rfl
  · rw [isNameChar, Bool.and_eq_true, Bool.not_eq_true'] at h
    exact h.1
  · rw [listSuffix, List.mem_cons, List.mem_singleton] at h
    rcases h with rfl | rfl <;> rfl

end Member

/-- A name without closing brackets of its own is read off with the brackets of a list behind it,
if there are any. -/
theorem normalMember_eq {s base : List Char} {isList : Bool} (hbare : bare s = base ++ suffix isList)
    (hbase : ']' ∉ base) : normalMember s = canonical base ++ suffix isList := by
  unfold normalMember
  cases isList with
  | true =>
    rw [hbare]
    have hread : listSuffix.isSuffixOf? (base ++ suffix true) = some base :=
      Text.isSuffixOf?_eq_some_iff.mpr rfl
    rw [hread]
    rfl
  | false =>
    have hbase' : bare s = base := hbare.trans (List.append_nil base)
    have hread : listSuffix.isSuffixOf? base = none := by
      cases h : listSuffix.isSuffixOf? base with
      | none => rfl
      | some rest =>
        rw [Text.isSuffixOf?_eq_some_iff.mp h] at hbase
        exact absurd (List.mem_append_right rest (by decide)) hbase
    rw [hbase', hread]
    exact (List.append_nil _).symm

/-- What is no alias because of its first character keeps that character. -/
theorem head?_normalMember {s t : List Char} {c : Char} (hbare : bare s = c :: t)
    (hc : c.isAlpha = false) : (normalMember s).head? = some c := by
  unfold normalMember
  split
  · rename_i base hread
    rw [hbare, Text.isSuffixOf?_eq_some_iff] at hread
    cases base with
    | nil =>
      obtain ⟨rfl, -⟩ := List.cons.inj hread
      rfl
    | cons d base =>
      obtain ⟨rfl, -⟩ := List.cons.inj hread
      rw [canonical_cons_of_not_isAlpha hc]
      rfl
  · rw [hbare, canonical_cons_of_not_isAlpha hc]
    rfl

theorem unwrapped_eq_self {s : List Char} (h : s.head? ≠ some '(') : unwrapped s = s := by
  unfold unwrapped
  split
  · exact absurd rfl h
  · rfl

namespace Member
variable (m : Member)

/-- What divides members and what encloses them does not stand in a member. -/
theorem delimiter_not_mem_text {c : Char} (hc : isMemberChar c = false) : c ∉ m.text := by
  rw [isMemberChar, Bool.or_eq_false_iff, Bool.or_eq_false_iff, Bool.or_eq_false_iff] at hc
  obtain ⟨⟨⟨hblank, hmark⟩, hname⟩, hlist⟩ := hc
  have houter : ∀ g : List Char, isBlankText g = true → c ∉ g := by
    intro g hg hmem
    rw [List.all_eq_true.mp hg c hmem] at hblank
    cases hblank
  intro h
  rcases List.mem_append.mp h with h | h
  · exact houter _ m.before_isBlank h
  · rcases List.mem_append.mp h with h | h
    · rcases m.mem_core h with h | h | h
      · rw [h] at hmark
        cases hmark
      · rw [h] at hname
        cases hname
      · rw [List.contains_iff_mem.mpr h] at hlist
        cases hlist
    · exact houter _ m.after_isBlank h

theorem head?_name_suffix {c : Char} (h : (m.name.text ++ suffix m.isList).head? = some c) :
    isNullMark c = false ∧ c ≠ '(' := by
  rw [List.head?_append] at h
  cases hname : m.name.text.head? with
  | some d =>
    rw [hname] at h
    cases h
    refine ⟨m.name.unmarked c hname, ?_⟩
    rintro rfl
    exact absurd (m.name.isNameChar '(' (List.mem_of_head? hname)) (by decide)
  | none =>
    rw [hname, Option.none_or, suffix] at h
    split at h
    · cases h
      decide
    · cases h

theorem trim_text : trim m.text = m.core :=
  Text.trim_between_blanks m.before_isBlank (fun _ => m.not_isBlank_of_mem_core) m.after_isBlank

theorem bare_text : bare m.text = m.name.text ++ suffix m.isList := by
  have hdrop : m.core.dropWhile isNullMark = m.name.text ++ suffix m.isList :=
    (Text.span_append m.marks_isNullMark fun _ hc => (m.head?_name_suffix hc).1).2
  have hunwrapped : unwrapped (m.name.text ++ suffix m.isList) = m.name.text ++ suffix m.isList :=
    unwrapped_eq_self fun h => (m.head?_name_suffix h).2 rfl
  rw [bare, m.trim_text, hdrop, hunwrapped]
  exact Text.trim_of_forall fun c hc => m.not_isBlank_of_mem_core (List.mem_append_right _ hc)

/-- In parentheses, the marks of a member are not seen. -/
theorem bare_parenthesized : bare ('(' :: (m.text ++ [')'])) = m.core := by
  have htrim : trim ('(' :: (m.text ++ [')'])) = '(' :: (m.text ++ [')']) :=
    Text.trim_eq_self (t := '(' :: m.text) rfl rfl rfl
  have hunwrapped : unwrapped ('(' :: (m.text ++ [')'])) = m.text := by
    rw [unwrapped, List.getLast?_concat, if_pos rfl, List.dropLast_concat]
  rw [bare, htrim, List.dropWhile_cons_of_neg (by decide), hunwrapped, m.trim_text]

/-- A parenthesis that does not enclose its member is not taken off. -/
theorem bare_opened : ∃ s, bare ('(' :: m.text) = '(' :: s := by
  have hclosed : ∀ t, trimEnd m.text = t → t.getLast? ≠ some ')' := by
    rintro t rfl h
    obtain ⟨g, -, htext⟩ := Text.exists_eq_trimEnd_append m.text
    refine m.delimiter_not_mem_text (c := ')') rfl ?_
    rw [htext]
    exact List.mem_append_left g (List.mem_of_getLast? h)
  refine ⟨trimEnd (trimEnd m.text), ?_⟩
  have htrim : trim ('(' :: m.text) = '(' :: trimEnd m.text := by
    rw [trim, Text.trimStart_cons_of_not_blank rfl, Text.trimEnd_cons_of_not_blank rfl]
  rw [bare, htrim, List.dropWhile_cons_of_neg (by decide), unwrapped, if_neg (hclosed _ rfl), trim,
    Text.trimStart_cons_of_not_blank rfl, Text.trimEnd_cons_of_not_blank rfl]

theorem normalMember_text : normalMember m.text = m.kept :=
  normalMember_eq m.bare_text fun h => absurd (m.name.isNameChar ']' h) (by decide)

end Member

/-! ### Types -/

/-- Members are read one by one. -/
theorem normal_joined {members : List (List Char)} (hne : members ≠ [])
    (h : ∀ s ∈ members, '|' ∉ s) : normal (joined members) = joined (members.map normalMember) := by
  rw [normal, joined, List.splitOn_intercalate '|' h hne]
  rfl

variable (m : Member) (ms : List Member)

theorem normal_text : normal (joined ((m :: ms).map Member.text)) =
    joined ((m :: ms).map Member.kept) := by
  have hbar : ∀ s ∈ (m :: ms).map Member.text, '|' ∉ s := by
    intro s hs
    obtain ⟨n, -, rfl⟩ := List.mem_map.mp hs
    exact n.delimiter_not_mem_text rfl
  have hne : (m :: ms).map Member.text ≠ [] := List.cons_ne_nil _ _
  rw [normal_joined hne hbar, List.map_map]
  exact congrArg joined (List.map_congr_left fun n _ => n.normalMember_text)

/-- What is kept of a type is a type in normal form. -/
theorem normal_kept : normal (joined ((m :: ms).map Member.kept)) =
    joined ((m :: ms).map Member.kept) := by
  have hsame : (m :: ms).map Member.kept = (m.normal :: ms.map Member.normal).map Member.text := by
    rw [← List.map_cons, List.map_map]
    exact List.map_congr_left fun n _ => n.text_normal.symm
  have hkept : (m.normal :: ms.map Member.normal).map Member.kept = (m :: ms).map Member.kept := by
    rw [← List.map_cons, List.map_map]
    exact List.map_congr_left fun n _ => n.kept_normal
  conv_lhs => rw [hsame, normal_text, hkept]

/-- The normal form of a type is that of its members: the best known form of each name, with the
brackets of a list where they stand. It does not depend on blanks and marks, and it is its own
normal form. -/
theorem normal_eq_joined_kept :
    normal (joined ((m :: ms).map Member.text)) = joined ((m :: ms).map Member.kept) ∧
      (∀ n ∈ m :: ms, ∀ form,
        n.kept = form ++ suffix n.isList ↔ IsBestKnown n.name.text form) ∧
      (∀ n ns, (n :: ns).map Member.named = (m :: ms).map Member.named →
        normal (joined ((n :: ns).map Member.text)) =
          normal (joined ((m :: ms).map Member.text))) ∧
      normal (normal (joined ((m :: ms).map Member.text))) =
        normal (joined ((m :: ms).map Member.text)) := by
  refine ⟨normal_text m ms, fun n _ form => ?_, fun n ns h => ?_, ?_⟩
  · rw [← canonical_eq_iff, Member.kept, List.append_left_inj]
  · rw [normal_text, normal_text, ← Member.map_kept_eq h]
  · rw [normal_text, normal_kept]

/-- Blanks, marks and the case of the letters do not show in a union. -/
theorem normal_eq_joined_kept_union : ∃ (m n : Member) (ms ns : List Member),
    joined ((m :: ms).map Member.text) = " ?INT |!my.Type[]\t".toList ∧
      joined ((n :: ns).map Member.text) = "INT|my.Type[]".toList ∧
      (n :: ns).map Member.named = (m :: ms).map Member.named ∧
      normal (joined ((m :: ms).map Member.text)) = "Number|my.Type[]".toList ∧
      normal (joined ((n :: ns).map Member.text)) =
        normal (joined ((m :: ms).map Member.text)) := by
  let whole : PlainName :=
    ⟨"INT".toList, List.all_eq_true.mp (by decide), fun c h => Option.some.inj h ▸ rfl⟩
  let own : PlainName :=
    ⟨"my.Type".toList, List.all_eq_true.mp (by decide), fun c h => Option.some.inj h ▸ rfl⟩
  let m : Member := ⟨[' '], ['?'], whole, false, [' '], rfl, List.all_eq_true.mp (by decide), rfl⟩
  let m' : Member := ⟨[], ['!'], own, true, ['\t'], rfl, List.all_eq_true.mp (by decide), rfl⟩
  let n : Member := ⟨[], [], whole, false, [], rfl, List.forall_mem_nil _, rfl⟩
  let n' : Member := ⟨[], [], own, true, [], rfl, List.forall_mem_nil _, rfl⟩
  have hnamed : [n, n'].map Member.named = [m, m'].map Member.named := rfl
  obtain ⟨hkept, -, hsame, -⟩ := normal_eq_joined_kept m [m']
  exact ⟨m, n, [m'], [n'], rfl, rfl, hnamed, hkept.trans (by decide), hsame n [n'] hnamed⟩

/-! ### Parentheses -/

theorem joined_singleton (s : List Char) : joined [s] = s :=
  List.intercalate_singleton

theorem joined_cons_cons (s t : List Char) (members : List (List Char)) :
    joined (s :: t :: members) = s ++ '|' :: joined (t :: members) := by
  rw [joined, List.intercalate_cons_cons, List.append_assoc]
  rfl

theorem normal_of_not_mem {s : List Char} (h : '|' ∉ s) : normal s = normalMember s := by
  have hread := normal_joined (List.cons_ne_nil s []) (by simpa using h)
  rwa [List.map_singleton, joined_singleton, joined_singleton] at hread

/-- A type starts as its first member does. -/
theorem head?_normal_append {s : List Char} {c : Char} (hs : '|' ∉ s)
    (h : (normalMember s).head? = some c) (t : List Char) :
    (normal (s ++ '|' :: t)).head? = some c := by
  have hsplit : (s ++ '|' :: t).splitOn '|' = s :: t.splitOn '|' := by
    have hfirst : s.splitOnP (· == '|') = [s] := List.splitOn_eq_singleton hs
    rw [List.splitOn, List.splitOnP_append_cons s t (by decide), hfirst]
    rfl
  obtain ⟨d, u, hmember⟩ : ∃ d u, normalMember s = d :: u := List.exists_cons_of_ne_nil fun hnil => by
    rw [hnil] at h
    cases h
  rw [hmember, List.head?_cons] at h
  rw [normal, hsplit, List.map_cons, hmember]
  cases (t.splitOn '|').map normalMember with
  | nil => rwa [List.intercalate_singleton]
  | cons x xs => rwa [List.intercalate_cons_cons]

theorem Member.head?_kept {c : Char} (h : m.kept.head? = some c) :
    isNullMark c = false ∧ c ≠ '(' :=
  m.normal.head?_name_suffix (m.core_normal ▸ h)

/-- In parentheses, a single member has its normal form only if it has no marks. -/
theorem normal_parenthesized_member_iff :
    normal ('(' :: (m.text ++ [')'])) = m.kept ↔ m.marks = [] := by
  have hbar : '|' ∉ '(' :: (m.text ++ [')']) := by
    have htext := m.delimiter_not_mem_text (c := '|') rfl
    simpa using htext
  rw [normal_of_not_mem hbar]
  cases hmarks : m.marks with
  | nil =>
    have hbare := m.bare_parenthesized
    rw [Member.core, hmarks, List.nil_append] at hbare
    have hread := normalMember_eq hbare fun h => absurd (m.name.isNameChar ']' h) (by decide)
    exact iff_of_true hread rfl
  | cons c marks =>
    have hc : isNullMark c = true := m.marks_isNullMark c (hmarks ▸ List.mem_cons_self)
    have hbare := m.bare_parenthesized
    rw [Member.core, hmarks, List.cons_append] at hbare
    have halpha : c.isAlpha = false := by
      rw [isNullMark, Bool.or_eq_true, beq_iff_eq, beq_iff_eq] at hc
      rcases hc with rfl | rfl <;> rfl
    refine iff_of_false (fun h => ?_) (List.cons_ne_nil c marks)
    have hhead := head?_normalMember hbare halpha
    rw [h] at hhead
    rw [(m.head?_kept hhead).1] at hc
    cases hc

/-- Parentheses about a type leave its normal form as it is exactly if the type has one member and
no marks for null. -/
theorem normal_parenthesized_iff :
    normal ('(' :: (joined ((m :: ms).map Member.text) ++ [')'])) =
      normal (joined ((m :: ms).map Member.text)) ↔ ms = [] ∧ m.marks = [] := by
  rw [normal_text m ms]
  cases ms with
  | nil =>
    rw [List.map_singleton, List.map_singleton, joined_singleton, joined_singleton,
      normal_parenthesized_member_iff]
    exact ⟨fun h => ⟨rfl, h⟩, fun h => h.2⟩
  | cons n ns =>
    refine iff_of_false (fun h => ?_) (fun h => List.cons_ne_nil n ns h.1)
    -- the opening parenthesis stays with the first member
    obtain ⟨s, hbare⟩ := m.bare_opened
    have hbar : '|' ∉ '(' :: m.text := by
      have htext := m.delimiter_not_mem_text (c := '|') rfl
      simpa using htext
    have hhead := head?_normal_append hbar (head?_normalMember hbare rfl)
      (joined ((n :: ns).map Member.text) ++ [')'])
    have htext : '(' :: (joined ((m :: n :: ns).map Member.text) ++ [')']) =
        ('(' :: m.text) ++ '|' :: (joined ((n :: ns).map Member.text) ++ [')']) := by
      rw [List.map_cons, List.map_cons, joined_cons_cons, List.append_assoc]
      rfl
    rw [← htext, h, List.map_cons, List.map_cons, joined_cons_cons, List.head?_append] at hhead
    cases hkept : m.kept.head? with
    | none =>
      rw [hkept] at hhead
      cases hhead
    | some c =>
      rw [hkept] at hhead
      cases hhead
      exact (m.head?_kept hkept).2 rfl

/-- The parentheses about a union stay with its first and its last member, which are no aliases
then. -/
theorem not_normal_parenthesized_union : ∃ (m : Member) (ms : List Member),
    joined ((m :: ms).map Member.text) = "int|string".toList ∧
      normal "(int|string)".toList = "(int|string)".toList ∧
      normal "int|string".toList = "Number|String".toList := by
  let int : PlainName :=
    ⟨"int".toList, List.all_eq_true.mp (by decide), fun c h => Option.some.inj h ▸ rfl⟩
  let string : PlainName :=
    ⟨"string".toList, List.all_eq_true.mp (by decide), fun c h => Option.some.inj h ▸ rfl⟩
  refine ⟨⟨[], [], int, false, [], rfl, List.forall_mem_nil _, rfl⟩,
    [⟨[], [], string, false, [], rfl, List.forall_mem_nil _, rfl⟩], rfl, ?_, ?_⟩
  · decide
  · decide

end DocComments.TypeName
