import DocComments.Proofs.Parameter.Bracket
import DocComments.Proofs.Signature.Modifier
import DocComments.Proofs.Text.Balanced

/-!
# The type in front of a tag

A tag may start with a type in braces, and the type may have braces of its own, as the type of a
record has. The first closing brace ends it all the same. So the name and the description behind a
type are read as they are written exactly if no braces are nested in the type; otherwise what is left
of the type is taken for the name or for a part of the description.
-/

namespace DocComments
open Text (trim trimStart trimEnd collapseBlanks withoutBlanks isBlankText)
open Unicode (isBlank)
open Signature (Name)

namespace Tag

/-- The brackets that delimit a type. -/
def braces : List (Char × Char) := [('\x7b', '\x7d')]

def isBrace (c : Char) : Bool :=
  c == '\x7b' || c == '\x7d'

/-- A text is in braces up to the first closing one. -/
theorem braced?_append {t : List Char} (h : '\x7d' ∉ t) (rest : List Char) :
    braced? ('\x7b' :: (t ++ '\x7d' :: rest)) = some (t, rest) := by
  have hinside : ∀ c ∈ t, decide (c ≠ '\x7d') = true := fun c hc =>
    decide_eq_true fun heq => h (heq ▸ hc)
  obtain ⟨htake, hdrop⟩ := Text.span_append (t := '\x7d' :: rest) hinside (by simp)
  simp only [braced?, htake, hdrop]

end Tag

namespace Field
variable {type? : Option (List Char)}

/-- A name that opens no bracket is read up to the first blank. -/
theorem afterType?_solid {name e : List Char} (hname : ∀ c ∈ name, isBlank c = false)
    (hbracket : name.head? ≠ some '[') (he : ∀ c, e.head? = some c → isBlank c = true) :
    afterType? type? (name ++ e) =
      some
        { name := String.ofList name
          declaredType := type?.bind TypeName.ofText?
          description := String.ofList (collapseBlanks e)
          required := !type?.any fun type => type.head? = some '?' } := by
  obtain ⟨htake, hdrop⟩ := Text.span_append (p := (!isBlank ·)) (s := name) (t := e)
    (fun c hc => by rw [hname c hc]; rfl) (fun c hc => by rw [he c hc]; rfl)
  unfold afterType?
  split
  · rename_i t heq
    cases name with
    | nil =>
      rw [List.nil_append] at heq
      exact absurd (he '[' (by rw [heq]; rfl)) (by decide)
    | cons c t => exact absurd (congrArg some (List.cons.inj heq).1) hbracket
  · rw [htake, hdrop]

theorem afterType?_append {e : List Char} (n : Name)
    (he : ∀ c, e.head? = some c → isBlank c = true) :
    afterType? type? (n.text ++ e) =
      some
        { name := String.ofList n.text
          declaredType := type?.bind TypeName.ofText?
          description := String.ofList (collapseBlanks e)
          required := !type?.any fun type => type.head? = some '?' } := by
  refine afterType?_solid n.not_isBlank (fun hbracket => ?_) he
  have hpart := n.isPathPart '[' (List.mem_of_head? hbracket)
  exact absurd hpart (by decide)

/-- Behind a closing brace the name and the description are not read as they are written. -/
theorem not_reads_behind_brace {b e : List Char} {n : Name} {f : Field}
    (h : afterType? type? (trimStart (b ++ '\x7d' :: ' ' :: (n.text ++ e))) = some f)
    (hname : f.name = String.ofList n.text)
    (hdescription : f.description = String.ofList (collapseBlanks e)) : False := by
  obtain ⟨t, rest, hs, hrest, hcut⟩ := exists_of_afterType? h
  -- what is no blank in front of the description is one and the same
  have hfront : withoutBlanks t = withoutBlanks b ++ '\x7d' :: n.text := by
    have hsame := congrArg withoutBlanks hs
    rw [Text.withoutBlanks_trimStart, Text.withoutBlanks_append, Text.withoutBlanks_cons rfl,
      Text.withoutBlanks_cons_blank rfl, Text.withoutBlanks_append,
      Text.withoutBlanks_eq_self n.not_isBlank, Text.withoutBlanks_append,
      Text.withoutBlanks_eq_of_collapseBlanks (hrest.symm.trans hdescription), ← List.cons_append,
      ← List.append_assoc] at hsame
    exact (List.append_cancel_right hsame).symm
  rcases hcut with ⟨hwhole, hsolid⟩ | hlast
  · rw [Text.withoutBlanks_eq_self hsolid,
      String.ofList_injective (hwhole.symm.trans hname)] at hfront
    have hlength := congrArg List.length hfront
    rw [List.length_append, List.length_cons] at hlength
    omega
  · obtain ⟨t', rfl⟩ := List.getLast?_eq_some_iff.mp hlast
    obtain ⟨m, d, htext, -⟩ := n.exists_eq_append
    have hbracket : withoutBlanks [']'] = [']'] := rfl
    rw [Text.withoutBlanks_append, hbracket, htext, ← List.cons_append, ← List.append_assoc] at hfront
    have hd : ']' = d := List.singleton_inj.mp (List.append_inj_right' hfront rfl)
    have hpart := n.isPathPart ']' (by rw [htext, ← hd]; exact List.mem_concat_self)
    exact absurd hpart (by decide)

end Field

/-- The type in front of a tag: not blank, and its braces come in pairs. -/
structure TypeText where
  text : List Char
  isBalanced : Text.IsBalanced Tag.braces text
  notBlank : isBlankText text = false

namespace TypeText
variable (t : TypeText)

/-- The type is written in braces in front of the rest of a tag. -/
def before (s : List Char) : List Char :=
  '\x7b' :: (t.text ++ '\x7d' :: ' ' :: s)

/-- The type has no braces of its own. -/
def IsFlat : Prop :=
  ∀ c ∈ t.text, Tag.isBrace c = false

theorem isFlat_iff : t.IsFlat ↔ '\x7d' ∉ t.text := by
  constructor
  · intro h hmem
    cases h _ hmem
  · intro h c hc
    by_contra hbrace
    rw [Bool.not_eq_false, Tag.isBrace, Bool.or_eq_true, beq_iff_eq, beq_iff_eq] at hbrace
    rcases hbrace with rfl | rfl
    · obtain ⟨d, hd, hclosing⟩ := t.isBalanced.exists_closing hc rfl
      have hsame : '\x7d' = d := by simpa [Tag.braces] using hclosing
      exact h (hsame ▸ hd)
    · exact h hc

/-- The type ends at its first closing brace. -/
theorem exists_braced? (s : List Char) :
    (t.IsFlat ∧ Tag.braced? ('\x7b' :: (t.text ++ '\x7d' :: s)) = some (t.text, s)) ∨
      (¬ t.IsFlat ∧ ∃ a b, Tag.braced? ('\x7b' :: (t.text ++ '\x7d' :: s)) =
        some (a, b ++ '\x7d' :: s)) := by
  rw [isFlat_iff]
  by_cases hmem : '\x7d' ∈ t.text
  · obtain ⟨a, b, htext, ha⟩ := List.eq_append_cons_of_mem hmem
    refine .inr ⟨not_not_intro hmem, a, b, ?_⟩
    rw [htext, List.append_assoc, List.cons_append]
    exact Tag.braced?_append ha _
  · exact .inl ⟨hmem, Tag.braced?_append hmem s⟩

theorem trim_before (s : List Char) :
    trim (t.before s) = '\x7b' :: (t.text ++ '\x7d' :: trimEnd (' ' :: s)) := by
  have htrim := Text.trim_append (c := '\x7b') (d := '\x7d') (s := t.text ++ ['\x7d'])
    (t := '\x7b' :: t.text) rfl rfl rfl (' ' :: s)
  simpa [before] using htrim

/-- The description of an outcome is read as it is written, and the type with all its braces, exactly
if the type has no braces of its own. -/
theorem outcome_ofTag_iff (d : List Char) :
    (Outcome.ofTag (t.before d)).description = String.ofList (collapseBlanks d) ∧
      (∃ type, (Outcome.ofTag (t.before d)).type = some type ∧
        (t.text.filter Tag.isBrace).Sublist type.toList) ↔ t.IsFlat := by
  have hrest := Text.collapseBlanks_trimEnd_space d
  rw [Outcome.ofTag, t.trim_before]
  rcases t.exists_braced? (trimEnd (' ' :: d)) with ⟨hflat, hread⟩ | ⟨hnested, a, b, hread⟩
  · simp only [hread, hrest]
    refine iff_of_true ⟨trivial, ?_⟩ hflat
    have hnone : t.text.filter Tag.isBrace = [] :=
      List.filter_eq_nil_iff.mpr fun c hc => by simp [hflat c hc]
    exact ⟨_, if_neg (Text.trim_ne_nil t.notBlank), hnone ▸ List.nil_sublist _⟩
  · simp only [hread]
    refine iff_of_false (fun h => ?_) hnested
    rw [← hrest] at h
    have hsame := congrArg List.length (Text.withoutBlanks_eq_of_collapseBlanks h.1)
    rw [Text.withoutBlanks_append, Text.withoutBlanks_cons rfl, List.length_append,
      List.length_cons] at hsame
    omega

theorem trim_before_name (n : Name) (d : List Char) :
    trim (t.before (n.text ++ ' ' :: d)) =
      '\x7b' :: (t.text ++ '\x7d' :: ' ' :: (n.text ++ trimEnd (' ' :: d))) := by
  have hname : trimEnd (n.text ++ ' ' :: d) = n.text ++ trimEnd (' ' :: d) :=
    Text.trimEnd_append_of_forall n.not_isBlank _
  have hne : trimEnd (n.text ++ ' ' :: d) ≠ [] := by
    rw [hname]
    exact List.append_ne_nil_of_left_ne_nil n.ne_nil _
  have hspace := Text.trimEnd_append_of_ne_nil hne [' ']
  rw [List.singleton_append, List.singleton_append] at hspace
  rw [t.trim_before, hspace, hname]

/-- The name and the description of a parameter are read as they are written exactly if the type has
no braces of its own. -/
theorem field_ofTag_iff (n : Name) (d : List Char) :
    (Field.ofTag (t.before (n.text ++ ' ' :: d))).name = String.ofList n.text ∧
      (Field.ofTag (t.before (n.text ++ ' ' :: d))).description =
        String.ofList (collapseBlanks d) ↔ t.IsFlat := by
  have hrest := Text.collapseBlanks_trimEnd_space d
  have hblank : ∀ c, (trimEnd (' ' :: d)).head? = some c → isBlank c = true := fun c hc =>
    Option.some.inj (Text.head?_trimEnd hc) ▸ rfl
  rw [Field.ofTag, t.trim_before_name, Field.ofTrimmed?, if_pos List.head?_cons]
  rcases t.exists_braced? (' ' :: (n.text ++ trimEnd (' ' :: d))) with
    ⟨hflat, hread⟩ | ⟨hnested, a, b, hread⟩
  · have hstart : trimStart (' ' :: (n.text ++ trimEnd (' ' :: d))) =
        n.text ++ trimEnd (' ' :: d) := by
      rw [← List.singleton_append, Text.trimStart_append_of_blank rfl,
        Signature.trimStart_identifier n.isIdentifier]
    simp only [hread, hstart, Field.afterType?_append n hblank, hrest]
    exact iff_of_true ⟨trivial, trivial⟩ hflat
  · simp only [hread]
    refine iff_of_false ?_ hnested
    cases hfield : Field.afterType? (some (trim a))
        (trimStart (b ++ '\x7d' :: ' ' :: (n.text ++ trimEnd (' ' :: d)))) with
    | some f =>
      rintro ⟨hname, hdescription⟩
      exact Field.not_reads_behind_brace hfield hname (hrest ▸ hdescription)
    | none =>
      rintro ⟨hname, -⟩
      exact n.ne_nil (String.ofList_injective hname).symm

/-- What stands behind a type in braces is read as it is written exactly if the type has no braces
of its own: the name and the description of a parameter, and the description of an outcome together
with a type that has all braces of the one written. -/
theorem reads_behind_type_iff :
    (∀ (n : Name) (d : List Char),
      (Field.ofTag (t.before (n.text ++ ' ' :: d))).name = String.ofList n.text ∧
        (Field.ofTag (t.before (n.text ++ ' ' :: d))).description =
          String.ofList (collapseBlanks d) ↔ t.IsFlat) ∧
      ∀ d : List Char,
        (Outcome.ofTag (t.before d)).description = String.ofList (collapseBlanks d) ∧
          (∃ type, (Outcome.ofTag (t.before d)).type = some type ∧
            (t.text.filter Tag.isBrace).Sublist type.toList) ↔ t.IsFlat :=
  ⟨t.field_ofTag_iff, t.outcome_ofTag_iff⟩

end TypeText

/-- The type of a record is cut off at its own closing brace, which leaves the one behind it as the
name. -/
theorem TypeText.not_reads_behind_record_type : ∃ t : TypeText,
    t.before "opts The options".toList = "\x7b\x7ba: number\x7d\x7d opts The options".toList ∧
      (Field.ofTag (t.before "opts The options".toList)).name = "\x7d" ∧
      (Field.ofTag (t.before "opts The options".toList)).description = "opts The options" ∧
      (Outcome.ofTag (t.before "opts The options".toList)).type = some "\x7ba: number" ∧
      (Outcome.ofTag (t.before "opts The options".toList)).description =
        "\x7d opts The options" := by
  refine ⟨⟨"\x7ba: number\x7d".toList, by decide, by decide⟩, ?_⟩
  decide +kernel

end DocComments
