import DocComments.Proofs.Expression.Reading

/-!
# Evaluation follows the grammar

An expression has a value exactly if the grammar derives it, with nothing but blanks behind it, and
then the value is the one that it denotes. That the readers yield what the grammar derives is shown
by induction on the derivation; that the grammar derives what they yield, by induction on the depth
and, within a list, on the length of the text.
-/

namespace DocComments.Expression
open Text (Found firstMark afterMark trimStart isBlankText)
open Unicode (isBlank)

section
variable {scope : List String} {depth : Nat} {p : Phrase} {s rest : List Char}

/-- Blanks may stand before every phrase. -/
theorem Derives.of_trimStart (h : Derives scope depth p (trimStart s) rest) :
    Derives scope depth p s rest := by
  induction s with
  | nil => exact h
  | cons c s ih =>
    by_cases hc : isBlank c = true
    · rw [trimStart, List.dropWhile_cons_of_pos hc] at h
      exact .blank hc (ih h)
    · rw [Text.trimStart_cons_of_not_blank (by simpa using hc)] at h
      exact h

end

/-! ### What is read is derived -/

section
variable {scope : List String} {depth : Nat} {value : Reader}
  (hvalue : ∀ {s v rest}, Yields (value s) v rest → Derives scope depth (.operand v) s rest)
include hvalue

theorem derives_of_closed {s rest : List Char} {v : Literal} (h : Yields (closed value s) v rest) :
    Derives scope depth (.expression v) s rest := by
  obtain ⟨hread, hends⟩ := yields_closed.mp h
  exact .expression (hvalue hread) hends

theorem derives_of_items {s rest : List Char} {vs : List Literal}
    (h : Yields (items value s) vs rest) : Derives scope depth (.items vs) s rest := by
  induction hn : s.length using Nat.strongRecOn generalizing s vs with
  | ind n ih =>
    cases s with
    | nil => exact absurd h not_yields_items_nil
    | cons c s =>
      by_cases hclose : c = ']'
      · subst hclose
        obtain ⟨rfl, rfl⟩ := yields_items_close.mp h
        exact .noItems
      by_cases hcomma : c = ','
      · subst hcomma
        obtain ⟨us, hus, rfl⟩ := yields_items_hole.mp h
        have hlen := Text.length_trimStart_le s
        rw [List.length_cons] at hn
        exact .hole (.of_trimStart (ih _ (by omega) hus rfl))
      obtain ⟨-, v, t, hv, hbehind⟩ := (yields_items hclose hcomma).mp h
      have hshorter := hv.length_lt
      rcases hbehind with ⟨hend, rfl⟩ | ⟨u, us, hu, hus, rfl⟩
      · exact .lastItem (derives_of_closed hvalue hv) hend
      · have hlen := Text.length_le_of_trimStart_eq_cons hu
        have htrim := Text.length_trimStart_le u
        rw [List.length_cons] at hlen
        exact .item (derives_of_closed hvalue hv) hu (.of_trimStart (ih _ (by omega) hus rfl))

theorem derives_of_entry {c : Char} {s rest : List Char} {e : String × Literal}
    (h : Yields (entry scope value c s) e rest) :
    Derives scope depth (.entry e.1 e.2) (c :: s) rest := by
  obtain ⟨k, t, hkey, hbehind⟩ := yields_entry.mp h
  rcases hbehind with ⟨u, v, hu, hv, rfl⟩ | ⟨-, v, hv, rfl, rfl⟩
  · exact .pair hkey hu (derives_of_closed hvalue hv)
  · exact .bareKey hkey hv

theorem derives_of_entries {s rest : List Char} {es : List (String × Literal)}
    (h : Yields (entries scope value s) es rest) : Derives scope depth (.entries es) s rest := by
  induction hn : s.length using Nat.strongRecOn generalizing s es with
  | ind n ih =>
    cases s with
    | nil => exact absurd h not_yields_entries_nil
    | cons c s =>
      by_cases hclose : c = '\x7d'
      · subst hclose
        obtain ⟨rfl, rfl⟩ := yields_entries_close.mp h
        exact .noEntries
      obtain ⟨e, t, he, hbehind⟩ := (yields_entries hclose).mp h
      have hshorter := he.length_lt
      rcases hbehind with ⟨hend, rfl⟩ | ⟨u, us, hu, hus, rfl⟩
      · exact .lastEntry (derives_of_entry hvalue he) hend
      · have hlen := Text.length_le_of_trimStart_eq_cons hu
        have htrim := Text.length_trimStart_le u
        rw [List.length_cons] at hlen
        exact .entry (derives_of_entry hvalue he) hu (.of_trimStart (ih _ (by omega) hus rfl))

theorem derives_of_signed {c : Char} {s rest : List Char} {v : Literal} (hc : c = '-' ∨ c = '+')
    (h : Yields (signed (c == '-') value s) v rest) :
    Derives scope (depth + 1) (.operand v) (c :: s) rest := by
  obtain ⟨n, hn, rfl⟩ := yields_signed.mp h
  rcases hc with rfl | rfl
  · exact .minus (hvalue hn)
  · exact .plus (hvalue hn)

end

section
variable {setting : Setting} {depth : Nat}

/-- What starts with a character is derived if the levels inside are, one less deep. -/
theorem derives_of_valueFrom {value? : Option Reader}
    (hvalue : ∀ value, value? = some value → ∃ inner, depth = inner + 1 ∧
      ∀ {s v rest}, Yields (value s) v rest → Derives setting.scope inner (.operand v) s rest)
    {c : Char} {t rest : List Char} {v : Literal}
    (h : Yields (valueFrom setting value? c t) v rest) :
    Derives setting.scope depth (.operand v) (c :: t) rest := by
  have hinside : ∀ {read : Reader → Reader}, Yields (inside setting.limit value? read c t) v rest →
      ∃ inner value, depth = inner + 1 ∧
        (∀ {s v rest}, Yields (value s) v rest →
          Derives setting.scope inner (.operand v) s rest) ∧ Yields (read value t) v rest := by
    intro read hread
    obtain ⟨value, hsome, hread⟩ := yields_inside.mp hread
    obtain ⟨inner, hdepth, hinner⟩ := hvalue value hsome
    exact ⟨inner, value, hdepth, hinner, hread⟩
  -- the first character says which of the branches is taken
  rw [valueFrom] at h
  by_cases hsign : (c = '-' || c = '+') = true
  · rw [if_pos hsign] at h
    obtain ⟨inner, value, rfl, hinner, hread⟩ := hinside h
    exact derives_of_signed hinner (by simpa using hsign) hread
  rw [if_neg hsign] at h
  by_cases hrefused : (c = '!' || c = '~') = true
  · rw [if_pos hrefused] at h
    exact absurd h not_yields_error
  rw [if_neg hrefused] at h
  by_cases hnumeral : startsNumeral (c :: t) = true
  · rw [if_pos (by exact hnumeral),
      yields_map (g := Literal.number) (fun _ => rfl) (fun _ => rfl)] at h
    obtain ⟨n, hn, rfl⟩ := h
    exact .number hnumeral hn
  rw [if_neg (by exact hnumeral)] at h
  by_cases hquote : (c = '\x27' || c = '\x22') = true
  · rw [if_pos hquote,
      yields_map (g := Literal.string ∘ String.ofList) (fun _ => rfl) (fun _ => rfl)] at h
    obtain ⟨t, ht, rfl⟩ := h
    exact .string (by simpa using hquote) ht
  rw [if_neg hquote] at h
  by_cases htemplate : c = '\x60'
  · subst htemplate
    rw [if_pos rfl,
      yields_map (g := Literal.string ∘ String.ofList) (fun _ => rfl) (fun _ => rfl)] at h
    obtain ⟨t, ht, rfl⟩ := h
    exact .template ht
  rw [if_neg htemplate] at h
  by_cases hbracket : c = '['
  · subst hbracket
    rw [if_pos rfl] at h
    obtain ⟨inner, value, rfl, hinner, hread⟩ := hinside h
    obtain ⟨vs, hvs, rfl⟩ := yields_array.mp hread
    exact .array (.of_trimStart (derives_of_items hinner hvs))
  rw [if_neg hbracket] at h
  by_cases hbrace : c = '\x7b'
  · subst hbrace
    rw [if_pos rfl] at h
    obtain ⟨inner, value, rfl, hinner, hread⟩ := hinside h
    obtain ⟨es, hes, rfl⟩ := yields_object.mp hread
    exact .object (.of_trimStart (derives_of_entries hinner hes))
  rw [if_neg hbrace] at h
  by_cases hparen : c = '('
  · subst hparen
    rw [if_pos rfl] at h
    obtain ⟨inner, value, rfl, hinner, hread⟩ := hinside h
    obtain ⟨t, ht, hclose⟩ := yields_grouped.mp hread
    exact .group (derives_of_closed hinner ht) hclose
  rw [if_neg hparen] at h
  by_cases hname : isNameStart c = true
  · rw [if_pos hname] at h
    cases hv : valueOfName setting.scope (String.ofList (c :: t.takeWhile isNamePart)) with
    | error e =>
      rw [hv] at h
      exact absurd h not_yields_error
    | ok w =>
      rw [hv] at h
      obtain ⟨rfl, rfl⟩ := yields_ok.mp h
      exact .name (takesName_cons_iff.mpr ⟨hname, rfl, rfl⟩) (valueOfName_eq_ok_iff.mp hv)
  · rw [if_neg hname] at h
    exact absurd h not_yields_error

/-- What the reader for a depth yields is derived at that depth. -/
theorem derives_of_value {s rest : List Char} {v : Literal}
    (h : Yields (value setting depth s) v rest) :
    Derives setting.scope depth (.operand v) s rest := by
  induction depth using Nat.strongRecOn generalizing s v rest with
  | ind depth ih =>
    obtain ⟨c, t, hcons, h⟩ := yields_value.mp h
    apply Derives.of_trimStart
    rw [hcons]
    refine derives_of_valueFrom ?_ h
    intro value hsome
    cases depth with
    | zero => cases hsome
    | succ inner =>
      cases hsome
      exact ⟨inner, rfl, ih inner (Nat.lt_succ_self inner)⟩

end

/-! ### What is derived is read -/

section
variable {setting : Setting} {depth : Nat} {p : Phrase} {s t rest : List Char}

/-- What the readers for a depth yield where the grammar derives a phrase. An entry is read only if
a mark that ends it stands behind it. -/
def IsRead (setting : Setting) (depth : Nat) : Phrase → List Char → List Char → Prop
  | .operand v, s, rest => Yields (value setting depth s) v rest
  | .expression v, s, rest => Yields (closed (value setting depth) s) v rest
  | .items vs, s, rest => Yields (items (value setting depth) (trimStart s)) vs rest
  | .entry k v, s, rest =>
    firstMark rest = some ',' ∨ firstMark rest = some '\x7d' →
      ∃ c t, trimStart s = c :: t ∧ c ≠ '\x7d' ∧
        Yields (entry setting.scope (value setting depth) c t) (k, v) rest
  | .entries es, s, rest =>
    Yields (entries setting.scope (value setting depth) (trimStart s)) es rest

/-- Only what stands behind the blanks of a text is read. -/
theorem isRead_congr (h : trimStart s = trimStart t) (hp : IsRead setting depth p s rest) :
    IsRead setting depth p t rest := by
  cases p with
  | operand v =>
    rw [IsRead, yields_value, h] at hp
    exact yields_value.mpr hp
  | expression v =>
    obtain ⟨hread, hends⟩ := yields_closed.mp hp
    rw [yields_value, h] at hread
    exact yields_closed.mpr ⟨yields_value.mpr hread, hends⟩
  | items vs =>
    rw [IsRead, ← h]
    exact hp
  | entry k v =>
    rw [IsRead, ← h]
    exact hp
  | entries es =>
    rw [IsRead, ← h]
    exact hp

theorem isRead_operand {c : Char} {v : Literal} (hc : isBlank c = false)
    (h : Yields (valueFrom setting (inner? setting depth) c s) v rest) :
    IsRead setting depth (.operand v) (c :: s) rest :=
  yields_value.mpr ⟨c, s, Text.trimStart_cons_of_not_blank hc s, h⟩

/-- Behind an opening character the readers for one level less go on. -/
theorem isRead_inside {c : Char} {v : Literal} (read : Reader → Reader) (hc : isBlank c = false)
    (hfrom : ∀ value?, valueFrom setting value? c s = inside setting.limit value? read c s)
    (h : Yields (read (value setting depth) s) v rest) :
    IsRead setting (depth + 1) (.operand v) (c :: s) rest := by
  apply isRead_operand hc
  rw [hfrom]
  exact yields_inside.mpr ⟨value setting depth, rfl, h⟩

/-- Behind an item stands the closing bracket, or a comma and further items. -/
theorem isRead_items {v : Literal} {vs : List Literal}
    (hv : IsRead setting depth (.expression v) s t)
    (hbehind : (trimStart t = ']' :: rest ∧ vs = [v]) ∨
      ∃ u us, trimStart t = ',' :: u ∧ IsRead setting depth (.items us) u rest ∧ vs = v :: us) :
    IsRead setting depth (.items vs) s rest := by
  obtain ⟨hread, hends⟩ := yields_closed.mp hv
  obtain ⟨c, w, hcons, hfrom⟩ := yields_value.mp hread
  have hclosed : Yields (closed (value setting depth) (c :: w)) v t := by
    have hc := Text.isBlank_of_trimStart_eq_cons hcons
    exact yields_closed.mpr ⟨isRead_operand hc hfrom, hends⟩
  have hmark : ¬ (c = ']' ∨ c = ',') := fun hc => not_yields_valueFrom hc hfrom
  rw [not_or] at hmark
  rw [IsRead, hcons, yields_items hmark.1 hmark.2]
  exact ⟨startsSpread_of_yields_valueFrom hfrom, v, t, hclosed, hbehind⟩

/-- Behind an entry stands the closing brace, or a comma and further entries. -/
theorem isRead_entries {k : String} {v : Literal} {es : List (String × Literal)}
    (he : IsRead setting depth (.entry k v) s t)
    (hbehind : (trimStart t = '\x7d' :: rest ∧ es = [(k, v)]) ∨
      ∃ u fs, trimStart t = ',' :: u ∧ IsRead setting depth (.entries fs) u rest ∧
        es = (k, v) :: fs) :
    IsRead setting depth (.entries es) s rest := by
  have hmark : firstMark t = some ',' ∨ firstMark t = some '\x7d' := by
    rcases hbehind with ⟨hclose, -⟩ | ⟨u, -, hcomma, -⟩
    · exact .inr (firstMark_of_trimStart hclose)
    · exact .inl (firstMark_of_trimStart hcomma)
  obtain ⟨c, w, hcons, hc, hentry⟩ := he hmark
  rw [IsRead, hcons, yields_entries hc]
  exact ⟨(k, v), t, hentry, hbehind⟩

/-- An entry starts with the first character of its key. -/
theorem isRead_entry {k : String} {v : Literal} (hkey : TakesKey s k t)
    (h : firstMark rest = some ',' ∨ firstMark rest = some '\x7d' →
      (∃ u w, trimStart t = ':' :: u ∧ IsRead setting depth (.expression w) u rest ∧
        (k, v) = (k, w)) ∨
        ((firstMark t = some ',' ∨ firstMark t = some '\x7d') ∧
          ∃ w, NameDenotes setting.scope k w ∧ (k, v) = (k, w) ∧ rest = t)) :
    IsRead setting depth (.entry k v) s rest := by
  intro hmark
  obtain ⟨c, w, rfl, hblank, hbrace⟩ := hkey.exists_cons
  exact ⟨c, w, Text.trimStart_cons_of_not_blank hblank w, hbrace,
    yields_entry.mpr ⟨k, t, hkey, h hmark⟩⟩

/-- What the grammar derives at a depth is read by the readers for that depth. -/
theorem isRead_of_derives (h : Derives setting.scope depth p s rest) :
    IsRead setting depth p s rest := by
  induction h with
  | blank hb _ ih =>
    refine isRead_congr ?_ ih
    rw [trimStart, trimStart, List.dropWhile_cons_of_pos hb]
  | @number _ _ s _ hstart h =>
    cases s with
    | nil => cases hstart
    | cons c s =>
      have hc := isBlank_of_startsNumeral hstart
      exact isRead_operand hc (yields_valueFrom_number hstart h)
  | @string _ q _ _ _ hq h =>
    have hc : isBlank q = false := by
      rcases hq with rfl | rfl <;> rfl
    exact isRead_operand hc (yields_valueFrom_string hq h)
  | template h => exact isRead_operand rfl (yields_valueFrom_template h)
  | @name _ _ s _ _ hname h =>
    cases s with
    | nil => exact absurd hname not_takesName_nil
    | cons c s =>
      have hc := isBlank_of_isNameStart (takesName_cons_iff.mp hname).1
      exact isRead_operand hc (yields_valueFrom_name hname h)
  | plus _ ih =>
    exact isRead_inside (signed false) rfl (fun _ => rfl) (yields_signed.mpr ⟨_, ih, rfl⟩)
  | minus _ ih =>
    exact isRead_inside (signed true) rfl (fun _ => rfl) (yields_signed.mpr ⟨_, ih, rfl⟩)
  | group _ hclose ih =>
    exact isRead_inside grouped rfl (fun _ => rfl) (yields_grouped.mpr ⟨_, ih, hclose⟩)
  | array _ ih =>
    exact isRead_inside array rfl (fun _ => rfl) (yields_array.mpr ⟨_, ih, rfl⟩)
  | object _ ih =>
    exact isRead_inside (object setting.scope) rfl (fun _ => rfl) (yields_object.mpr ⟨_, ih, rfl⟩)
  | expression _ hends ih => exact yields_closed.mpr ⟨ih, hends⟩
  | noItems => exact yields_items_close.mpr ⟨rfl, rfl⟩
  | hole _ ih => exact yields_items_hole.mpr ⟨_, ih, rfl⟩
  | lastItem _ hclose ih => exact isRead_items ih (.inl ⟨hclose, rfl⟩)
  | item _ hcomma _ ih ihmore => exact isRead_items ih (.inr ⟨_, _, hcomma, ihmore, rfl⟩)
  | pair hkey hcolon _ ih => exact isRead_entry hkey fun _ => .inl ⟨_, _, hcolon, ih, rfl⟩
  | bareKey hkey h => exact isRead_entry hkey fun hmark => .inr ⟨hmark, _, h, rfl, rfl⟩
  | noEntries => exact yields_entries_close.mpr ⟨rfl, rfl⟩
  | lastEntry _ hclose ih => exact isRead_entries ih (.inl ⟨hclose, rfl⟩)
  | entry _ hcomma _ ih ihmore => exact isRead_entries ih (.inr ⟨_, _, hcomma, ihmore, rfl⟩)

/-- The reader for a depth yields the expressions that the grammar derives at that depth. -/
theorem yields_closed_value_iff {v : Literal} :
    Yields (closed (value setting depth) s) v rest ↔
      Derives setting.scope depth (.expression v) s rest :=
  ⟨derives_of_closed derives_of_value, isRead_of_derives (p := .expression v)⟩

/-- An expression evaluates to what is derived from its whole text, blanks at the end apart. -/
theorem evaluate_eq_ok_iff {v : Literal} :
    evaluate setting s = .ok v ↔
      ∃ blanks, Derives setting.scope setting.limit (.expression v) s blanks ∧
        isBlankText blanks = true := by
  rw [evaluate]
  constructor
  · intro h
    cases hread : closed (value setting setting.limit) s with
    | error e =>
      rw [hread] at h
      cases h
    | ok f =>
      rw [hread] at h
      have hderived : Derives setting.scope setting.limit (.expression f.value) s f.rest :=
        yields_closed_value_iff.mp (hread ▸ yields_ok.mpr ⟨rfl, rfl⟩)
      cases hmark : firstMark f.rest with
      | some c =>
        simp only [hmark] at h
        cases h
      | none =>
        simp only [hmark, Except.ok.injEq] at h
        exact ⟨f.rest, h ▸ hderived, firstMark_eq_none_iff.mp hmark⟩
  · rintro ⟨blanks, h, hblank⟩
    obtain ⟨_, hok⟩ := yields_closed_value_iff.mpr h
    simp only [hok, firstMark_eq_none_iff.mpr hblank]

/-- A text that is derived to its end evaluates to what it denotes. -/
theorem evaluate_of_operand {v : Literal}
    (h : Derives setting.scope setting.limit (.operand v) s []) : evaluate setting s = .ok v := by
  have hends : Ends [] := fun _ hc => by cases hc
  exact evaluate_eq_ok_iff.mpr ⟨[], .expression h hends, rfl⟩

/-- In every scope a text has a value exactly if the grammar derives it with at most 64 arrays,
objects, parentheses and signs inside one another, and the value is the one derived. -/
theorem evaluate_default_eq_ok_iff (scope : List String) (v : Literal) (s : List Char) :
    evaluate ⟨scope, defaultLimit⟩ s = .ok v ↔
      ∃ blanks, Derives scope 64 (.expression v) s blanks ∧ isBlankText blanks = true :=
  evaluate_eq_ok_iff

end

end DocComments.Expression
