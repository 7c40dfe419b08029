import DocComments.Proofs.Expression.Evaluation
import DocComments.Proofs.Expression.Numeral
import DocComments.Proofs.Expression.Quoted

/-!
# What stands behind a phrase

The rules of the grammar speak of a text and of what a phrase leaves of it. What is left matters
only as far as it ends the phrase: a phrase that is followed by a delimiter is a text of its own,
which may be put in front of every other delimiter. So an expression may be cut out of its
surroundings and read alone, and the blanks behind it do not matter.
-/

namespace DocComments.Expression
open Text (firstMark trimStart trimEnd isBlankText)
open Unicode (isBlank)

/-- Nothing in front of the text belongs to a token before it or goes on with a value. -/
structure Delimits (rest : List Char) : Prop where
  front_eq_none : front rest = none
  ends : Ends rest

/-- The text has a last character, and that is no blank. -/
def EndsMarked (u : List Char) : Prop :=
  ∃ t c, u = t ++ [c] ∧ isBlank c = false

/-- A text that spells a phrase wherever a delimiter stands behind it. -/
structure Spells (scope : List String) (depth : Nat) (p : Phrase) (u : List Char) : Prop where
  endsMarked : EndsMarked u
  derives : ∀ rest, Delimits rest → Derives scope depth p (u ++ rest) rest

/-! ### Delimiters -/

section
variable {c : Char} {g s t u rest : List Char}

theorem delimits_of_isBlankText (h : isBlankText s = true) : Delimits s := by
  refine ⟨?_, ?_⟩
  · cases s with
    | nil => rfl
    | cons b s =>
      have hb : isBlank b = true := List.all_eq_true.mp h b List.mem_cons_self
      rw [front, List.head?_cons, Option.filter_some, continuesToken_of_isBlank hb]
      rfl
  · intro c hc
    rw [firstMark_eq_none_iff.mpr h] at hc
    cases hc

theorem delimits_nil : Delimits [] :=
  delimits_of_isBlankText rfl

/-- A mark behind blanks delimits if it belongs to no token and goes on with no value. -/
theorem delimits_mark (hg : isBlankText g = true) (hblank : isBlank c = false)
    (htoken : continuesToken c = false) (hvalue : continuesValue c = false) :
    Delimits (g ++ c :: s) := by
  refine ⟨?_, ?_⟩
  · cases g with
    | nil =>
      rw [List.nil_append, front, List.head?_cons, Option.filter_some, htoken]
      rfl
    | cons b g =>
      have hb : isBlank b = true := List.all_eq_true.mp hg b List.mem_cons_self
      rw [List.cons_append, front, List.head?_cons, Option.filter_some,
        continuesToken_of_isBlank hb]
      rfl
  · intro d hd
    rw [firstMark, Text.trimStart_append_of_blank hg, Text.trimStart_cons_of_not_blank hblank] at hd
    cases hd
    exact hvalue

/-- The marks that end a part of a phrase. -/
def delimiters : List Char := [',', ':', ')', ']', '\x7d']

/-- A mark that ends a part of a phrase delimits it, with or without blanks in front. -/
theorem exists_delimiter (hc : c ∈ delimiters) (h : trimStart t = c :: rest) :
    ∃ g, t = g ++ c :: rest ∧
      ∀ r, Delimits (g ++ c :: r) ∧ trimStart (g ++ c :: r) = c :: r := by
  obtain ⟨g, hg, ht⟩ := Text.exists_blanks_of_trimStart h
  have hmarks : delimiters.all (fun d => !isBlank d && !continuesToken d && !continuesValue d) =
      true := by decide
  have hmark := List.all_eq_true.mp hmarks c hc
  simp only [Bool.and_eq_true, Bool.not_eq_true'] at hmark
  obtain ⟨⟨hblank, htoken⟩, hvalue⟩ := hmark
  refine ⟨g, ht, ?_⟩
  intro r
  refine ⟨delimits_mark hg hblank htoken hvalue, ?_⟩
  rw [Text.trimStart_append_of_blank hg, Text.trimStart_cons_of_not_blank hblank]

theorem delimits_of_trimStart (hc : c ∈ delimiters) (h : trimStart t = c :: rest) :
    Delimits t := by
  obtain ⟨g, rfl, hg⟩ := exists_delimiter hc h
  exact (hg rest).1

theorem delimits_cons (hc : c ∈ delimiters) (s : List Char) : Delimits (c :: s) := by
  have hall : delimiters.all (fun d => !isBlank d) = true := by decide
  have hblank : isBlank c = false := by simpa using List.all_eq_true.mp hall c hc
  exact delimits_of_trimStart hc (Text.trimStart_cons_of_not_blank hblank s)

theorem Delimits.front_eq (hs : Delimits s) (ht : Delimits t) : front s = front t :=
  hs.front_eq_none.trans ht.front_eq_none.symm

/-- No character of a token stands in front of a delimiter. -/
theorem Delimits.not_continuesToken (h : Delimits s) (hc : s.head? = some c) :
    continuesToken c = false := by
  cases htoken : continuesToken c with
  | false => rfl
  | true =>
    have hfront := front_eq_some_iff.mpr ⟨hc, htoken⟩
    rw [h.front_eq_none] at hfront
    cases hfront

theorem endsMarked_singleton (hc : isBlank c = false) : EndsMarked [c] :=
  ⟨[], c, rfl, hc⟩

/-- What stands in front does not matter to the end of a text. -/
theorem EndsMarked.append (h : EndsMarked u) (s : List Char) : EndsMarked (s ++ u) := by
  obtain ⟨t, c, rfl, hc⟩ := h
  exact ⟨s ++ t, c, (List.append_assoc s t [c]).symm, hc⟩

theorem endsMarked_of_forall (hne : u ≠ []) (h : ∀ c ∈ u, isBlank c = false) : EndsMarked u := by
  refine ⟨u.dropLast, u.getLast hne, (List.dropLast_concat_getLast hne).symm, ?_⟩
  exact h _ (List.getLast_mem hne)

theorem isBlank_of_continuesToken (h : continuesToken c = true) : isBlank c = false := by
  cases hb : isBlank c with
  | false => rfl
  | true =>
    rw [continuesToken_of_isBlank hb] at h
    cases h

/-- A token ends with one of its characters. -/
theorem endsMarked_token (hc : isBlank c = false) (h : ∀ d ∈ u, continuesToken d = true) :
    EndsMarked (c :: u) := by
  refine endsMarked_of_forall (List.cons_ne_nil c u) ?_
  rintro d (_ | ⟨_, hd⟩)
  · exact hc
  · exact isBlank_of_continuesToken (h d hd)

theorem EndsMarked.trimEnd_append (h : EndsMarked u) (hs : isBlankText s = true) :
    trimEnd (u ++ s) = u := by
  obtain ⟨t, c, rfl, hc⟩ := h
  rw [Text.trimEnd_append_of_isBlankText hs, Text.trimEnd_append_of_not_blank hc]

end

/-! ### Strings, names and keys -/

section
variable {s name rest r : List Char} {k : String}

/-- A quoted string reaches from its quote to its closing quote, whatever stands behind. -/
theorem exists_spelling_quoted {q : Char} {t : List Char} (hq : q = '\x27' ∨ q = '\x22')
    (h : Yields (quoted q s) t rest) :
    ∃ u, q :: s = u ++ rest ∧ EndsMarked u ∧
      ∀ r, ∃ v, u ++ r = q :: v ∧ Yields (quoted q v) t r := by
  have hescape : q ≠ '\\' := by
    rcases hq with rfl | rfl <;> decide
  have hblank : isBlank q = false := by
    rcases hq with rfl | rfl <;> rfl
  obtain ⟨u, rfl, hread⟩ := yields_quoted_append hescape h
  refine ⟨q :: u ++ [q], ?_, (endsMarked_singleton hblank).append _, ?_⟩
  · simp
  · intro r
    exact ⟨u ++ q :: r, by simp, hread r⟩

theorem TakesName.endsMarked (h : TakesName s name rest) : EndsMarked name := by
  obtain ⟨c, t, rfl, hc, ht⟩ := h.start
  exact endsMarked_token (isBlank_of_isNameStart hc) fun d hd =>
    continuesToken_of_isNamePart (ht d hd)

theorem TakesName.before_delimiter (h : TakesName s name rest) (hr : Delimits r) :
    TakesName (name ++ r) name r := by
  refine ⟨rfl, h.start, ?_⟩
  intro d hd
  have htoken := hr.not_continuesToken hd
  cases hpart : isNamePart d with
  | false => rfl
  | true =>
    rw [continuesToken_of_isNamePart hpart] at htoken
    cases htoken

theorem TakesKey.exists_spelling (h : TakesKey s k rest) (hrest : Delimits rest) :
    ∃ u, s = u ++ rest ∧ EndsMarked u ∧ ∀ r, Delimits r → TakesKey (u ++ r) k r := by
  cases h with
  | string hq h =>
    obtain ⟨u, hs, hmarked, hread⟩ := exists_spelling_quoted hq h
    refine ⟨u, hs, hmarked, ?_⟩
    intro r _
    obtain ⟨v, hv, hr⟩ := hread r
    rw [hv]
    exact .string hq hr
  | @number c _ _ _ hc h =>
    obtain ⟨u, rfl, htoken, hread⟩ := yields_numeral_append h
    refine ⟨c :: u, rfl, endsMarked_token (isBlank_of_isDigit hc) htoken, ?_⟩
    intro r hr
    exact .number hc (hread r (hr.front_eq hrest))
  | name h =>
    obtain rfl := h.eq_append
    exact ⟨_, rfl, h.endsMarked, fun r hr => .name (h.before_delimiter hr)⟩

end

/-! ### Phrases -/

section
variable {scope : List String} {depth : Nat} {p : Phrase} {s t rest : List Char}

theorem spells_number {n : Number} (hstart : startsNumeral s = true)
    (h : Yields (numeral s) n rest) (hrest : Delimits rest) :
    ∃ u, s = u ++ rest ∧ Spells scope depth (.operand (.number n)) u := by
  cases s with
  | nil => cases hstart
  | cons c s =>
    obtain ⟨u, rfl, htoken, hread⟩ := yields_numeral_append h
    refine ⟨c :: u, rfl, endsMarked_token (isBlank_of_startsNumeral hstart) htoken, ?_⟩
    · intro r hr
      have hfront := hr.front_eq hrest
      refine .number ?_ (hread r hfront)
      rcases Bool.or_eq_true_iff.mp hstart with hdigit | hpoint
      · exact Bool.or_eq_true_iff.mpr (.inl hdigit)
      · -- the digit behind a point belongs to the numeral
        obtain ⟨hpoint, hdigit⟩ := Bool.and_eq_true_iff.mp hpoint
        cases hd : (u ++ rest).head? with
        | none =>
          rw [hd] at hdigit
          cases hdigit
        | some d =>
          rw [hd] at hdigit
          have hhead : (u ++ r).head? = some d :=
            head?_of_front_eq (front_append_congr hfront.symm) (continuesToken_of_isDigit hdigit) hd
          have hany : (u ++ r).head?.any Char.isDigit = true := by
            rw [hhead]
            exact hdigit
          exact Bool.or_eq_true_iff.mpr (.inr (Bool.and_eq_true_iff.mpr ⟨hpoint, hany⟩))

/-- A rule that closes a phrase with a mark gives a spelling if the phrase has one. -/
theorem Spells.closing {q : Phrase} {depth' : Nat} {u : List Char} {c : Char}
    (hu : Spells scope depth p u) (opening : List Char) (hc : c ∈ delimiters)
    (hclose : trimStart t = c :: rest)
    (hrule : ∀ {s t rest}, Derives scope depth p s t → trimStart t = c :: rest →
      Derives scope depth' q (opening ++ s) rest) :
    ∃ w, opening ++ (u ++ t) = w ++ rest ∧ Spells scope depth' q w := by
  obtain ⟨g, rfl, hg⟩ := exists_delimiter hc hclose
  refine ⟨opening ++ (u ++ (g ++ [c])), ?_, ?_, ?_⟩
  · simp
  · have hblank : isBlank c = false := Text.isBlank_of_trimStart_eq_cons hclose
    exact (((endsMarked_singleton hblank).append g).append u).append opening
  · intro r _
    obtain ⟨hdelimits, htrim⟩ := hg r
    have h := hrule (hu.derives _ hdelimits) htrim
    simpa using h

/-- A rule that joins two phrases with a mark gives a spelling if both have one. -/
theorem Spells.joining {p' q : Phrase} {u u' : List Char} {c : Char} (hu : Spells scope depth p u)
    (hu' : Spells scope depth p' u') (hc : c ∈ delimiters) (hmark : trimStart t = c :: (u' ++ rest))
    (hrule : ∀ {s t v rest}, Derives scope depth p s t → trimStart t = c :: v →
      Derives scope depth p' v rest → Derives scope depth q s rest) :
    ∃ w, u ++ t = w ++ rest ∧ Spells scope depth q w := by
  obtain ⟨g, rfl, hg⟩ := exists_delimiter hc hmark
  refine ⟨u ++ (g ++ c :: u'), ?_, ?_, ?_⟩
  · simp
  · exact ((hu'.endsMarked.append [c]).append g).append u
  · intro r hr
    obtain ⟨hdelimits, htrim⟩ := hg (u' ++ r)
    have h := hrule (hu.derives _ hdelimits) htrim (hu'.derives r hr)
    simpa using h

/-- A phrase in front of a delimiter is a spelling of its own. -/
theorem Derives.exists_spelling (h : Derives scope depth p s rest) (hrest : Delimits rest) :
    ∃ u, s = u ++ rest ∧ Spells scope depth p u := by
  induction h with
  | @blank _ _ b _ _ hb _ ih =>
    obtain ⟨u, rfl, hu⟩ := ih hrest
    exact ⟨b :: u, rfl, hu.endsMarked.append [b], fun r hr => .blank hb (hu.derives r hr)⟩
  | number hstart h => exact spells_number hstart h hrest
  | string hq h =>
    obtain ⟨u, hs, hmarked, hread⟩ := exists_spelling_quoted hq h
    refine ⟨u, hs, hmarked, ?_⟩
    intro r _
    obtain ⟨v, hv, hr⟩ := hread r
    rw [hv]
    exact .string hq hr
  | template h =>
    obtain ⟨u, rfl, hread⟩ := yields_template_append h
    refine ⟨'\x60' :: u ++ ['\x60'], ?_, (endsMarked_singleton rfl).append _, ?_⟩
    · simp
    · intro r _
      rw [List.append_assoc]
      exact .template (hread r)
  | name hname h =>
    obtain rfl := hname.eq_append
    exact ⟨_, rfl, hname.endsMarked, fun r hr => .name (hname.before_delimiter hr) h⟩
  | plus _ ih =>
    obtain ⟨u, rfl, hu⟩ := ih hrest
    exact ⟨'+' :: u, rfl, hu.endsMarked.append ['+'], fun r hr => .plus (hu.derives r hr)⟩
  | minus _ ih =>
    obtain ⟨u, rfl, hu⟩ := ih hrest
    exact ⟨'-' :: u, rfl, hu.endsMarked.append ['-'], fun r hr => .minus (hu.derives r hr)⟩
  | group _ hclose ih =>
    have hmem : ')' ∈ delimiters := by decide
    obtain ⟨u, rfl, hu⟩ := ih (delimits_of_trimStart hmem hclose)
    exact hu.closing ['('] hmem hclose .group
  | array _ ih =>
    obtain ⟨u, rfl, hu⟩ := ih hrest
    exact ⟨'[' :: u, rfl, hu.endsMarked.append ['['], fun r hr => .array (hu.derives r hr)⟩
  | object _ ih =>
    obtain ⟨u, rfl, hu⟩ := ih hrest
    exact ⟨'\x7b' :: u, rfl, hu.endsMarked.append ['\x7b'], fun r hr => .object (hu.derives r hr)⟩
  | expression _ _ ih =>
    obtain ⟨u, rfl, hu⟩ := ih hrest
    exact ⟨u, rfl, hu.endsMarked, fun r hr => .expression (hu.derives r hr) hr.ends⟩
  | noItems => exact ⟨[']'], rfl, endsMarked_singleton rfl, fun r _ => .noItems⟩
  | hole _ ih =>
    obtain ⟨u, rfl, hu⟩ := ih hrest
    exact ⟨',' :: u, rfl, hu.endsMarked.append [','], fun r hr => .hole (hu.derives r hr)⟩
  | lastItem _ hclose ih =>
    have hmem : ']' ∈ delimiters := by decide
    obtain ⟨u, rfl, hu⟩ := ih (delimits_of_trimStart hmem hclose)
    exact hu.closing [] hmem hclose .lastItem
  | item _ hcomma _ ih ihmore =>
    have hmem : ',' ∈ delimiters := by decide
    obtain ⟨u, rfl, hu⟩ := ih (delimits_of_trimStart hmem hcomma)
    obtain ⟨u', rfl, hu'⟩ := ihmore hrest
    exact hu.joining hu' hmem hcomma .item
  | pair hkey hcolon _ ih =>
    have hmem : ':' ∈ delimiters := by decide
    obtain ⟨u, rfl, hmarked, hread⟩ := hkey.exists_spelling (delimits_of_trimStart hmem hcolon)
    obtain ⟨u', rfl, hu'⟩ := ih hrest
    obtain ⟨g, rfl, hg⟩ := exists_delimiter hmem hcolon
    refine ⟨u ++ (g ++ ':' :: u'), ?_, ?_, ?_⟩
    · simp
    · exact ((hu'.endsMarked.append [':']).append g).append u
    · intro r hr
      obtain ⟨hdelimits, htrim⟩ := hg (u' ++ r)
      have h := Derives.pair (hread _ hdelimits) htrim (hu'.derives r hr)
      simpa using h
  | bareKey hkey h =>
    obtain ⟨u, rfl, hmarked, hread⟩ := hkey.exists_spelling hrest
    exact ⟨u, rfl, hmarked, fun r hr => .bareKey (hread r hr) h⟩
  | noEntries => exact ⟨['\x7d'], rfl, endsMarked_singleton rfl, fun r _ => .noEntries⟩
  | lastEntry _ hclose ih =>
    have hmem : '\x7d' ∈ delimiters := by decide
    obtain ⟨u, rfl, hu⟩ := ih (delimits_of_trimStart hmem hclose)
    exact hu.closing [] hmem hclose .lastEntry
  | entry _ hcomma _ ih ihmore =>
    have hmem : ',' ∈ delimiters := by decide
    obtain ⟨u, rfl, hu⟩ := ih (delimits_of_trimStart hmem hcomma)
    obtain ⟨u', rfl, hu'⟩ := ihmore hrest
    exact hu.joining hu' hmem hcomma .entry

/-- An expression has a value exactly if it is spelled in front of blanks. -/
theorem evaluate_eq_ok_iff_spells {setting : Setting} {v : Literal} :
    evaluate setting s = .ok v ↔
      ∃ u blanks, s = u ++ blanks ∧ isBlankText blanks = true ∧
        Spells setting.scope setting.limit (.expression v) u := by
  rw [evaluate_eq_ok_iff]
  constructor
  · rintro ⟨blanks, h, hblank⟩
    obtain ⟨u, hs, hu⟩ := h.exists_spelling (delimits_of_isBlankText hblank)
    exact ⟨u, blanks, hs, hblank, hu⟩
  · rintro ⟨u, blanks, rfl, hblank, hu⟩
    exact ⟨blanks, hu.derives blanks (delimits_of_isBlankText hblank), hblank⟩

/-- Blanks behind an expression do not matter to its value. -/
theorem evaluate_trimEnd_eq_ok_iff {setting : Setting} {v : Literal} :
    evaluate setting (trimEnd s) = .ok v ↔ evaluate setting s = .ok v := by
  rw [evaluate_eq_ok_iff_spells, evaluate_eq_ok_iff_spells]
  constructor
  · rintro ⟨u, blanks, hs, hblank, hu⟩
    obtain ⟨w, hw, heq⟩ := Text.exists_eq_trimEnd_append s
    refine ⟨u, blanks ++ w, ?_, ?_, hu⟩
    · rw [← List.append_assoc, ← hs]
      exact heq
    · rw [isBlankText, List.all_append, Bool.and_eq_true_iff]
      exact ⟨hblank, hw⟩
  · rintro ⟨u, blanks, rfl, hblank, hu⟩
    rw [hu.endsMarked.trimEnd_append hblank]
    exact ⟨u, [], (List.append_nil u).symm, rfl, hu⟩

theorem toOption_evaluate_trimEnd {setting : Setting} :
    (evaluate setting (trimEnd s)).toOption = (evaluate setting s).toOption := by
  have hmem : ∀ {x : Except (Fault Nat) Literal} {v : Literal},
      x.toOption = some v ↔ x = .ok v := by
    intro x v
    cases x <;> simp [Except.toOption]
  apply Option.ext
  intro v
  rw [hmem, hmem]
  exact evaluate_trimEnd_eq_ok_iff

end

end DocComments.Expression
