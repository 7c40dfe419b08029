import DocComments.Proofs.Expression.WalkToken

/-!
# Walks over expressions

The walk over a whole expression has a result, and it is the one of the evaluator: whatever a
setting and a text are, every position that it comes to stands between two characters. So a fault
that names a character gives the position of that character, and what is left behind an expression
is an end of the text.
-/

namespace DocComments.Expression
open Text (byteSize Found trimStart firstMark afterMark)
open Unicode (isBlank)

theorem firstMark_trimStart (s : List Char) : firstMark (trimStart s) = firstMark s :=
  congrArg List.head? (Text.trimStart_trimStart s)

theorem afterMark_trimStart (s : List Char) : afterMark (trimStart s) = afterMark s :=
  congrArg List.tail (Text.trimStart_trimStart s)

/-- From wherever it starts, a walk over a value gives what a reader gives for the text from there
on. -/
def Agrees (text : List Char) (walk : Walk Literal) (value : Reader) : Prop :=
  ∀ s, s <:+ text → Runs text walk s (outcome (value s))

/-! ### Values inside values -/

section
variable {text s : List Char} {walk : Walk Literal} {value : Reader}

/-- Behind a value a walk looks whether something goes on with it. -/
theorem runs_closed (hvalue : Agrees text walk value) (hs : s <:+ text) :
    Runs text (Walk.closed text walk) s (trimmed (closed value s)) := by
  refine (hvalue s hs).bind_result (fun _ h => by rw [closed, h]; rfl) fun f hread htext => ?_
  rw [closed, hread]
  refine runs_mark? htext (fun hmark hnil => ?_) fun c hmark hcons hc => ?_
  · have hrest : trimStart f.rest = [] := List.head?_eq_none_iff.mp hmark
    simp only [hmark]
    rw [← hrest] at hnil ⊢
    exact .pure hnil _
  · simp only [hmark]
    cases hcontinues : continuesValue c with
    | true => exact runs_continued hcons hc
    | false =>
      have hrest := Text.trimStart_eq_of_firstMark hmark
      rw [← hrest] at hcons ⊢
      exact .pure hcons _

/-- What stands behind an element of a list: the closing bracket, or a comma and further
elements. -/
theorem runs_behind {α : Type} {f : Found α s} {closing : Char} {others : Walk (List α)}
    (more : (u : List Char) → Result (List α) (trimStart u))
    (htext : trimStart f.rest <:+ text)
    (hothers : afterMark f.rest <:+ text →
      Runs text others (afterMark f.rest) (outcome (more (afterMark f.rest)))) :
    Runs text
      (Walk.skipBlanks text >>= fun _ => Walk.bumpOr text .unexpectedEnd >>= fun d =>
        if d = ',' then others >>= fun behind => pure (f.value :: behind)
        else if d = closing then pure [f.value]
        else Walk.unexpectedBehind d)
      (trimStart f.rest)
      (outcome
        (match firstMark f.rest with
          | none => .error .unexpectedEnd
          | some d =>
            if d = ',' then
              (more (afterMark f.rest)).map fun g =>
                f.after
                  ((g.map (f.value :: ·)).within (Text.length_trimStart_afterMark_le f.rest))
            else if d = closing then
              .ok ((f.leaving (afterMark f.rest) (Text.length_afterMark_le f.rest)).map ([·]))
            else .error (.unexpectedChar d (trimStart f.rest)) : Result (List α) s)) := by
  refine runs_mark_bump htext (fun hmark => ?_) fun d hmark hcons => ?_
  · rw [firstMark_trimStart] at hmark
    rw [hmark]
    rfl
  · rw [firstMark_trimStart] at hmark
    rw [afterMark_trimStart] at hcons ⊢
    rw [hmark]
    have hrest := (List.suffix_cons _ _).trans hcons
    by_cases hcomma : d = ','
    · simp only [if_pos hcomma]
      exact (hothers hrest).map_result (fun _ => rfl) fun _ => rfl
    by_cases hclose : d = closing
    · simp only [if_neg hcomma, if_pos hclose]
      exact .pure hrest _
    · simp only [if_neg hcomma, if_neg hclose]
      rw [Text.trimStart_eq_of_firstMark hmark]
      exact runs_unexpectedBehind hcons

/-- The items of an array, by induction on the rounds that are left: each passes an item or a
comma. -/
theorem runs_items {rounds : Nat} (hvalue : Agrees text walk value) (hs : s <:+ text)
    (hrounds : s.length < rounds) :
    Runs text (Walk.items text walk rounds) s (outcome (items value (trimStart s))) := by
  induction rounds generalizing s with
  | zero => exact absurd hrounds (Nat.not_lt_zero _)
  | succ rounds ih =>
    refine runs_mark hs (fun hmark => ?_) fun c hmark hcons => ?_
    · rw [List.head?_eq_none_iff.mp hmark, items]
      rfl
    · have htrim := Text.trimStart_eq_of_firstMark hmark
      have hlength := Text.length_trimStart_le s
      rw [htrim, List.length_cons] at hlength
      have hrest := (List.suffix_cons _ _).trans hcons
      rw [htrim, items]
      by_cases hclose : c = ']'
      · simp only [if_pos hclose]
        exact (runs_bump hcons).bind_ok (.pure hrest [])
      by_cases hcomma : c = ','
      · simp only [if_neg hclose, if_pos hcomma]
        exact (runs_bump hcons).bind_ok
          ((ih hrest (by omega)).map_result (fun _ => rfl) fun _ => rfl)
      simp only [if_neg hclose, if_neg hcomma]
      refine (runs_ahead hcons).bind_ok ?_
      by_cases hspread : startsSpread (c :: afterMark s) = true
      · simp only [if_pos hspread]
        exact .throw _ rfl trivial
      simp only [if_neg hspread]
      refine (runs_closed hvalue hcons).bind_result (fun _ h => by rw [h]; rfl)
        fun f hread htext => ?_
      have hshorter := f.shorter
      have hbehind := Text.length_afterMark_le f.rest
      rw [List.length_cons] at hshorter
      rw [hread]
      exact runs_behind (fun u => items value (trimStart u)) htext fun h =>
        ih h (by omega)

end

section
variable {text s : List Char} {c : Char} {scope : List String} {walk : Walk Literal}
  {value : Reader}

/-- A name reaches as far as its characters do. -/
theorem runs_name_cons (hs : c :: s <:+ text) (hc : isNameStart c = true) :
    Runs text (Walk.name text) (c :: s)
      (.ok (String.ofList (c :: s.takeWhile isNamePart), s.dropWhile isNamePart)) := by
  have hname := runs_name hs
  rwa [List.takeWhile_cons_of_pos (isNamePart_of_isNameStart hc),
    List.dropWhile_cons_of_pos (isNamePart_of_isNameStart hc)] at hname

theorem runs_key (hs : c :: s <:+ text) :
    Runs text (Walk.key text c) (c :: s) (outcome (key c s)) := by
  rw [Walk.key, key]
  by_cases hquote : (c = '\x27' || c = '\x22') = true
  · simp only [if_pos hquote]
    exact (runs_string hs).map_result (fun _ => rfl) fun _ => rfl
  by_cases hbracket : c = '['
  · simp only [if_neg hquote, if_pos hbracket]
    exact .throw _ rfl trivial
  simp only [if_neg hquote, if_neg hbracket]
  refine (runs_ahead hs).bind_ok ?_
  by_cases hspread : startsSpread (c :: s) = true
  · simp only [if_pos hspread]
    exact .throw _ rfl trivial
  by_cases hdigit : c.isDigit = true
  · simp only [if_neg hspread, if_pos hdigit]
    exact (runs_number hs (.inl hdigit)).map_result (fun _ => rfl) fun _ => rfl
  by_cases hname : isNameStart c = true
  · simp only [if_neg hspread, if_neg hdigit, if_pos hname]
    exact runs_name_cons hs hname
  · simp only [if_neg hspread, if_neg hdigit, if_neg hname]
    exact runs_unexpected hs

theorem runs_entryBehind (hvalue : Agrees text walk value)
    (k : Found String s) (hk : k.rest <:+ text) :
    Runs text (Walk.entryBehind text scope walk k.value) k.rest
      (trimmed (entryAfterKey scope value k)) := by
  rw [entryAfterKey]
  refine runs_mark hk (fun hmark => ?_) fun c hmark hcons => ?_
  · simp only [hmark]
    rfl
  · have htrim := Text.trimStart_eq_of_firstMark hmark
    simp only [hmark]
    by_cases hcolon : c = ':'
    · simp only [if_pos hcolon]
      exact (runs_bump hcons).bind_ok <|
        (runs_closed hvalue ((List.suffix_cons _ _).trans hcons)).map_result
          (fun _ => rfl) fun _ => rfl
    by_cases hends : (c = ',' || c = '\x7d') = true
    · simp only [if_neg hcolon, if_pos hends]
      have hnamed := runs_named scope k.value hcons
      cases hread : valueOfName scope k.value with
      | error fault =>
        rw [hread] at hnamed
        exact hnamed.bind_error
      | ok v =>
        rw [hread] at hnamed
        change Runs text _ _ (.ok ((k.value, v), trimStart k.rest))
        rw [htrim]
        exact hnamed.bind_ok (.pure hcons _)
    by_cases hparen : c = '('
    · simp only [if_neg hcolon, if_neg hends, if_pos hparen]
      exact .throw _ rfl trivial
    · simp only [if_neg hcolon, if_neg hends, if_neg hparen]
      rw [htrim]
      exact runs_unexpected hcons

/-- The entries of an object, by induction on the rounds that are left: each passes an entry. -/
theorem runs_entries {rounds : Nat} (hvalue : Agrees text walk value) (hs : s <:+ text)
    (hrounds : s.length < rounds) :
    Runs text (Walk.entries text scope walk rounds) s
      (outcome (entries scope value (trimStart s))) := by
  induction rounds generalizing s with
  | zero => exact absurd hrounds (Nat.not_lt_zero _)
  | succ rounds ih =>
    refine runs_mark hs (fun hmark => ?_) fun c hmark hcons => ?_
    · rw [List.head?_eq_none_iff.mp hmark, entries]
      rfl
    · have htrim := Text.trimStart_eq_of_firstMark hmark
      have hlength := Text.length_trimStart_le s
      rw [htrim, List.length_cons] at hlength
      rw [htrim, entries, entry]
      by_cases hclose : c = '\x7d'
      · simp only [if_pos hclose]
        exact (runs_bump hcons).bind_ok (.pure ((List.suffix_cons _ _).trans hcons) [])
      simp only [if_neg hclose]
      refine (runs_key hcons).bind_result (fun _ h => by rw [h]; rfl) fun k hkey hrest => ?_
      rw [hkey]
      refine (runs_entryBehind hvalue k hrest).bind_result
        (fun _ h => by simp only [h]; rfl) fun f hread htext => ?_
      have hshorter := f.shorter
      have hbehind := Text.length_afterMark_le f.rest
      rw [List.length_cons] at hshorter
      simp only [hread]
      exact runs_behind (fun u => entries scope value (trimStart u)) htext fun h =>
        ih h (by omega)

/-! ### Values -/

theorem runs_array (hvalue : Agrees text walk value) (hs : c :: s <:+ text) :
    Runs text (Walk.array text walk) (c :: s) (outcome (array value s)) := by
  have hrest := (List.suffix_cons c s).trans hs
  exact (runs_bump hs).bind_ok <|
    (runs_items hvalue hrest (length_lt_rounds hrest)).map_result (fun _ => rfl) fun _ => rfl

theorem runs_object (hvalue : Agrees text walk value) (hs : c :: s <:+ text) :
    Runs text (Walk.object text scope walk) (c :: s) (outcome (object scope value s)) := by
  have hrest := (List.suffix_cons c s).trans hs
  exact (runs_bump hs).bind_ok <|
    (runs_entries hvalue hrest (length_lt_rounds hrest)).map_result (fun _ => rfl) fun _ => rfl

theorem runs_grouped (hvalue : Agrees text walk value) (hs : c :: s <:+ text) :
    Runs text (Walk.grouped text walk) (c :: s) (outcome (grouped value s)) := by
  refine (runs_bump hs).bind_ok <|
    (runs_closed hvalue ((List.suffix_cons c s).trans hs)).bind_result
      (fun _ h => by rw [grouped, h]; rfl) fun f hread htext => ?_
  simp only [grouped, hread]
  cases hmark : firstMark f.rest with
  | none =>
    rw [← firstMark_trimStart] at hmark
    exact (runs_expect_none htext hmark).bind_error
  | some d =>
    rw [← firstMark_trimStart] at hmark
    by_cases hd : d = ')'
    · subst hd
      have hexpect := runs_expect htext hmark
      rw [afterMark_trimStart] at hexpect
      exact hexpect.bind_ok (.pure hexpect.2 _)
    · have hexpect := runs_expect_other htext hmark hd
      rw [Text.trimStart_trimStart] at hexpect
      simp only [if_neg hd]
      exact hexpect.bind_error

theorem runs_signed (negative : Bool) (hvalue : Agrees text walk value) (hs : s <:+ text) :
    Runs text (Walk.signed negative walk) s (outcome (signed negative value s)) := by
  refine (hvalue s hs).bind_result (fun _ h => by rw [signed, h]; rfl) fun f hread htext => ?_
  rw [signed, hread]
  cases hfound : f.value with
  | number n =>
    simp only [hfound]
    exact .pure htext _
  | _ =>
    simp only [hfound]
    exact .throw _ rfl trivial

/-- There is a walk for the levels inside exactly if there is a reader for them. -/
theorem runs_inside {limit : Nat} {t : List Char} {walk? : Option (Walk Literal)}
    {value? : Option Reader} {step : Walk Literal → Walk Literal} {read : Reader → Reader}
    (hinside : Option.Rel (Agrees text) walk? value?)
    (hstep : ∀ {walk value}, Agrees text walk value →
      Runs text (step walk) t (outcome (read value s))) :
    Runs text (Walk.inside limit walk? step) t (outcome (inside limit value? read c s)) := by
  cases hinside with
  | none => exact .throw _ rfl trivial
  | some h => exact (hstep h).of_result (fun _ => rfl) fun _ => rfl

theorem runs_valueFrom {setting : Setting} {walk? : Option (Walk Literal)}
    {value? : Option Reader} (hinside : Option.Rel (Agrees text) walk? value?) (hs : c :: s <:+ text) :
    Runs text (Walk.valueFrom text setting walk? c) (c :: s)
      (outcome (valueFrom setting value? c s)) := by
  rw [Walk.valueFrom, valueFrom]
  by_cases hsign : (c = '-' || c = '+') = true
  · simp only [if_pos hsign]
    exact (runs_bump hs).bind_ok <|
      runs_inside hinside fun h => runs_signed _ h ((List.suffix_cons c s).trans hs)
  by_cases hoperator : (c = '!' || c = '~') = true
  · simp only [if_neg hsign, if_pos hoperator]
    exact .throw _ rfl trivial
  simp only [if_neg hsign, if_neg hoperator]
  refine (runs_ahead hs).bind_ok ?_
  change Runs text
    (if (c.isDigit || (c == '.' && s.head?.any Char.isDigit)) = true then _ else _) _ _
  by_cases hnumber : (c.isDigit || (c == '.' && s.head?.any Char.isDigit)) = true
  · have hstart : c.isDigit = true ∨ c = '.' := by
      rw [Bool.or_eq_true, Bool.and_eq_true, beq_iff_eq] at hnumber
      exact hnumber.imp_right And.left
    simp only [if_pos hnumber]
    exact (runs_number hs hstart).map_result (fun _ => rfl) fun _ => rfl
  simp only [if_neg hnumber]
  by_cases hquote : (c = '\x27' || c = '\x22') = true
  · simp only [if_pos hquote]
    exact (runs_string hs).map_result (fun _ => rfl) fun _ => rfl
  by_cases htemplate : c = '\x60'
  · subst htemplate
    exact (runs_template hs).map_result (fun _ => rfl) fun _ => rfl
  by_cases hbracket : c = '['
  · simp only [if_neg hquote, if_neg htemplate, if_pos hbracket]
    exact runs_inside hinside fun h => runs_array h hs
  by_cases hbrace : c = '\x7b'
  · simp only [if_neg hquote, if_neg htemplate, if_neg hbracket, if_pos hbrace]
    exact runs_inside hinside fun h => runs_object h hs
  by_cases hparen : c = '('
  · simp only [if_neg hquote, if_neg htemplate, if_neg hbracket, if_neg hbrace, if_pos hparen]
    exact runs_inside hinside fun h => runs_grouped h hs
  by_cases hname : isNameStart c = true
  · simp only [if_neg hquote, if_neg htemplate, if_neg hbracket, if_neg hbrace, if_neg hparen,
      if_pos hname]
    have hword := runs_name_cons hs hname
    refine hword.bind_ok ?_
    have hnamed := runs_named setting.scope (String.ofList (c :: s.takeWhile isNamePart)) hword.2
    cases hread : valueOfName setting.scope (String.ofList (c :: s.takeWhile isNamePart)) with
    | error fault => rwa [hread] at hnamed
    | ok v => rwa [hread] at hnamed
  · simp only [if_neg hquote, if_neg htemplate, if_neg hbracket, if_neg hbrace, if_neg hparen,
      if_neg hname]
    exact runs_unexpected hs

theorem level_of_firstMark_none {setting : Setting} {value? : Option Reader}
    (h : firstMark s = none) : level setting value? s = .error .unexpectedEnd := by
  unfold level
  split
  · rfl
  · rename_i htrim
    rw [firstMark_of_trimStart htrim] at h
    cases h

theorem level_of_firstMark (setting : Setting) (value? : Option Reader) (h : firstMark s = some c) :
    ∃ hle : (c :: afterMark s).length ≤ s.length, level setting value? s =
      (valueFrom setting value? c (afterMark s)).map fun f => f.within hle := by
  rw [firstMark_eq_some_iff] at h
  unfold level
  split
  · rename_i htrim
    rw [h] at htrim
    cases htrim
  · rename_i htrim
    cases htrim.symm.trans h
    exact ⟨Text.length_le_of_trimStart_eq_cons h, rfl⟩

theorem runs_level {setting : Setting} {walk? : Option (Walk Literal)} {value? : Option Reader}
    (hinside : Option.Rel (Agrees text) walk? value?) (hs : s <:+ text) :
    Runs text (Walk.level text setting walk?) s (outcome (level setting value? s)) := by
  refine runs_mark hs (fun hmark => ?_) fun c hmark hcons => ?_
  · rw [level_of_firstMark_none hmark]
    rfl
  · obtain ⟨hle, hlevel⟩ := level_of_firstMark setting value? hmark
    rw [hlevel]
    exact (runs_valueFrom hinside hcons).of_result (fun _ => rfl) fun _ => rfl

/-- The walk and the reader for values agree, by induction on the levels. -/
theorem agrees_value (setting : Setting) (depth : Nat) :
    Agrees text (Walk.value text setting depth) (Expression.value setting depth) := by
  induction depth with
  | zero => exact fun _ => runs_level .none
  | succ depth ih => exact fun _ => runs_level (.some ih)

end

/-! ### The whole text -/

section
variable (setting : Setting) (text : List Char)

/-- The walk over the whole text comes to what the evaluator gives. -/
theorem exists_runs_expression :
    ∃ outcome : Outcome Literal, Runs text (Walk.expression text setting) text outcome ∧
      evaluate setting text = Except.map Prod.fst (outcome.located text) := by
  have hclosed := runs_closed (agrees_value setting setting.limit) (List.suffix_refl text)
  cases hread : closed (value setting setting.limit) text with
  | error fault =>
    rw [hread] at hclosed
    exact ⟨.error fault, hclosed.bind_error, by rw [evaluate, hread]; rfl⟩
  | ok f =>
    rw [hread] at hclosed
    cases hmark : firstMark f.rest with
    | none =>
      refine ⟨.ok (f.value, []), hclosed.bind_ok (runs_mark? hclosed.2 (fun _ hnil => ?_) ?_), ?_⟩
      · exact .pure hnil _
      · intro c hc
        rw [firstMark_trimStart, hmark] at hc
        cases hc
      · rw [evaluate, hread]
        simp only [hmark]
        rfl
    | some c =>
      refine ⟨.error (continuation c (afterMark f.rest)),
        hclosed.bind_ok (runs_mark? hclosed.2 ?_ fun d hd hcons hblank => ?_), ?_⟩
      · intro hnone
        rw [firstMark_trimStart, hmark] at hnone
        cases hnone
      · rw [firstMark_trimStart, hmark] at hd
        cases hd
        rw [afterMark_trimStart] at hcons ⊢
        exact runs_continued hcons hblank
      · rw [evaluate, hread]
        simp only [hmark]
        rfl

/-- A fault of the evaluator is told by one that points into the text. -/
theorem exists_pointsInto_of_evaluate {found : Fault Nat}
    (h : evaluate setting text = .error found) :
    ∃ fault : Fault (List Char), found = fault.inText text ∧ fault.PointsInto text := by
  obtain ⟨outcome, hruns, heval⟩ := exists_runs_expression setting text
  rw [heval] at h
  cases outcome with
  | ok found => cases h
  | error fault =>
    cases h
    exact ⟨fault, rfl, hruns.2⟩

/-- By positions the evaluator finds what it finds by the text that is left, and never comes to a
position inside a character. A character that it did not expect stands at the position that it
tells, and what it tells to be left behind an expression is an end of the text that does not start
with a blank. -/
theorem fault_points_into_text :
    evaluateByPosition setting text = some (evaluate setting text) ∧
      (∀ c position, evaluate setting text = .error (.unexpectedChar c position) →
        ∃ front rest, text = front ++ c :: rest ∧ byteSize front = position) ∧
      (∀ rest, evaluate setting text = .error (.trailing rest) →
        rest.toList <:+ text ∧ ∃ c, rest.toList.head? = some c ∧ isBlank c = false) := by
  refine ⟨?_, fun c position h => ?_, fun rest h => ?_⟩
  · obtain ⟨outcome, hruns, heval⟩ := exists_runs_expression setting text
    have hstart : offset text text = 0 := Nat.sub_self _
    rw [evaluateByPosition, ← hstart, hruns.1, heval]
    rfl
  · obtain ⟨fault, hfault, hinto⟩ := exists_pointsInto_of_evaluate setting text h
    cases fault <;> cases hfault
    rename_i place
    obtain ⟨⟨front, htext⟩, hplace⟩ := hinto
    obtain ⟨rest, rfl⟩ := List.head?_eq_some_iff.mp hplace
    refine ⟨front, rest, htext.symm, ?_⟩
    change _ = offset text (c :: rest)
    rw [← htext, offset_append]
  · obtain ⟨fault, hfault, hinto⟩ := exists_pointsInto_of_evaluate setting text h
    cases fault <;> cases hfault
    exact hinto

theorem fault_points_into_text_guillemets :
    (evaluate ⟨[], defaultLimit⟩ "\x27é\\x1«\x27".toList = .error (.unexpectedChar '«' 6) ∧
      ∃ front rest, "\x27é\\x1«\x27".toList = front ++ '«' :: rest ∧ byteSize front = 6) ∧
    (evaluate ⟨["état"], defaultLimit⟩ "état «»".toList = .error (.trailing "«»") ∧
      "«»".toList <:+ "état «»".toList ∧ ∃ c, "«»".toList.head? = some c ∧ isBlank c = false) := by
  have hquoted : quoted '\x27' "é\\x1«\x27".toList =
      .error (.unexpectedChar '«' "«\x27".toList) := by
    change quoted '\x27' ['é', '\\', 'x', '1', '«', '\x27'] = _
    rw [quoted, quoted]
    rfl
  have hvalue : value ⟨[], defaultLimit⟩ defaultLimit "\x27é\\x1«\x27".toList =
      .error (.unexpectedChar '«' "«\x27".toList) := by
    refine value_eq_error (c := '\x27') (s := "é\\x1«\x27".toList) rfl ?_
    change (quoted '\x27' "é\\x1«\x27".toList).map _ = _
    rw [hquoted]
    rfl
  have hunexpected : evaluate ⟨[], defaultLimit⟩ "\x27é\\x1«\x27".toList =
      .error (.unexpectedChar '«' 6) := by
    rw [evaluate, closed, hvalue]
    rfl
  have htrailing : evaluate ⟨["état"], defaultLimit⟩ "état «»".toList =
      .error (.trailing "«»") :=
    rfl
  exact ⟨⟨hunexpected, (fault_points_into_text _ _).2.1 _ _ hunexpected⟩,
    htrailing, (fault_points_into_text _ _).2.2 _ htrailing⟩

end

end DocComments.Expression
