import DocComments.Proofs.Expression.Evaluation
import DocComments.Proofs.Literal.Plain
import DocComments.Proofs.Signature.Arguments

/-!
# Larger settings

What becomes of an answer if more names are in scope, or if values may be nested deeper: it stands,
unless it is the one fault that the larger setting takes away. Every reader keeps this relation of
the readers it is built from, whatever the sort of fault, so both laws are cases of one. How deep a
value can be nested follows from the grammar.
-/

namespace DocComments.Expression
open Text (Found firstMark afterMark trimStart)

/-- The second answer is the first, unless that is a fault of the given sort. -/
def Stands {α : Type} (sort : Fault (List Char) → Prop) (x y : Except (Fault (List Char)) α) :
    Prop :=
  y = x ∨ ∃ e, x = .error e ∧ sort e

section
variable {sort : Fault (List Char) → Prop} {α β : Type} {x y : Except (Fault (List Char)) α}

theorem Stands.refl (x : Except (Fault (List Char)) α) : Stands sort x x :=
  .inl rfl

theorem Stands.map (h : Stands sort x y) (f : α → β) : Stands sort (x.map f) (y.map f) := by
  rcases h with rfl | ⟨e, rfl, he⟩
  · exact .refl _
  · exact .inr ⟨e, rfl, he⟩

theorem Stands.ite {x' y' : Except (Fault (List Char)) α} {c : Prop} [Decidable c]
    (hpos : c → Stands sort x y) (hneg : ¬ c → Stands sort x' y') :
    Stands sort (if c then x else x') (if c then y else y') := by
  by_cases hc : c
  · rw [if_pos hc, if_pos hc]
    exact hpos hc
  · rw [if_neg hc, if_neg hc]
    exact hneg hc

end

/-! ### Readers -/

section
variable {sort : Fault (List Char) → Prop}

/-- Behind an element of a list only what is read of the further elements can differ. -/
theorem stands_behind {α : Type} {s : List Char} {f : Found α s} {closing : Char}
    (more more' : (u : List Char) → Result (List α) (trimStart u))
    (hmore : Stands sort (more (afterMark f.rest)) (more' (afterMark f.rest))) :
    Stands sort
      (match firstMark f.rest with
        | none => .error .unexpectedEnd
        | some d =>
          if d = ',' then
            (more (afterMark f.rest)).map fun g =>
              f.after
                ((g.map (f.value :: ·)).within (Text.length_trimStart_afterMark_le f.rest))
          else if d = closing then
            .ok ((f.leaving (afterMark f.rest) (Text.length_afterMark_le f.rest)).map ([·]))
          else .error (.unexpectedChar d (trimStart f.rest)) : Result (List α) s)
      (match firstMark f.rest with
        | none => .error .unexpectedEnd
        | some d =>
          if d = ',' then
            (more' (afterMark f.rest)).map fun g =>
              f.after
                ((g.map (f.value :: ·)).within (Text.length_trimStart_afterMark_le f.rest))
          else if d = closing then
            .ok ((f.leaving (afterMark f.rest) (Text.length_afterMark_le f.rest)).map ([·]))
          else .error (.unexpectedChar d (trimStart f.rest)) : Result (List α) s) := by
  cases firstMark f.rest with
  | none => exact .refl _
  | some d => exact .ite (fun _ => hmore.map _) fun _ => .refl _

variable {value value' : Reader} (hvalue : ∀ s, Stands sort (value s) (value' s))
include hvalue

theorem stands_closed (s : List Char) : Stands sort (closed value s) (closed value' s) := by
  unfold closed
  rcases hvalue s with heq | ⟨e, he, hsort⟩
  · rw [heq]
    exact .refl _
  · rw [he]
    exact .inr ⟨e, rfl, hsort⟩

theorem stands_grouped (s : List Char) : Stands sort (grouped value s) (grouped value' s) := by
  unfold grouped
  rcases stands_closed hvalue s with heq | ⟨e, he, hsort⟩
  · rw [heq]
    exact .refl _
  · rw [he]
    exact .inr ⟨e, rfl, hsort⟩

theorem stands_signed (negative : Bool) (s : List Char) :
    Stands sort (signed negative value s) (signed negative value' s) := by
  unfold signed
  rcases hvalue s with heq | ⟨e, he, hsort⟩
  · rw [heq]
    exact .refl _
  · rw [he]
    exact .inr ⟨e, rfl, hsort⟩

/-- The items of an array, by induction on the length of the text. -/
theorem stands_items (s : List Char) : Stands sort (items value s) (items value' s) := by
  induction hn : s.length using Nat.strongRecOn generalizing s with
  | ind n ih =>
    cases s with
    | nil =>
      rw [items, items]
      exact .refl _
    | cons c s =>
      rw [List.length_cons] at hn
      rw [items, items]
      refine .ite (fun _ => .refl _) fun _ => .ite (fun _ => ?_) fun _ =>
        .ite (fun _ => .refl _) fun _ => ?_
      · have hlen := Text.length_trimStart_le s
        exact (ih _ (by omega) (trimStart s) rfl).map _
      rcases stands_closed hvalue (c :: s) with heq | ⟨e, he, hsort⟩
      · rw [heq]
        cases hread : closed value (c :: s) with
        | error e => exact .refl _
        | ok f =>
          have hlen := Text.length_trimStart_afterMark_le f.rest
          have hshorter := f.shorter
          rw [List.length_cons] at hshorter
          exact stands_behind (fun u => items value (trimStart u))
            (fun u => items value' (trimStart u)) (ih _ (by omega) _ rfl)
      · rw [he]
        exact .inr ⟨e, rfl, hsort⟩

theorem stands_array (s : List Char) : Stands sort (array value s) (array value' s) :=
  (stands_items hvalue (trimStart s)).map _

variable {scope scope' : List String}
  (hname : ∀ name, Stands sort (valueOfName scope name) (valueOfName scope' name))
include hname

theorem stands_entryAfterKey {s : List Char} (k : Found String s) :
    Stands sort (entryAfterKey scope value k) (entryAfterKey scope' value' k) := by
  unfold entryAfterKey
  cases firstMark k.rest with
  | none => exact .refl _
  | some c =>
    refine .ite (fun _ => (stands_closed hvalue _).map _) fun _ =>
      .ite (fun _ => ?_) fun _ => .refl _
    rcases hname k.value with heq | ⟨e, he, hsort⟩
    · rw [heq]
      exact .refl _
    · rw [he]
      exact .inr ⟨e, rfl, hsort⟩

theorem stands_entry (c : Char) (s : List Char) :
    Stands sort (entry scope value c s) (entry scope' value' c s) := by
  unfold entry
  cases key c s with
  | error e => exact .refl _
  | ok k => exact stands_entryAfterKey hvalue hname k

/-- The entries of an object, by induction on the length of the text. -/
theorem stands_entries (s : List Char) :
    Stands sort (entries scope value s) (entries scope' value' s) := by
  induction hn : s.length using Nat.strongRecOn generalizing s with
  | ind n ih =>
    cases s with
    | nil =>
      rw [entries, entries]
      exact .refl _
    | cons c s =>
      rw [List.length_cons] at hn
      rw [entries, entries]
      refine .ite (fun _ => .refl _) fun _ => ?_
      rcases stands_entry hvalue hname c s with heq | ⟨e, he, hsort⟩
      · rw [heq]
        cases hread : entry scope value c s with
        | error e => exact .refl _
        | ok f =>
          have hlen := Text.length_trimStart_afterMark_le f.rest
          have hshorter := f.shorter
          rw [List.length_cons] at hshorter
          exact stands_behind (fun u => entries scope value (trimStart u))
            (fun u => entries scope' value' (trimStart u)) (ih _ (by omega) _ rfl)
      · rw [he]
        exact .inr ⟨e, rfl, hsort⟩

theorem stands_object (s : List Char) :
    Stands sort (object scope value s) (object scope' value' s) :=
  (stands_entries hvalue hname (trimStart s)).map _

end

/-! ### Levels -/

section
variable {sort : Fault (List Char) → Prop} (setting setting' : Setting)
  (hname : ∀ name, Stands sort (valueOfName setting.scope name) (valueOfName setting'.scope name))
include hname

/-- A value stands if whatever is read behind an opening character does. -/
theorem stands_valueFrom {value? value?' : Option Reader}
    (hinside : ∀ {read read' : Reader → Reader},
      (∀ {value value'}, (∀ s, Stands sort (value s) (value' s)) →
        ∀ s, Stands sort (read value s) (read' value' s)) →
      ∀ c s, Stands sort (inside setting.limit value? read c s)
        (inside setting'.limit value?' read' c s))
    (c : Char) (s : List Char) :
    Stands sort (valueFrom setting value? c s) (valueFrom setting' value?' c s) := by
  unfold valueFrom
  refine .ite (fun _ => hinside (fun h => stands_signed h _) c s) fun _ =>
    .ite (fun _ => .refl _) fun _ => .ite (fun _ => .refl _) fun _ =>
    .ite (fun _ => .refl _) fun _ => .ite (fun _ => .refl _) fun _ =>
    .ite (fun _ => hinside stands_array c s) fun _ =>
    .ite (fun _ => hinside (fun h => stands_object h hname) c s) fun _ =>
    .ite (fun _ => hinside stands_grouped c s) fun _ => .ite (fun _ => ?_) fun _ => .refl _
  rcases hname (String.ofList (c :: s.takeWhile isNamePart)) with heq | ⟨e, he, hsort⟩
  · rw [heq]
    exact .refl _
  · rw [he]
    exact .inr ⟨e, rfl, hsort⟩

omit hname in
theorem stands_level {value? value?' : Option Reader}
    (hfrom : ∀ c s, Stands sort (valueFrom setting value? c s) (valueFrom setting' value?' c s))
    (s : List Char) : Stands sort (level setting value? s) (level setting' value?' s) := by
  unfold level
  split
  · exact .refl _
  · exact (hfrom _ _).map _

/-- A value stands with more levels if being nested too deep is a fault of the sort, and with as
many levels in any case. -/
theorem stands_value {depth depth' : Nat} (hle : depth ≤ depth')
    (hdeep : sort (.tooDeep setting.limit) ∨ depth' = depth ∧ setting'.limit = setting.limit)
    (s : List Char) : Stands sort (value setting depth s) (value setting' depth' s) := by
  rw [value_eq_level, value_eq_level]
  induction depth generalizing depth' s with
  | zero =>
    refine stands_level _ _ (stands_valueFrom _ _ hname fun _ c s => ?_) s
    rcases hdeep with hsort | ⟨rfl, hlimit⟩
    · exact .inr ⟨_, rfl, hsort⟩
    · rw [hlimit]
      exact .refl _
  | succ depth ih =>
    obtain ⟨depth', rfl⟩ := Nat.exists_eq_add_of_le' (Nat.le_trans (Nat.succ_pos depth) hle)
    have hinner : ∀ t, Stands sort (value setting depth t) (value setting' depth' t) := by
      intro t
      rw [value_eq_level, value_eq_level]
      exact ih (Nat.le_of_succ_le_succ hle) (hdeep.imp_right fun h => ⟨Nat.succ.inj h.1, h.2⟩) t
    refine stands_level _ _ (stands_valueFrom _ _ hname fun hread _ t => ?_) s
    exact (hread hinner t).map _

/-- What an expression evaluates to stands as its value does. -/
theorem evaluate_eq_or_error (hle : setting.limit ≤ setting'.limit)
    (hdeep : sort (.tooDeep setting.limit) ∨ setting'.limit = setting.limit) (s : List Char) :
    evaluate setting' s = evaluate setting s ∨
      ∃ e, evaluate setting s = .error (e.inText s) ∧ sort e := by
  have hvalue := stands_value setting setting' hname hle (hdeep.imp_right fun h => ⟨h, h⟩)
  rcases stands_closed hvalue s with heq | ⟨e, he, hsort⟩
  · left
    rw [evaluate, heq, evaluate]
  · right
    refine ⟨e, ?_, hsort⟩
    rw [evaluate, he]

end

/-! ### More names in scope -/

section
variable {scope scope' : List String}

/-- A name that only the larger scope holds was unbound; every other name denotes the same. -/
theorem stands_valueOfName (h : scope ⊆ scope') (name : String) :
    Stands (fun e => ∃ n, n ∉ scope ∧ n ∈ scope' ∧ e = .unbound n) (valueOfName scope name)
      (valueOfName scope' name) := by
  unfold valueOfName
  refine .ite (fun _ => .refl _) fun _ => .ite (fun _ => .refl _) fun _ =>
    .ite (fun _ => .refl _) fun _ => .ite (fun _ => .refl _) fun _ =>
    .ite (fun _ => .refl _) fun _ => .ite (fun _ => .refl _) fun _ =>
    .ite (fun _ => .refl _) fun _ => ?_
  by_cases hscope : name ∈ scope
  · rw [if_pos hscope, if_pos (h hscope)]
    exact .refl _
  · rw [if_neg hscope]
    by_cases hscope' : name ∈ scope'
    · exact .inr ⟨_, rfl, name, hscope, hscope', rfl⟩
    · rw [if_neg hscope']
      exact .refl _

/-- More names in scope change nothing but the fault that one of them is not bound. -/
theorem evaluate_eq_or_unbound (h : scope ⊆ scope') (limit : Nat) (s : List Char) :
    evaluate ⟨scope', limit⟩ s = evaluate ⟨scope, limit⟩ s ∨
      ∃ name, name ∉ scope ∧ name ∈ scope' ∧
        evaluate ⟨scope, limit⟩ s = .error (.unbound name) := by
  rcases evaluate_eq_or_error ⟨scope, limit⟩ ⟨scope', limit⟩ (stands_valueOfName h)
    (Nat.le_refl limit) (.inr rfl) s with heq | ⟨e, he, name, hout, hin, rfl⟩
  · exact .inl heq
  · exact .inr ⟨name, hout, hin, he⟩

/-- A value stands in every larger scope. Scopes with the same names give the same answer, faults
included, and a value that needs no names is the value in every scope. -/
theorem evaluate_of_scope_subset (h : scope ⊆ scope') (limit : Nat) (s : List Char) :
    (∀ v, evaluate ⟨scope, limit⟩ s = .ok v → evaluate ⟨scope', limit⟩ s = .ok v) ∧
      (scope' ⊆ scope → evaluate ⟨scope', limit⟩ s = evaluate ⟨scope, limit⟩ s) ∧
      ∀ v, evaluate ⟨[], limit⟩ s = .ok v → evaluate ⟨scope', limit⟩ s = .ok v := by
  have hvalue : ∀ {small large : List String}, small ⊆ large → ∀ v,
      evaluate ⟨small, limit⟩ s = .ok v → evaluate ⟨large, limit⟩ s = .ok v := by
    intro small large hsubset v hv
    rcases evaluate_eq_or_unbound hsubset limit s with heq | ⟨name, -, -, hfault⟩
    · rw [heq, hv]
    · rw [hfault] at hv
      cases hv
  refine ⟨hvalue h, ?_, hvalue (List.nil_subset scope')⟩
  intro hback
  rcases evaluate_eq_or_unbound h limit s with heq | ⟨name, hout, hin, -⟩
  · exact heq
  · exact absurd (hback hin) hout

end

/-- An array of one name that is in scope. -/
theorem evaluate_bound_item : evaluate ⟨["a"], 1⟩ "[a]".toList = .ok (.array [.undefined]) := by
  have hname : TakesName "a]".toList ['a'] [']'] := takesName_cons_iff.mpr ⟨rfl, rfl, rfl⟩
  have hdenotes : NameDenotes ["a"] (String.ofList ['a']) .undefined :=
    valueOfName_eq_ok_iff.mp rfl
  have hends : Ends [']'] := by
    rintro c ⟨⟩
    rfl
  exact evaluate_of_operand (.array (.lastItem (.expression (.name hname hdenotes) hends) rfl))

/-- A name that is bound among others, and bound twice. -/
theorem evaluate_of_scope_subset_repeated :
    evaluate ⟨["b", "a", "a"], 1⟩ "[a]".toList = .ok (.array [.undefined]) ∧
      evaluate ⟨["a", "a"], 1⟩ "[c]".toList = evaluate ⟨["a"], 1⟩ "[c]".toList ∧
      evaluate ⟨["a"], 1⟩ "[,]".toList = .ok (.array [.undefined]) := by
  have hfree : evaluate ⟨[], 1⟩ "[,]".toList = .ok (.array [.undefined]) :=
    evaluate_eq_ok_iff.mpr ⟨[], .expression (.array (.hole .noItems)) delimits_nil.ends, rfl⟩
  exact ⟨(evaluate_of_scope_subset (by decide) 1 _).1 _ evaluate_bound_item,
    (evaluate_of_scope_subset (by decide) 1 _).2.1 (by decide),
    (evaluate_of_scope_subset (List.Subset.refl _) 1 _).2.2 _ hfree⟩

/-! ### More levels -/

/-- Deeper nesting changes nothing but the fault of being nested too deep. -/
theorem evaluate_eq_or_tooDeep {limit limit' : Nat} (h : limit ≤ limit') (scope : List String)
    (s : List Char) :
    evaluate ⟨scope, limit'⟩ s = evaluate ⟨scope, limit⟩ s ∨
      evaluate ⟨scope, limit⟩ s = .error (.tooDeep limit) := by
  have hname : ∀ name, Stands (· = .tooDeep limit) (valueOfName scope name)
    (valueOfName scope name) := fun _ => .refl _
  rcases evaluate_eq_or_error ⟨scope, limit⟩ ⟨scope, limit'⟩ hname h (.inl rfl) s
    with heq | ⟨e, he, rfl⟩
  · exact .inl heq
  · exact .inr he

/-- How many arrays and objects stand inside one another in the values of a phrase. -/
def Phrase.nesting : Phrase → Nat
  | operand v => v.nesting 0
  | expression v => v.nesting 0
  | items vs => Literal.itemsNesting 0 vs
  | entry _ v => v.nesting 0
  | entries es => Literal.entriesNesting 0 es

section
variable {scope : List String} {depth : Nat} {p : Phrase} {s rest : List Char}

theorem nesting_of_nameDenotes {name : String} {v : Literal} (h : NameDenotes scope name v) :
    v.nesting 0 = 0 := by
  cases h with
  | constant h =>
    simp only [constants, List.mem_cons, Prod.mk.injEq, List.not_mem_nil, or_false] at h
    rcases h with ⟨-, rfl⟩ | ⟨-, rfl⟩ | ⟨-, rfl⟩ | ⟨-, rfl⟩ | ⟨-, rfl⟩ | ⟨-, rfl⟩ <;> rfl
  | bound => rfl

theorem nesting_number (n : Number) : (Literal.number n).nesting 0 = 0 := by
  rw [Literal.nesting, ite_self]

/-- What is derived at a depth is nested no deeper: only the rules for arrays and objects add to the
nesting, and they add as much to the depth. -/
theorem Derives.nesting_le (h : Derives scope depth p s rest) : p.nesting ≤ depth := by
  induction h with
  | blank _ _ ih => exact ih
  | number => exact (nesting_number _).trans_le (Nat.zero_le _)
  | string => exact Nat.zero_le _
  | template => exact Nat.zero_le _
  | name _ h => exact (nesting_of_nameDenotes h).trans_le (Nat.zero_le _)
  | plus => exact (nesting_number _).trans_le (Nat.zero_le _)
  | minus => exact (nesting_number _).trans_le (Nat.zero_le _)
  | group _ _ ih => exact Nat.le_succ_of_le ih
  | array _ ih => exact Nat.succ_le_succ ih
  | object _ ih => exact Nat.succ_le_succ ih
  | expression _ _ ih => exact ih
  | noItems => exact Nat.zero_le _
  | hole _ ih => exact Nat.max_le.mpr ⟨Nat.zero_le _, ih⟩
  | lastItem _ _ ih => exact Nat.max_le.mpr ⟨ih, Nat.zero_le _⟩
  | item _ _ _ ih ihmore => exact Nat.max_le.mpr ⟨ih, ihmore⟩
  | pair _ _ _ ih => exact ih
  | bareKey _ h => exact (nesting_of_nameDenotes h).trans_le (Nat.zero_le _)
  | noEntries => exact Nat.zero_le _
  | lastEntry _ _ ih => exact Nat.max_le.mpr ⟨ih, Nat.zero_le _⟩
  | entry _ _ _ ih ihmore => exact Nat.max_le.mpr ⟨ih, ihmore⟩

theorem nesting_le_of_evaluate {setting : Setting} {v : Literal}
    (h : evaluate setting s = .ok v) : v.nesting 0 ≤ setting.limit := by
  obtain ⟨blanks, hderived, -⟩ := evaluate_eq_ok_iff.mp h
  exact hderived.nesting_le

end

/-- The default of a parameter is the value of an expression. -/
theorem nesting_le_of_mem_arguments {code : List Char} {p : Parameter} {v : Literal}
    (hp : p ∈ (Signature.arguments code).parameters) (hv : p.defaultValue = some v) :
    v.nesting 0 ≤ defaultLimit := by
  obtain ⟨scope, ⟨name, default?⟩, rfl⟩ := Signature.exists_of_mem_arguments hp
  change (Signature.Argument.toField scope ⟨name, default?⟩).defaultValue = some v at hv
  cases default? with
  | none => cases hv
  | some d =>
    cases hd : evaluate ⟨scope, defaultLimit⟩ d with
    | error e =>
      simp only [Signature.Argument.toField, hd] at hv
      cases hv
    | ok l =>
      simp only [Signature.Argument.toField, hd, Option.ite_none_left_eq_some] at hv
      obtain ⟨-, hl⟩ := hv
      cases hl
      exact nesting_le_of_evaluate hd

/-- Every answer but the fault of being nested too deep stands at greater limits, no value is nested
deeper than its limit, and no default in a signature deeper than 64. -/
theorem evaluate_of_limit_le {limit limit' : Nat} (h : limit ≤ limit') (scope : List String)
    (s : List Char) :
    ((∀ n, evaluate ⟨scope, limit⟩ s ≠ .error (.tooDeep n)) →
        evaluate ⟨scope, limit'⟩ s = evaluate ⟨scope, limit⟩ s) ∧
      (∀ v, evaluate ⟨scope, limit⟩ s = .ok v → v.nesting 0 ≤ limit) ∧
      ∀ code, ∀ p ∈ (Signature.arguments code).parameters, ∀ v, p.defaultValue = some v →
        v.nesting 0 ≤ 64 := by
  refine ⟨?_, fun v hv => nesting_le_of_evaluate hv, ?_⟩
  · intro hne
    rcases evaluate_eq_or_tooDeep h scope s with heq | hdeep
    · exact heq
    · exact absurd hdeep (hne limit)
  · intro code p hp v hv
    exact nesting_le_of_mem_arguments hp hv

/-- A limit that is reached, and a default in a signature. -/
theorem evaluate_of_limit_le_array :
    evaluate ⟨["a"], 64⟩ "[a]".toList = .ok (.array [.undefined]) ∧
      (Literal.array [.undefined]).nesting 0 ≤ 1 ∧
      ∃ p ∈ (Signature.arguments "f(a = [])".toList).parameters, ∃ v,
        p.defaultValue = some v ∧ v.nesting 0 ≤ 64 := by
  have hdefault : ∃ p ∈ (Signature.arguments "f(a = [])".toList).parameters,
      p.defaultValue.isSome = true := by decide +kernel
  obtain ⟨hstands, hnesting, hsignature⟩ :=
    evaluate_of_limit_le (show 1 ≤ 64 by decide) ["a"] "[a]".toList
  have hne : ∀ n, evaluate ⟨["a"], 1⟩ "[a]".toList ≠ .error (.tooDeep n) := by
    intro n hn
    rw [evaluate_bound_item] at hn
    cases hn
  obtain ⟨p, hp, hsome⟩ := hdefault
  obtain ⟨v, hv⟩ := Option.isSome_iff_exists.mp hsome
  exact ⟨(hstands hne).trans evaluate_bound_item, hnesting _ evaluate_bound_item, p, hp, v, hv,
    hsignature _ p hp v hv⟩

end DocComments.Expression
