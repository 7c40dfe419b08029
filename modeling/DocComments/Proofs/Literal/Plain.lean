import DocComments.Literal.Json
import DocComments.Proofs.Json.Printed

/-!
# Literals without fractions

The literals that are written without loss: null, the truth values, whole numbers of magnitude up to
`2 ^ 53`, strings, and arrays and objects of such literals. As data they keep all their entries and
their nesting, and if no key occurs twice in an object they come back from data as they were; to a
reader that keeps every entry keys may occur twice.
-/

namespace DocComments

/-- Whether a number has a minus sign. -/
def Number.isNegative : Number → Bool
  | nan => false
  | infinite negative => negative
  | finite negative _ => negative

theorem Number.isNegative_ofInt {i : Int} (hi : i.natAbs ≤ 2 ^ 53) :
    (ofInt i).isNegative = decide (i < 0) := by
  rw [ofInt_eq_finite hi, isNegative]

namespace Literal

/-- Literals whose numbers are all whole and of magnitude up to `2 ^ 53`, and that hold no undefined
value. -/
inductive IsPlain : Literal → Prop
  | null : IsPlain null
  | bool (b : Bool) : IsPlain (bool b)
  | number {i : Int} (h : i.natAbs ≤ 2 ^ 53) : IsPlain (number (.ofInt i))
  | string (s : String) : IsPlain (string s)
  | array {xs : List Literal} (h : ∀ x ∈ xs, IsPlain x) : IsPlain (array xs)
  | object {es : List (String × Literal)} (h : ∀ e ∈ es, IsPlain e.2) : IsPlain (object es)

/-- No key occurs twice in an object. -/
inductive HasDistinctKeys : Literal → Prop
  | undefined : HasDistinctKeys undefined
  | null : HasDistinctKeys null
  | bool (b : Bool) : HasDistinctKeys (bool b)
  | number (n : Number) : HasDistinctKeys (number n)
  | string (s : String) : HasDistinctKeys (string s)
  | array {xs : List Literal} (h : ∀ x ∈ xs, HasDistinctKeys x) : HasDistinctKeys (array xs)
  | object {es : List (String × Literal)} (hkeys : (es.map Prod.fst).Nodup)
      (h : ∀ e ∈ es, HasDistinctKeys e.2) : HasDistinctKeys (object es)

mutual

/-- How many arrays and objects stand inside one another, where a negative number counts as many
as the first number says. -/
def nesting (sign : Nat) : Literal → Nat
  | number n => if n.isNegative then sign else 0
  | array items => itemsNesting sign items + 1
  | object entries => entriesNesting sign entries + 1
  | _ => 0

/-- The greatest nesting of an item. -/
def itemsNesting (sign : Nat) : List Literal → Nat
  | [] => 0
  | x :: xs => max (x.nesting sign) (itemsNesting sign xs)

/-- The greatest nesting of the value of an entry. -/
def entriesNesting (sign : Nat) : List (String × Literal) → Nat
  | [] => 0
  | (_, x) :: xs => max (x.nesting sign) (entriesNesting sign xs)

end

section
variable {sign d : Nat} {xs : List Literal} {es : List (String × Literal)}

theorem itemsNesting_le_iff : itemsNesting sign xs ≤ d ↔ ∀ x ∈ xs, x.nesting sign ≤ d := by
  induction xs with
  | nil => simp [itemsNesting]
  | cons x xs ih => rw [itemsNesting, Nat.max_le, ih, List.forall_mem_cons]

theorem entriesNesting_le_iff : entriesNesting sign es ≤ d ↔ ∀ e ∈ es, e.2.nesting sign ≤ d := by
  induction es with
  | nil => simp [entriesNesting]
  | cons e es ih => rw [entriesNesting, Nat.max_le, ih, List.forall_mem_cons]

/-! ### As data -/

theorem IsPlain.isUndefined_eq_false {l : Literal} (h : l.IsPlain) : l.isUndefined = false := by
  cases h <;> rfl

theorem itemsToJson_eq_map : itemsToJson xs = xs.map toJson := by
  induction xs with
  | nil => rfl
  | cons x xs ih => rw [itemsToJson, ih, List.map_cons]

/-- No entry is left out if none is undefined. -/
theorem entriesToJson_eq_map (h : ∀ e ∈ es, e.2.isUndefined = false) :
    entriesToJson es = es.map fun e => (e.1, e.2.toJson) := by
  induction es with
  | nil => rfl
  | cons e es ih =>
    obtain ⟨he, hes⟩ := List.forall_mem_cons.mp h
    rw [entriesToJson, he, if_neg Bool.false_ne_true, ih hes, List.map_cons]

theorem toJson_number_ofInt {i : Int} (hi : i.natAbs ≤ 2 ^ 53) :
    toJson (number (.ofInt i)) = .number (.ofInt i) := by
  rw [toJson, Number.ofInt_eq_finite hi, numberToJson]

theorem entriesToJson_of_isPlain (h : ∀ e ∈ es, e.2.IsPlain) :
    entriesToJson es = es.map fun e => (e.1, e.2.toJson) :=
  entriesToJson_eq_map fun e he => (h e he).isUndefined_eq_false

/-- A literal without fractions is data without fractions. -/
theorem IsPlain.isPlain_toJson {l : Literal} (h : l.IsPlain) : l.toJson.IsPlain := by
  induction h with
  | null => exact .null
  | bool b => exact .bool b
  | number hi =>
    rw [toJson_number_ofInt hi]
    exact .number hi
  | string s => exact .string s
  | array _ ih =>
    rw [toJson, itemsToJson_eq_map]
    refine .array ?_
    intro x hx
    obtain ⟨y, hy, rfl⟩ := List.mem_map.mp hx
    exact ih y hy
  | object h ih =>
    rw [toJson, entriesToJson_of_isPlain h]
    refine .object ?_
    intro e he
    obtain ⟨f, hf, rfl⟩ := List.mem_map.mp he
    exact ih f hf

/-- As data a literal is nested as deep as its arrays and objects are. -/
theorem IsPlain.nesting_toJson_le {l : Literal} (h : l.IsPlain) (hd : l.nesting 0 ≤ d) :
    l.toJson.nesting ≤ d := by
  induction h generalizing d with
  | null => exact Nat.zero_le d
  | bool b => exact Nat.zero_le d
  | number hi =>
    rw [toJson_number_ofInt hi]
    exact Nat.zero_le d
  | string s => exact Nat.zero_le d
  | array _ ih =>
    cases d with
    | zero => cases hd
    | succ d =>
      rw [nesting, Nat.succ_le_succ_iff, itemsNesting_le_iff] at hd
      rw [toJson, itemsToJson_eq_map, Json.nesting, Nat.succ_le_succ_iff, Json.itemsNesting_le_iff]
      intro x hx
      obtain ⟨y, hy, rfl⟩ := List.mem_map.mp hx
      exact ih y hy (hd y hy)
  | object h ih =>
    cases d with
    | zero => cases hd
    | succ d =>
      rw [nesting, Nat.succ_le_succ_iff, entriesNesting_le_iff] at hd
      rw [toJson, entriesToJson_of_isPlain h, Json.nesting, Nat.succ_le_succ_iff,
        Json.entriesNesting_le_iff]
      intro e he
      obtain ⟨f, hf, rfl⟩ := List.mem_map.mp he
      exact ih f hf (hd f hf)

theorem itemsOfJson_map_toJson (h : ∀ x ∈ xs, ofJson x.toJson = x) :
    itemsOfJson (xs.map toJson) = xs := by
  induction xs with
  | nil => rfl
  | cons x xs ih =>
    obtain ⟨hx, hxs⟩ := List.forall_mem_cons.mp h
    rw [List.map_cons, itemsOfJson, hx, ih hxs]

/-- An entry with a new key is put at the end. -/
theorem put_of_not_mem {k : String} (h : k ∉ es.map Prod.fst) (x : Literal) :
    put es k x = es ++ [(k, x)] := by
  induction es with
  | nil => rfl
  | cons e es ih =>
    rw [List.map_cons, List.mem_cons, not_or] at h
    rw [put, if_neg (Ne.symm h.1), ih h.2, List.cons_append]

/-- Entries with new keys are put at the end in their order. -/
theorem entriesOfJson_eq_append (done : List (String × Literal))
    (hkeys : ((done ++ es).map Prod.fst).Nodup)
    (h : ∀ e ∈ es, ofJson e.2.toJson = e.2) :
    entriesOfJson done (es.map fun e => (e.1, e.2.toJson)) = done ++ es := by
  induction es generalizing done with
  | nil => exact (List.append_nil done).symm
  | cons e es ih =>
    obtain ⟨he, hes⟩ := List.forall_mem_cons.mp h
    have hsplit : done ++ e :: es = (done ++ [e]) ++ es := List.append_cons done e es
    have hnew : e.1 ∉ done.map Prod.fst := by
      rw [List.map_append, List.nodup_append] at hkeys
      intro hmem
      exact hkeys.2.2 e.1 hmem e.1 List.mem_cons_self rfl
    rw [List.map_cons, entriesOfJson, he, put_of_not_mem hnew, hsplit]
    apply ih (done ++ [e]) _ hes
    rw [← hsplit]
    exact hkeys

/-- A literal without fractions comes back from data if no key occurs twice. -/
theorem IsPlain.ofJson_toJson {l : Literal} (h : l.IsPlain) (hkeys : l.HasDistinctKeys) :
    ofJson l.toJson = l := by
  induction h with
  | null => rfl
  | bool b => rfl
  | number hi => rw [toJson_number_ofInt hi, ofJson]
  | string s => rfl
  | array _ ih =>
    cases hkeys with
    | array hitems =>
      have hmap := itemsOfJson_map_toJson fun x hx => ih x hx (hitems x hx)
      rw [toJson, itemsToJson_eq_map, ofJson, hmap]
  | object h ih =>
    cases hkeys with
    | object hnodup hvalues =>
      have hentries := entriesOfJson_eq_append [] hnodup
        fun e he => ih e he (hvalues e he)
      rw [toJson, entriesToJson_of_isPlain h, ofJson, hentries, List.nil_append]

/-! ### With all entries -/

mutual

/-- The literal that data stands for, where a key that occurs twice is kept twice. -/
def ofAllEntries : Json → Literal
  | .null => null
  | .bool value => bool value
  | .number value => number value
  | .string value => string value
  | .array items => array (itemsOfAllEntries items)
  | .object entries => object (entriesOfAllEntries entries)

/-- The literals that the items of an array stand for. -/
def itemsOfAllEntries : List Json → List Literal
  | [] => []
  | x :: xs => ofAllEntries x :: itemsOfAllEntries xs

/-- The entries of an object, in their order. -/
def entriesOfAllEntries : List (String × Json) → List (String × Literal)
  | [] => []
  | (k, x) :: xs => (k, ofAllEntries x) :: entriesOfAllEntries xs

end

theorem itemsOfAllEntries_map_toJson (h : ∀ x ∈ xs, ofAllEntries x.toJson = x) :
    itemsOfAllEntries (xs.map toJson) = xs := by
  induction xs with
  | nil => rfl
  | cons x xs ih =>
    obtain ⟨hx, hxs⟩ := List.forall_mem_cons.mp h
    rw [List.map_cons, itemsOfAllEntries, hx, ih hxs]

theorem entriesOfAllEntries_map_toJson (h : ∀ e ∈ es, ofAllEntries e.2.toJson = e.2) :
    entriesOfAllEntries (es.map fun e => (e.1, e.2.toJson)) = es := by
  induction es with
  | nil => rfl
  | cons e es ih =>
    obtain ⟨he, hes⟩ := List.forall_mem_cons.mp h
    rw [List.map_cons, entriesOfAllEntries, he, ih hes]

/-- A literal without fractions comes back from data with all its entries. -/
theorem IsPlain.ofAllEntries_toJson {l : Literal} (h : l.IsPlain) : ofAllEntries l.toJson = l := by
  induction h with
  | null => rfl
  | bool b => rfl
  | number hi => rw [toJson_number_ofInt hi, ofAllEntries]
  | string s => rfl
  | array _ ih =>
    rw [toJson, itemsToJson_eq_map, ofAllEntries, itemsOfAllEntries_map_toJson ih]
  | object h ih =>
    rw [toJson, entriesToJson_of_isPlain h, ofAllEntries, entriesOfAllEntries_map_toJson ih]

end

end Literal

end DocComments
