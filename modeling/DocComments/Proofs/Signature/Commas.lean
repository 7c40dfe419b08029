import DocComments.Proofs.Text.Trimming
import DocComments.Signature.Commas

/-!
# Texts between commas

A text that is read from outside all brackets and quotes to outside again, and that holds no comma
that divides, is a piece: joined with others by commas it is found again as it was. The surrounding
is followed through the text. A bracket or a quote that stays open keeps all that follows in the
last piece, so every text has one division into pieces that give it back, and no other.
-/

namespace DocComments.Signature

namespace Surrounding

/-- The surrounding behind a text, unless a comma divides it. -/
def through? (x : Surrounding) : List Char → Option Surrounding
  | [] => some x
  | c :: s => if x.divides c then none else (x.next c).through? s

theorem through?_append (x : Surrounding) (s t : List Char) :
    x.through? (s ++ t) = (x.through? s).bind (·.through? t) := by
  induction s generalizing x with
  | nil => rfl
  | cons c s ih =>
    rw [List.cons_append, through?, through?]
    split
    · rfl
    · exact ih (x.next c)

/-- A character that neither opens nor closes anything and is no comma. -/
def isPlain (c : Char) : Bool :=
  !isQuote c && !isOpening c && !isClosing c && c != ','

/-- A character is plain if it belongs to a class that has none of the others. -/
theorem isPlain_of_forall {p : Char → Bool} {c : Char}
    (hmarks : "\x27\x22\x60([\x7b)]\x7d,".toList.all (fun d => !p d) = true) (hc : p c = true) :
    isPlain c = true := by
  have hne := Text.ne_of_sort hmarks hc
  simp at hne
  simp [isPlain, isQuote, isOpening, isClosing, hne]

/-- Plain characters outside of quotes leave the surrounding as it is. -/
theorem through?_of_isPlain {s : List Char} (h : ∀ c ∈ s, isPlain c = true) :
    outside.through? s = some outside := by
  induction s with
  | nil => rfl
  | cons c s ih =>
    obtain ⟨hc, hs⟩ := List.forall_mem_cons.mp h
    simp only [isPlain, Bool.and_eq_true, Bool.not_eq_true', bne_iff_ne] at hc
    obtain ⟨⟨⟨hquote, hopening⟩, hclosing⟩, hcomma⟩ := hc
    have hdivides : outside.divides c = false := by
      simp [divides, hcomma]
    have hnext : outside.next c = outside := by
      simp [next, outside, hquote, hopening, hclosing]
    rw [through?, if_neg (by simp [hdivides]), hnext]
    exact ih hs

/-! ### Outside of everything -/

theorem divides_iff {x : Surrounding} {c : Char} :
    x.divides c = true ↔ x.depth = 0 ∧ x.quote? = none ∧ c = ',' := by
  simp only [divides, Bool.and_eq_true, Option.isNone_iff_eq_none, beq_iff_eq]
  exact ⟨fun h => ⟨h.1.2, h.1.1, h.2⟩, fun h => ⟨⟨h.2.1, h.1⟩, h.2.2⟩⟩

/-- Only between quotes does a backslash take away the meaning of a character. -/
def IsSettled (x : Surrounding) : Prop :=
  x.quote? = none → x.escaped = false

theorem isSettled_outside : outside.IsSettled := fun _ => rfl

theorem IsSettled.next {x : Surrounding} (hx : x.IsSettled) (c : Char) : (x.next c).IsSettled := by
  rw [IsSettled] at hx ⊢
  cases hquote : x.quote? with
  | none => grind [Surrounding.next]
  | some quote => grind [Surrounding.next]

theorem IsSettled.through {x y : Surrounding} {s : List Char} (hx : x.IsSettled)
    (h : x.through? s = some y) : y.IsSettled := by
  induction s generalizing x with
  | nil => exact Option.some.inj h ▸ hx
  | cons c s ih =>
    rw [through?] at h
    split at h
    · cases h
    · exact ih (hx.next c) h

/-- With no bracket and no quote open, nothing else is left to tell. -/
theorem IsSettled.eq_outside {x : Surrounding} (hx : x.IsSettled) (hdepth : x.depth = 0)
    (hquote : x.quote? = none) : x = outside := by
  have hescaped := hx hquote
  obtain ⟨depth, quote?, escaped⟩ := x
  simp only at hdepth hquote hescaped
  rw [hdepth, hquote, hescaped]
  rfl

end Surrounding

open Surrounding

/-- Every bracket and quote that is opened in the text is closed there, and no comma divides it. -/
def IsClosed (s : List Char) : Prop :=
  outside.through? s = some outside

instance : DecidablePred IsClosed := fun s =>
  inferInstanceAs (Decidable (outside.through? s = some outside))

theorem IsClosed.append {s t : List Char} (hs : IsClosed s) (ht : IsClosed t) :
    IsClosed (s ++ t) := by
  rw [IsClosed, through?_append, hs]
  exact ht

/-- An undivided text in front belongs to the first piece. -/
theorem piecesFrom_append {x y : Surrounding} {s : List Char} (h : x.through? s = some y)
    (t : List Char) : piecesFrom x (s ++ t) = (piecesFrom y t).modifyHead (s ++ ·) := by
  induction s generalizing x with
  | nil =>
    obtain rfl : x = y := Option.some.inj h
    rw [List.nil_append]
    cases piecesFrom x t <;> rfl
  | cons c s ih =>
    rw [through?] at h
    split at h
    · cases h
    · rename_i hdivides
      rw [List.cons_append, piecesFrom, if_neg hdivides, ih h, List.modifyHead_modifyHead]
      rfl

/-! ### Pieces -/

/-- A text is closed exactly if it is read to its end with no bracket and no quote open. -/
theorem isClosed_iff {s : List Char} :
    IsClosed s ↔ ∃ x, outside.through? s = some x ∧ x.depth = 0 ∧ x.quote? = none := by
  constructor
  · exact fun h => ⟨outside, h, rfl, rfl⟩
  · rintro ⟨x, h, hdepth, hquote⟩
    rw [IsClosed, h, (isSettled_outside.through h).eq_outside hdepth hquote]

/-- Texts that no comma divides, of which all but the last are closed. -/
inductive ArePieces : List (List Char) → Prop
  | last {p : List Char} (hp : (outside.through? p).isSome) : ArePieces [p]
  | cons {p : List Char} {ps : List (List Char)} (hp : IsClosed p) (hps : ArePieces ps) :
      ArePieces (p :: ps)

theorem ArePieces.ne_nil {ps : List (List Char)} (h : ArePieces ps) : ps ≠ [] := by
  cases h <;> exact List.cons_ne_nil _ _

theorem ArePieces.of_forall {ps : List (List Char)} (hne : ps ≠ []) (h : ∀ p ∈ ps, IsClosed p) :
    ArePieces ps := by
  induction ps with
  | nil => exact absurd rfl hne
  | cons p ps ih =>
    obtain ⟨hp, hps⟩ := List.forall_mem_cons.mp h
    cases ps with
    | nil => exact .last (hp ▸ rfl)
    | cons q ps => exact .cons hp (ih (List.cons_ne_nil q ps) hps)

/-- Joined by commas, pieces are found again. -/
theorem ArePieces.pieces_eq {ps : List (List Char)} (h : ArePieces ps) :
    pieces (List.intercalate [','] ps) = ps := by
  induction h with
  | @last p hp =>
    obtain ⟨x, hx⟩ := Option.isSome_iff_exists.mp hp
    have hread := piecesFrom_append hx []
    rw [List.append_nil] at hread
    rw [List.intercalate_singleton, pieces, hread, piecesFrom, List.modifyHead_cons,
      List.append_nil]
  | @cons p ps hp hps ih =>
    obtain ⟨q, qs, rfl⟩ := List.exists_cons_of_ne_nil hps.ne_nil
    have hdivides : outside.divides ',' = true := rfl
    rw [List.intercalate_cons_cons, List.append_assoc, List.singleton_append, pieces,
      piecesFrom_append hp, piecesFrom, if_pos hdivides, ← pieces, ih, List.modifyHead_cons,
      List.append_nil]

/-- Closed texts that are joined by commas are the pieces of what they make. -/
theorem pieces_intercalate {ps : List (List Char)} (hne : ps ≠ []) (h : ∀ p ∈ ps, IsClosed p) :
    pieces (List.intercalate [','] ps) = ps :=
  (ArePieces.of_forall hne h).pieces_eq

theorem piecesFrom_ne_nil (x : Surrounding) (s : List Char) : piecesFrom x s ≠ [] := by
  induction s generalizing x with
  | nil => exact List.cons_ne_nil _ _
  | cons c s ih =>
    rw [piecesFrom]
    split
    · exact List.cons_ne_nil _ _
    · obtain ⟨q, qs, hrest⟩ := List.exists_cons_of_ne_nil (ih (x.next c))
      rw [hrest, List.modifyHead_cons]
      exact List.cons_ne_nil _ _

/-- Nothing of a text is lost but the commas that divide it. -/
theorem intercalate_piecesFrom (x : Surrounding) (s : List Char) :
    List.intercalate [','] (piecesFrom x s) = s := by
  induction s generalizing x with
  | nil => rfl
  | cons c s ih =>
    rw [piecesFrom]
    split
    · rename_i hdivides
      obtain ⟨-, -, rfl⟩ := divides_iff.mp hdivides
      obtain ⟨q, qs, hrest⟩ := List.exists_cons_of_ne_nil (piecesFrom_ne_nil x s)
      rw [hrest, List.intercalate_cons_cons, ← hrest, ih]
      rfl
    · have hmore := ih (x.next c)
      obtain ⟨q, qs, hrest⟩ := List.exists_cons_of_ne_nil (piecesFrom_ne_nil (x.next c) s)
      rw [hrest] at hmore
      rw [hrest, List.modifyHead_cons, ← hmore]
      cases qs with
      | nil => rw [List.intercalate_singleton, List.intercalate_singleton]
      | cons r qs =>
        rw [List.intercalate_cons_cons, List.intercalate_cons_cons]
        rfl

/-- What was read before belongs to the first piece. -/
theorem arePieces_of_piecesFrom {x : Surrounding} {p q s : List Char} {qs : List (List Char)}
    (hp : outside.through? p = some x) (h : piecesFrom x s = q :: qs) :
    ArePieces ((p ++ q) :: qs) := by
  induction s generalizing x p q qs with
  | nil =>
    cases h
    rw [List.append_nil]
    exact .last (hp ▸ rfl)
  | cons c s ih =>
    rw [piecesFrom] at h
    split at h
    · -- a comma divides only outside of everything, so what was read before is closed
      rename_i hdivides
      obtain ⟨hdepth, hquote, -⟩ := divides_iff.mp hdivides
      obtain rfl := (isSettled_outside.through hp).eq_outside hdepth hquote
      cases h
      obtain ⟨r, rs, hrest⟩ := List.exists_cons_of_ne_nil (piecesFrom_ne_nil outside s)
      rw [List.append_nil, hrest]
      exact .cons hp (ih (p := []) rfl hrest)
    · rename_i hdivides
      have hmore : outside.through? (p ++ [c]) = some (x.next c) := by
        rw [through?_append, hp, Option.bind_some, through?, if_neg hdivides, through?]
      obtain ⟨r, rs, hrest⟩ := List.exists_cons_of_ne_nil (piecesFrom_ne_nil (x.next c) s)
      rw [hrest, List.modifyHead_cons] at h
      cases h
      rw [List.append_cons]
      exact ih hmore hrest

/-- The pieces of a text are the only ones that give it back. -/
theorem pieces_eq_iff {s : List Char} {ps : List (List Char)} :
    pieces s = ps ↔ List.intercalate [','] ps = s ∧ ArePieces ps := by
  constructor
  · rintro rfl
    refine ⟨intercalate_piecesFrom outside s, ?_⟩
    obtain ⟨q, qs, hpieces⟩ := List.exists_cons_of_ne_nil (piecesFrom_ne_nil outside s)
    rw [pieces, hpieces]
    exact arePieces_of_piecesFrom (p := []) rfl hpieces
  · rintro ⟨rfl, hps⟩
    exact hps.pieces_eq

/-- Dividing a text at its commas and joining texts by commas undo each other: every text is what
its pieces make, and texts that are each read to their ends with no comma that divides them, and
with no bracket and no quote left open, are the pieces of what they make. -/
theorem pieces_inverts_intercalate :
    (∀ s : List Char, List.intercalate [','] (pieces s) = s) ∧
      ∀ ps : List (List Char), ps ≠ [] →
        (∀ p ∈ ps, ∃ x, outside.through? p = some x ∧ x.depth = 0 ∧ x.quote? = none) →
          pieces (List.intercalate [','] ps) = ps := by
  constructor
  · exact fun s => (pieces_eq_iff.mp rfl).1
  · intro ps hne h
    exact pieces_intercalate hne fun p hp => isClosed_iff.mpr (h p hp)

/-- Pieces with a comma inside brackets, a comma behind a quote that means itself, and a bracket
that closes nothing. -/
theorem pieces_inverts_intercalate_nested :
    let ps := ["a = f(1, [2, 3])".toList, " sep = \x22\\\x22,\x22".toList, " c]".toList]
    (∀ p ∈ ps, ∃ x, outside.through? p = some x ∧ x.depth = 0 ∧ x.quote? = none) ∧
      pieces "a = f(1, [2, 3]), sep = \x22\\\x22,\x22, c]".toList = ps := by
  intro ps
  have hread : ∀ p ∈ ps, ∃ x, outside.through? p = some x ∧ x.depth = 0 ∧ x.quote? = none :=
    List.forall_mem_cons.mpr ⟨⟨outside, rfl, rfl, rfl⟩, List.forall_mem_cons.mpr
      ⟨⟨outside, rfl, rfl, rfl⟩, List.forall_mem_singleton.mpr ⟨outside, rfl, rfl, rfl⟩⟩⟩
  exact ⟨hread, pieces_inverts_intercalate.2 ps (List.cons_ne_nil _ _) hread⟩

end DocComments.Signature
