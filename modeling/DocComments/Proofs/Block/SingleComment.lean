import DocComments.Proofs.Block.Scan

/-!
# Comments that are one comment

A comment ends with its first closing mark unless nothing stands before that mark or a terminator
stands directly behind it; then the comment runs on through what should be code and over the next
comment. Whether the blocks of a text have single comments is decided by that alone.
-/

namespace DocComments.Block
open Text (OccursAt)

/-- A comment is single if no closing mark stands before its last two characters. -/
def IsSingle (comment : List Char) : Prop :=
  ∀ n, n + 2 < comment.length → ¬ OccursAt closingMark comment n

instance (comment : List Char) : Decidable (IsSingle comment) :=
  decidable_of_iff (∀ n < comment.length - 2, ¬ OccursAt closingMark comment n)
    ⟨fun h n hn => h n (by omega), fun h n hn => h n (by omega)⟩

/-- The texts at whose front the scan of a text looks for a block. -/
inductive Reached (s : List Char) : List Char → Prop
  | start : Reached s s
  | behind {t : List Char} {p q : Nat} (before : Reached s t) (h : FirstBlock t p q) :
      Reached s (afterBlock t q)

theorem Reached.trans {s t u : List Char} (hst : Reached s t) (htu : Reached t u) :
    Reached s u := by
  induction htu with
  | start => exact hst
  | behind _ hfirst ih => exact .behind ih hfirst

theorem all_subset_of_reached {s t : List Char} (h : Reached s t) : all t ⊆ all s := by
  induction h with
  | start => exact List.Subset.refl _
  | behind _ hfirst ih =>
    rw [all_eq_cons hfirst] at ih
    exact fun b hb => ih (List.mem_cons_of_mem _ hb)

/-- The blocks of a text are the first blocks of the texts that its scan reaches. -/
theorem mem_all_iff {s : List Char} {b : Block} :
    b ∈ all s ↔ ∃ t p q, Reached s t ∧ FirstBlock t p q ∧ b = blockAt t p q := by
  constructor
  · intro hb
    induction s using block_induction with
    | none s hnone =>
      rw [all_eq_nil hnone] at hb
      cases hb
    | block s p q hfirst ih =>
      rw [all_eq_cons hfirst] at hb
      rcases List.mem_cons.mp hb with rfl | hb
      · exact ⟨s, p, q, .start, hfirst, rfl⟩
      · obtain ⟨t, m, n, hreached, hblock⟩ := ih hb
        exact ⟨t, m, n, (Reached.behind .start hfirst).trans hreached, hblock⟩
  · rintro ⟨t, p, q, hreached, hfirst, rfl⟩
    apply all_subset_of_reached hreached
    rw [all_eq_cons hfirst]
    exact List.mem_cons_self

/-- The first closing mark behind the slash and the star of an opening mark, whose second star it
may share. -/
def FirstClosing (t : List Char) (p e : Nat) : Prop :=
  IsLeast {e | p + 2 ≤ e ∧ OccursAt closingMark t e} e

section
variable {t : List Char} {p q : Nat}

/-- An opening mark holds no closing mark and does not end in one. -/
theorem two_le_of_closingMark {n : Nat} (hopen : OccursAt openingMark t p)
    (hclose : OccursAt closingMark t (p + n)) : 2 ≤ n := by
  obtain ⟨rest, hrest⟩ := hopen
  rw [← Text.occursAt_drop, ← hrest] at hclose
  match n, hclose with
  | 0, hclose => simp [OccursAt, openingMark, closingMark] at hclose
  | 1, hclose => simp [OccursAt, openingMark, closingMark] at hclose
  | n + 2, _ => omega

/-- The closing marks of a comment are those of the text within it. -/
theorem occursAt_extract_iff {n : Nat} (hle : q + 2 ≤ t.length) (hn : p + n ≤ q) :
    OccursAt closingMark (t.extract p (q + 2)) n ↔ OccursAt closingMark t (p + n) := by
  have hsplit : t.drop p = t.extract p (q + 2) ++ t.drop (q + 2) := by
    rw [List.extract_eq_take_drop]
    conv_lhs => rw [← List.take_append_drop (q + 2 - p) (t.drop p), List.drop_drop]
    congr 2
    omega
  have hlen : (t.extract p (q + 2)).length = q + 2 - p := by
    rw [List.extract_eq_take_drop, List.length_take, List.length_drop]
    omega
  have hin : n + closingMark.length ≤ (t.extract p (q + 2)).length := by
    rw [hlen]
    change n + 2 ≤ q + 2 - p
    omega
  rw [← Text.occursAt_drop, hsplit, Text.occursAt_append_left hin]

/-- A closing mark before the end of a comment is no end only if nothing is before it or a
terminator is directly behind. -/
theorem endsAt_of_closingMark {e : Nat} (h : FirstBlock t p q) (hbody : p + 4 ≤ e) (hle : e ≤ q)
    (hmark : OccursAt closingMark t e)
    (hnot : ∀ c, (t.drop (e + 2)).head? = some c → isTerminator c = false) : EndsAt t p e := by
  obtain ⟨c, hc, hterm⟩ : ∃ c ∈ t.drop (e + 2), isTerminator c = true :=
    exists_mem_drop_of_le (by omega) h.ends.1.code.somewhere
  exact ⟨hbody, hmark, List.ne_nil_of_mem hc, hnot, c, hc, hterm⟩

/-- A comment is single exactly if its first closing mark encloses a body and no terminator comes
directly behind it. -/
theorem isSingle_iff (h : FirstBlock t p q) :
    IsSingle (t.extract p (q + 2)) ↔
      ∀ e, FirstClosing t p e →
        p + 4 ≤ e ∧ ∀ c, (t.drop (e + 2)).head? = some c → isTerminator c = false := by
  have hend : q + 2 ≤ t.length := h.ends.1.mark.add_length_le (by decide)
  have hbody := h.ends.1.body
  have hlen : (t.extract p (q + 2)).length = q + 2 - p := by
    rw [List.extract_eq_take_drop, List.length_take, List.length_drop]
    omega
  constructor
  · intro hsingle e he
    have hle : e ≤ q := he.2 ⟨by omega, h.ends.1.mark⟩
    have heq : e = q := by
      by_contra hne
      have hpe : p + (e - p) = e := by have := he.1.1; omega
      refine hsingle (e - p) (by omega) ?_
      rw [occursAt_extract_iff hend (by omega), hpe]
      exact he.1.2
    subst heq
    exact ⟨hbody, h.ends.1.code.notAtOnce⟩
  · intro hfirst n hn hmark
    rw [hlen] at hn
    rw [occursAt_extract_iff hend (by omega)] at hmark
    classical
    have hexists : ∃ e, p + 2 ≤ e ∧ OccursAt closingMark t e := ⟨q, by omega, h.ends.1.mark⟩
    have he : FirstClosing t p (Nat.find hexists) := Nat.isLeast_find hexists
    obtain ⟨hbodyE, hnot⟩ := hfirst _ he
    have htwo := two_le_of_closingMark h.opens.1 hmark
    have hleN : Nat.find hexists ≤ p + n := he.2 ⟨by omega, hmark⟩
    have hleQ := h.ends.2 (endsAt_of_closingMark h hbodyE (by omega) he.1.2 hnot)
    omega

end

/-- The comments of a text are single exactly if the scan nowhere passes over a first closing
mark. -/
theorem all_single_iff (s : List Char) :
    (∀ b ∈ all s, IsSingle b.comment.toList) ↔
      ∀ t p q e, Reached s t → FirstBlock t p q → FirstClosing t p e →
        p + 4 ≤ e ∧ ∀ c, (t.drop (e + 2)).head? = some c → isTerminator c = false := by
  constructor
  · intro h t p q e hreached hfirst he
    have hsingle := h _ (mem_all_iff.mpr ⟨t, p, q, hreached, hfirst, rfl⟩)
    rw [blockAt, String.toList_ofList, isSingle_iff hfirst] at hsingle
    exact hsingle e he
  · intro h b hb
    obtain ⟨t, p, q, hreached, hfirst, rfl⟩ := mem_all_iff.mp hb
    rw [blockAt, String.toList_ofList, isSingle_iff hfirst]
    exact fun e he => h t p q e hreached hfirst he

/-- A terminator directly behind a comment makes one comment of it and the next. -/
theorem terminator_joins_comments :
    ∃ b ∈ all "/** a */; /** b */ function f() \x7b\x7d".toList, ¬ IsSingle b.comment.toList := by
  have hall : all "/** a */; /** b */ function f() \x7b\x7d".toList =
      [⟨"/** a */; /** b */", "function f()"⟩] := by
    decide +kernel
  rw [hall]
  refine ⟨_, List.mem_singleton_self _, ?_⟩
  intro hsingle
  exact hsingle 6 (by decide) (by decide)

end DocComments.Block
