import DocComments.Proofs.Block.Scan
import DocComments.Record.Reader

/-!
# Texts one after the other

The blocks of a text stay as they are when another text is put behind it: a comment can end at the
same places, and the code ends with the same terminator. What the second text can change is only
what comes of the text behind the last block, so the blocks of two texts are those of each if no
opening mark starts there.
-/

namespace DocComments.Block
open Text (OccursAt)
open Unicode (isBlank)

/-- The text behind the last block of a text, the whole text if there is no block. -/
def remainder (s : List Char) : List Char :=
  match first? s with
  | none => s
  | some f => remainder f.rest
termination_by s.length
decreasing_by exact f.shorter

theorem remainder_eq_self {s : List Char} (h : ∀ p q, ¬ FirstBlock s p q) : remainder s = s := by
  rw [remainder, first?_eq_none h]

theorem remainder_eq_of_firstBlock {s : List Char} {p q : Nat} (h : FirstBlock s p q) :
    remainder s = remainder (afterBlock s q) := by
  obtain ⟨f, hf, _, hrest⟩ := Text.Found.exists_of_map_parts (first?_eq_some h)
  rw [remainder, hf, ← hrest]

theorem remainder_suffix (s : List Char) : remainder s <:+ s := by
  induction s using block_induction with
  | none s hnone => exact ⟨[], remainder_eq_self hnone⟩
  | block s p q hfirst ih =>
    rw [remainder_eq_of_firstBlock hfirst]
    exact (ih.trans (List.drop_suffix _ _)).trans (List.drop_suffix _ _)

section
variable {r : List Char} (h : ∃ c ∈ r, isTerminator c = true) (b : List Char)
include h

/-- Where a terminator stands anyway, text put behind decides nothing. -/
theorem codeFollows_append_iff : CodeFollows (r ++ b) ↔ CodeFollows r := by
  obtain ⟨c, hc, ht⟩ := h
  have hne : r ≠ [] := List.ne_nil_of_mem hc
  have hhead : (r ++ b).head? = r.head? := by
    rw [List.head?_append, Option.or_of_isSome (List.isSome_head?.mpr hne)]
  constructor
  · rintro ⟨_, hfirst, _⟩
    exact ⟨hne, by rwa [hhead] at hfirst, c, hc, ht⟩
  · rintro ⟨_, hfirst, _⟩
    exact ⟨by simp [hne], by rwa [hhead], c, List.mem_append_left b hc, ht⟩

theorem findIdx_isTerminator_append_left :
    (r ++ b).findIdx isTerminator = r.findIdx isTerminator := by
  rw [List.findIdx_append, if_pos (List.findIdx_lt_length.mpr h)]

theorem findIdx_not_isBlank_append_left :
    (r ++ b).findIdx (!isBlank ·) = r.findIdx (!isBlank ·) := by
  rw [List.findIdx_append, if_pos]
  obtain ⟨c, hc, ht⟩ := h
  refine List.findIdx_lt_length.mpr ⟨c, hc, ?_⟩
  cases hb : isBlank c with
  | false => rfl
  | true => rw [isTerminator_of_isBlank hb] at ht; cases ht

theorem codeText_append : codeText (r ++ b) = codeText r := by
  have hlt := List.findIdx_lt_length.mpr h
  simp only [codeText, findIdx_isTerminator_append_left h b, findIdx_not_isBlank_append_left h b,
    List.extract_eq_take_drop, ← List.drop_take]
  rw [List.take_append_of_le_length (by omega)]

end

section
variable {a : List Char} {p q : Nat}

/-- A comment that has a terminator somewhere behind it ends there or not, whatever text is put
behind. -/
theorem endsAt_append_iff (h : ∃ c ∈ a.drop (q + 2), isTerminator c = true) (b : List Char) :
    EndsAt (a ++ b) p q ↔ EndsAt a p q := by
  have hlt : q + 2 < a.length := by
    obtain ⟨c, hc, _⟩ := h
    have hpos := List.length_pos_of_mem hc
    rw [List.length_drop] at hpos
    omega
  have hdrop : (a ++ b).drop (q + 2) = a.drop (q + 2) ++ b :=
    List.drop_append_of_le_length (by omega)
  have hmark : OccursAt closingMark (a ++ b) q ↔ OccursAt closingMark a q :=
    Text.occursAt_append_left (Nat.le_of_lt hlt)
  constructor
  · rintro ⟨hbody, hend, hcode⟩
    rw [hdrop, codeFollows_append_iff h] at hcode
    exact ⟨hbody, hmark.mp hend, hcode⟩
  · rintro ⟨hbody, hend, hcode⟩
    refine ⟨hbody, hmark.mpr hend, ?_⟩
    rwa [hdrop, codeFollows_append_iff h]

theorem FirstBlock.append (h : FirstBlock a p q) (b : List Char) : FirstBlock (a ++ b) p q := by
  have hterm := h.ends.1.code.somewhere
  have hend : q + 2 ≤ a.length := h.ends.1.mark.add_length_le (by decide)
  have hbody := h.ends.1.body
  refine ⟨⟨h.opens.1.append b, ?_⟩, ⟨(endsAt_append_iff hterm b).mpr h.ends.1, ?_⟩⟩
  · intro m hm
    by_contra hlt
    have hin : m + openingMark.length ≤ a.length := by
      change m + 3 ≤ a.length
      omega
    have hmark : OccursAt openingMark a m := (Text.occursAt_append_left hin).mp hm
    exact hlt (h.opens.2 hmark)
  · intro m hm
    by_contra hlt
    -- an earlier end has the same terminator behind it
    have hearlier : ∃ c ∈ a.drop (m + 2), isTerminator c = true :=
      exists_mem_drop_of_le (by omega) hterm
    exact hlt (h.ends.2 ((endsAt_append_iff hearlier b).mp hm))

theorem FirstBlock.blockAt_append (h : FirstBlock a p q) (b : List Char) :
    blockAt (a ++ b) p q = blockAt a p q ∧ afterBlock (a ++ b) q = afterBlock a q ++ b := by
  have hterm := h.ends.1.code.somewhere
  have hend : q + 2 ≤ a.length := h.ends.1.mark.add_length_le (by decide)
  have hdrop : (a ++ b).drop (q + 2) = a.drop (q + 2) ++ b := List.drop_append_of_le_length hend
  have hlt := List.findIdx_lt_length.mpr hterm
  constructor
  · simp only [blockAt, hdrop, codeText_append hterm b, List.extract_eq_take_drop,
      ← List.drop_take]
    rw [List.take_append_of_le_length hend]
  · rw [afterBlock, hdrop, findIdx_isTerminator_append_left hterm b,
      List.drop_append_of_le_length (by omega), afterBlock]

end

/-- The blocks of a text come first, then those of what is behind them. -/
theorem all_append (a b : List Char) : all (a ++ b) = all a ++ all (remainder a ++ b) := by
  induction a using block_induction with
  | none a hnone => rw [all_eq_nil hnone, remainder_eq_self hnone, List.nil_append]
  | block a p q hfirst ih =>
    obtain ⟨hblock, hafter⟩ := hfirst.blockAt_append b
    rw [all_eq_cons (hfirst.append b), hblock, hafter, ih, all_eq_cons hfirst,
      remainder_eq_of_firstBlock hfirst, List.cons_append]

section
variable {t b : List Char} {p q : Nat}

theorem drop_append_right (n : Nat) : (t ++ b).drop (t.length + n) = b.drop n :=
  List.drop_length_add_append n

theorem endsAt_append_right_iff :
    EndsAt (t ++ b) (t.length + p) (t.length + q) ↔ EndsAt b p q := by
  have hdrop : (t ++ b).drop (t.length + q + 2) = b.drop (q + 2) := drop_append_right (q + 2)
  constructor
  · rintro ⟨hbody, hmark, hcode⟩
    exact ⟨by omega, Text.occursAt_append_right.mp hmark, hdrop ▸ hcode⟩
  · rintro ⟨hbody, hmark, hcode⟩
    exact ⟨by omega, Text.occursAt_append_right.mpr hmark, hdrop ▸ hcode⟩

theorem blockAt_append_right :
    blockAt (t ++ b) (t.length + p) (t.length + q) = blockAt b p q ∧
      afterBlock (t ++ b) (t.length + q) = afterBlock b q := by
  have hdrop : (t ++ b).drop (t.length + q + 2) = b.drop (q + 2) := drop_append_right (q + 2)
  constructor
  · simp only [blockAt, hdrop, List.extract_eq_take_drop, drop_append_right]
    congr 3
    omega
  · simp only [afterBlock, hdrop]

variable (h : ∀ n, n < t.length → ¬ OccursAt openingMark (t ++ b) n)
include h

/-- If no comment is opened in a text, the first block is that of the text behind. -/
theorem firstBlock_append_right_iff :
    FirstBlock (t ++ b) (t.length + p) (t.length + q) ↔ FirstBlock b p q := by
  have hopens : IsLeast {n | OccursAt openingMark (t ++ b) n} (t.length + p) ↔
      IsLeast {n | OccursAt openingMark b n} p := by
    rw [Text.isLeast_add_iff h]
    simp only [Text.occursAt_append_right]
  have hends : IsLeast {n | EndsAt (t ++ b) (t.length + p) n} (t.length + q) ↔
      IsLeast {n | EndsAt b p n} q := by
    rw [Text.isLeast_add_iff fun m hm hend => absurd hend.body (by omega)]
    simp only [endsAt_append_right_iff]
  constructor
  · rintro ⟨ho, he⟩
    exact ⟨hopens.mp ho, hends.mp he⟩
  · rintro ⟨ho, he⟩
    exact ⟨hopens.mpr ho, hends.mpr he⟩

theorem all_append_of_no_opening : all (t ++ b) = all b := by
  by_cases hb : ∃ p q, FirstBlock b p q
  · obtain ⟨p, q, hfirst⟩ := hb
    obtain ⟨hblock, hafter⟩ := blockAt_append_right (t := t) (b := b) (p := p) (q := q)
    rw [all_eq_cons ((firstBlock_append_right_iff h).mpr hfirst), hblock, hafter,
      all_eq_cons hfirst]
  · rw [all_eq_nil fun p q hfirst => hb ⟨p, q, hfirst⟩]
    apply all_eq_nil
    intro m n hfirst
    have hm : t.length ≤ m := by
      by_contra hlt
      exact h m (by omega) hfirst.opens.1
    have hn := hfirst.ends.1.body
    obtain ⟨p, rfl⟩ := Nat.exists_eq_add_of_le hm
    obtain ⟨q, rfl⟩ := Nat.exists_eq_add_of_le (show t.length ≤ n by omega)
    exact hb ⟨p, q, (firstBlock_append_right_iff h).mp hfirst⟩

end

end DocComments.Block

namespace DocComments.Record
open Text (OccursAt)
open Block (openingMark remainder)

/-- The records of two texts one after the other are those of the first and those of the second,
if no comment is opened behind the last block of the first, not even one that only the second
completes. -/
theorem all_append_of_no_opening_behind {a b : List Char}
    (h : ∀ p, a.length - (remainder a).length ≤ p → p < a.length →
      ¬ OccursAt openingMark (a ++ b) p) :
    all (a ++ b) = all a ++ all b := by
  obtain ⟨front, hfront⟩ := Block.remainder_suffix a
  have hlen : a.length = front.length + (remainder a).length := by
    rw [← List.length_append, hfront]
  have hrest : ∀ n, n < (remainder a).length → ¬ OccursAt openingMark (remainder a ++ b) n := by
    intro n hn hmark
    refine h (front.length + n) (by omega) (by omega) ?_
    rw [← hfront, List.append_assoc]
    exact Text.occursAt_append_right.mpr hmark
  rw [all, Block.all_append, Block.all_append_of_no_opening hrest, List.map_append]
  rfl

/-- The mark that stands unfinished behind the only block of the first text is not finished by the
second. -/
theorem all_append_behind_plain_comment :
    (∀ p, "/** one */ f(x) /*".toList.length - (remainder "/** one */ f(x) /*".toList).length ≤ p →
      p < "/** one */ f(x) /*".toList.length →
      ¬ OccursAt openingMark ("/** one */ f(x) /*".toList ++ " 2 */ /** three */ g()".toList) p) ∧
    all ("/** one */ f(x) /*".toList ++ " 2 */ /** three */ g()".toList) =
      all "/** one */ f(x) /*".toList ++ all " 2 */ /** three */ g()".toList := by
  have h : ∀ p, "/** one */ f(x) /*".toList.length -
      (remainder "/** one */ f(x) /*".toList).length ≤ p →
      p < "/** one */ f(x) /*".toList.length →
      ¬ OccursAt openingMark ("/** one */ f(x) /*".toList ++ " 2 */ /** three */ g()".toList) p := by
    have hrest : (remainder "/** one */ f(x) /*".toList).length = 3 := by decide +kernel
    intro p hle hlt
    rw [hrest] at hle
    change 15 ≤ p at hle
    change p < 18 at hlt
    obtain rfl | rfl | rfl : p = 15 ∨ p = 16 ∨ p = 17 := by omega
    all_goals decide
  exact ⟨h, all_append_of_no_opening_behind h⟩

end DocComments.Record
