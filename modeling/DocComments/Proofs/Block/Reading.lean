import DocComments.Block
import DocComments.Proofs.Text.Occurrence
import DocComments.Proofs.Text.Trimming
import Mathlib.Order.Nat

/-!
# What is read as the first block

The reader of blocks goes through a text character by character. Here the block that it comes upon
first is told by places instead: the least place of an opening mark, and the least place behind it
where a comment can end. The blocks of a text are its first block and those of the text behind;
induction along them is how other modules come to speak about all of them.
-/

namespace DocComments.Text.Found
variable {α : Type} {s t : List Char}

/-- The value that was read and the text after it. -/
def parts (f : Found α s) : α × List Char :=
  (f.value, f.rest)

theorem map_parts_within (o : Option (Found α t)) (h : t.length ≤ s.length) :
    (o.map (·.within h)).map parts = o.map parts := by
  cases o <;> rfl

theorem exists_of_map_parts {o : Option (Found α s)} {a : α} {rest : List Char}
    (h : o.map parts = some (a, rest)) : ∃ f, o = some f ∧ f.value = a ∧ f.rest = rest := by
  cases o with
  | none => cases h
  | some f =>
    cases h
    exact ⟨f, rfl, rfl, rfl⟩

end DocComments.Text.Found

namespace DocComments.Block
open Text (Found OccursAt trimStart)
open Unicode (isBlank)

/-- Code can be found at the front of a text that holds a terminator and does not start with
one. -/
structure CodeFollows (r : List Char) : Prop where
  nonempty : r ≠ []
  notAtOnce : ∀ c, r.head? = some c → isTerminator c = false
  somewhere : ∃ c ∈ r, isTerminator c = true

/-- A comment that is opened at place `p` can end at place `q`. -/
structure EndsAt (s : List Char) (p q : Nat) : Prop where
  body : p + 4 ≤ q
  mark : OccursAt closingMark s q
  code : CodeFollows (s.drop (q + 2))

/-- The first block of a text is opened at place `p`, and its comment ends at place `q`. -/
structure FirstBlock (s : List Char) (p q : Nat) : Prop where
  opens : IsLeast {p | OccursAt openingMark s p} p
  ends : IsLeast {q | EndsAt s p q} q

/-- The code at the front of a text: from its first character that is not blank through its first
terminator, or from the character before if these two are the same. -/
def codeText (r : List Char) : List Char :=
  let start := r.findIdx (!isBlank ·)
  let stop := r.findIdx isTerminator
  r.extract (if start = stop then stop - 1 else start) (stop + 1)

/-- The block that is opened at place `p` and whose comment ends at place `q`. -/
def blockAt (s : List Char) (p q : Nat) : Block where
  comment := String.ofList (s.extract p (q + 2))
  code := String.ofList (codeText (s.drop (q + 2)))

/-- The text behind a block whose comment ends at place `q`. -/
def afterBlock (s : List Char) (q : Nat) : List Char :=
  (s.drop (q + 2)).drop ((s.drop (q + 2)).findIdx isTerminator + 1)

/-- What stands behind a place stands behind every earlier place too. -/
theorem exists_mem_drop_of_le {s : List Char} {m n : Nat} (hle : m ≤ n) {P : Char → Prop}
    (h : ∃ c ∈ s.drop n, P c) : ∃ c ∈ s.drop m, P c := by
  obtain ⟨c, hc, hP⟩ := h
  have hdrop : s.drop n = (s.drop m).drop (n - m) := by
    rw [List.drop_drop]
    congr 1
    omega
  rw [hdrop] at hc
  exact ⟨c, List.mem_of_mem_drop hc, hP⟩

theorem isTerminator_of_isBlank {c : Char} (h : isBlank c = true) : isTerminator c = false := by
  cases ht : isTerminator c with
  | false => rfl
  | true =>
    simp only [isTerminator, Bool.or_eq_true, beq_iff_eq] at ht
    rcases ht with (rfl | rfl) | rfl <;> cases h

theorem throughTerminator?_eq_some {s : List Char} (h : ∃ c ∈ s, isTerminator c = true) :
    (throughTerminator? s).map Found.parts =
      some (s.take (s.findIdx isTerminator + 1), s.drop (s.findIdx isTerminator + 1)) := by
  induction s with
  | nil => simp at h
  | cons c s ih =>
    rw [throughTerminator?, List.findIdx_cons]
    cases hc : isTerminator c with
    | true => rfl
    | false =>
      obtain ⟨d, hd, ht⟩ := h
      have hmem : d ∈ s := by
        rcases List.mem_cons.mp hd with rfl | hd
        · rw [hc] at ht; cases ht
        · exact hd
      obtain ⟨f, hf, hvalue, hrest⟩ := Found.exists_of_map_parts (ih ⟨d, hmem, ht⟩)
      simp [Found.parts, hf, hvalue, hrest]

theorem throughTerminator?_eq_none {s : List Char} (h : ∀ c ∈ s, isTerminator c = false) :
    throughTerminator? s = none := by
  induction s with
  | nil => rfl
  | cons c s ih =>
    simp [throughTerminator?, h c List.mem_cons_self, ih fun d hd => h d (List.mem_cons_of_mem c hd)]

/-- A text that holds a terminator: blanks, then a character that is not blank. -/
theorem exists_blanks_append {r : List Char} (h : ∃ c ∈ r, isTerminator c = true) :
    ∃ w c t, (∀ d ∈ w, isBlank d = true) ∧ isBlank c = false ∧ r = w ++ c :: t := by
  have hsplit : r = r.takeWhile isBlank ++ trimStart r := List.takeWhile_append_dropWhile.symm
  have hblank : ∀ d ∈ r.takeWhile isBlank, isBlank d = true :=
    fun d hd => List.all_eq_true.mp List.all_takeWhile d hd
  cases ht : trimStart r with
  | nil =>
    obtain ⟨c, hc, hterm⟩ := h
    rw [ht, List.append_nil] at hsplit
    rw [hsplit] at hc
    rw [isTerminator_of_isBlank (hblank c hc)] at hterm
    cases hterm
  | cons c t =>
    rw [ht] at hsplit
    exact ⟨_, c, t, hblank, Text.isBlank_of_trimStart_eq_cons ht, hsplit⟩

section
variable {w : List Char} {c : Char} (hw : ∀ d ∈ w, isBlank d = true) (hc : isBlank c = false)
  (t : List Char)
include hw

/-- Blanks in front move the first terminator by their number. -/
theorem findIdx_isTerminator_append (s : List Char) :
    (w ++ s).findIdx isTerminator = w.length + s.findIdx isTerminator := by
  rw [List.findIdx_append, if_neg, Nat.add_comm]
  rw [List.findIdx_lt_length]
  rintro ⟨d, hd, ht⟩
  rw [isTerminator_of_isBlank (hw d hd)] at ht
  cases ht

/-- A text with blanks in front does not start with a terminator, so only one without them can. -/
theorem not_isTerminator_of_head? (hfront : w = [] → isTerminator c = false) :
    ∀ d, (w ++ c :: t).head? = some d → isTerminator d = false := by
  intro d hd
  cases w with
  | nil => exact Option.some.inj hd ▸ hfront rfl
  | cons b w => exact Option.some.inj hd ▸ isTerminator_of_isBlank (hw b List.mem_cons_self)

include hc

theorem takeWhile_isBlank_append : (w ++ c :: t).takeWhile isBlank = w :=
  (Text.span_append (t := c :: t) hw fun _ hd => Option.some.inj hd ▸ hc).1

theorem trimStart_append : trimStart (w ++ c :: t) = c :: t :=
  (Text.span_append (t := c :: t) hw fun _ hd => Option.some.inj hd ▸ hc).2

theorem findIdx_not_isBlank_append : (w ++ c :: t).findIdx (!isBlank ·) = w.length := by
  rw [List.findIdx_append, if_neg, List.findIdx_cons, hc]
  · exact Nat.zero_add _
  · rw [List.findIdx_lt_length]
    rintro ⟨d, hd, h⟩
    rw [hw d hd] at h
    cases h

end

/-- Behind the end of a comment the code is read that stands there. -/
theorem code?_eq_some {r : List Char} (h : CodeFollows r) :
    (code? r).map Found.parts = some (codeText r, r.drop (r.findIdx isTerminator + 1)) := by
  obtain ⟨w, c, t, hw, hc, rfl⟩ := exists_blanks_append h.somewhere
  have hstart := findIdx_not_isBlank_append hw hc t
  have hstop := findIdx_isTerminator_append hw (c :: t)
  have hwhile := takeWhile_isBlank_append hw hc t
  rw [codeText, hstart, hstop]
  unfold code?
  split
  · rename_i hnil
    rw [trimStart_append hw hc t] at hnil
    cases hnil
  · rename_i d u hcons
    rw [trimStart_append hw hc t] at hcons
    injection hcons with hd hu
    subst hd hu
    cases hterm : isTerminator c with
    | true =>
      -- the terminator comes at once, so there is a blank before it
      have hzero : (c :: t).findIdx isTerminator = 0 := by simp [List.findIdx_cons, hterm]
      rcases List.eq_nil_or_concat w with rfl | ⟨w, b, rfl⟩
      · have hfalse := h.notAtOnce c rfl
        rw [hterm] at hfalse
        cases hfalse
      · have hlen : w.length + 1 + 1 - w.length = 2 := by omega
        rw [if_pos rfl, hwhile, hzero]
        simp [Found.parts, hlen, List.drop_append]
        omega
    | false =>
      have hpos : (c :: t).findIdx isTerminator ≠ 0 := by simp [List.findIdx_cons, hterm]
      have hsome : ∃ d ∈ c :: t, isTerminator d = true := by
        obtain ⟨d, hd, ht⟩ := h.somewhere
        rcases List.mem_append.mp hd with hd | hd
        · rw [isTerminator_of_isBlank (hw d hd)] at ht
          cases ht
        · exact ⟨d, hd, ht⟩
      rw [if_neg (by decide), Found.map_parts_within, throughTerminator?_eq_some hsome]
      rw [if_neg (by omega)]
      simp [List.drop_append, Nat.add_assoc]

theorem exists_of_throughTerminator? {s : List Char} {f : Found (List Char) s}
    (h : throughTerminator? s = some f) : ∃ c ∈ s, isTerminator c = true := by
  by_contra hnone
  have hall : ∀ c ∈ s, isTerminator c = false := by
    intro c hc
    exact Bool.eq_false_iff.mpr fun ht => hnone ⟨c, hc, ht⟩
  rw [throughTerminator?_eq_none hall] at h
  cases h

/-- Where code is read, it stands. -/
theorem codeFollows_of_code? {r : List Char} {f : Found (List Char) r}
    (h : code? r = some f) : CodeFollows r := by
  unfold code? at h
  split at h
  · cases h
  · rename_i c t hcons
    have hsplit : r = r.takeWhile isBlank ++ c :: t := by
      rw [← hcons]
      exact List.takeWhile_append_dropWhile.symm
    have hblank : ∀ d ∈ r.takeWhile isBlank, isBlank d = true :=
      fun d hd => List.all_eq_true.mp List.all_takeWhile d hd
    -- a terminator at the front is read only together with a blank before it
    have hfront : r.takeWhile isBlank = [] → isTerminator c = false := by
      intro hw
      cases hterm : isTerminator c with
      | false => rfl
      | true =>
        rw [if_pos hterm, hw] at h
        cases h
    obtain ⟨d, hd, ht⟩ : ∃ d ∈ c :: t, isTerminator d = true := by
      split at h
      · rename_i hterm
        exact ⟨c, List.mem_cons_self, hterm⟩
      · cases hf : throughTerminator? (c :: t) with
        | none =>
          rw [hf] at h
          cases h
        | some g => exact exists_of_throughTerminator? hf
    rw [hsplit]
    exact ⟨by simp, not_isTerminator_of_head? hblank t hfront, d, List.mem_append_right _ hd, ht⟩

theorem code?_eq_none {r : List Char} (h : ¬ CodeFollows r) : code? r = none := by
  cases hf : code? r with
  | none => rfl
  | some f => exact absurd (codeFollows_of_code? hf) h

/-- A comment ends at the front of a text if its closing mark stands there with code behind. -/
def EndsHere (s : List Char) : Prop :=
  closingMark <+: s ∧ CodeFollows (s.drop 2)

theorem codeAfterEnd?_eq_some {s : List Char} (h : EndsHere s) :
    (codeAfterEnd? s).map Found.parts = some (codeText (s.drop 2), afterBlock s 0) := by
  obtain ⟨⟨rest, rfl⟩, hcode⟩ := h
  have hread := code?_eq_some hcode
  have hle : rest.length ≤ (closingMark ++ rest).length := by simp
  change (code? rest).map Found.parts = _ at hread
  rw [← Found.map_parts_within (code? rest) hle] at hread
  exact hread

theorem codeAfterEnd?_eq_none {s : List Char} (h : ¬ EndsHere s) : codeAfterEnd? s = none := by
  unfold codeAfterEnd?
  split
  · rename_i rest
    have hnot : ¬ CodeFollows rest := fun hcode => h ⟨⟨rest, rfl⟩, hcode⟩
    rw [code?_eq_none hnot]
    rfl
  · rfl

/-- The body of a comment runs to the least place where the comment can end. -/
theorem bodyAndCode?_eq_some {s : List Char} {q : Nat}
    (h : IsLeast {q | EndsHere (s.drop q)} q) :
    (bodyAndCode? s).map Found.parts =
      some ((s.take q, codeText (s.drop (q + 2))), afterBlock s q) := by
  induction s generalizing q with
  | nil =>
    have hle := h.1.1.length_le
    simp [closingMark] at hle
  | cons c s ih =>
    rw [bodyAndCode?]
    by_cases hhere : EndsHere (c :: s)
    · have hq : q = 0 := Nat.le_zero.mp (h.2 hhere)
      subst hq
      obtain ⟨f, hf, hvalue, hrest⟩ := Found.exists_of_map_parts (codeAfterEnd?_eq_some hhere)
      simp [Found.parts, hf, hvalue, hrest]
    · rw [codeAfterEnd?_eq_none hhere]
      cases q with
      | zero => exact absurd h.1 hhere
      | succ q =>
        have hfirst : ∀ m, m < 1 → ¬ EndsHere ((c :: s).drop m) := by
          intro m hm
          rwa [Nat.lt_one_iff.mp hm]
        rw [Nat.add_comm q 1, Text.isLeast_add_iff hfirst] at h
        simp only [Nat.add_comm 1, List.drop_succ_cons] at h
        obtain ⟨f, hf, hvalue, hrest⟩ := Found.exists_of_map_parts (ih h)
        simp [Found.parts, hf, hvalue, hrest, afterBlock]

theorem bodyAndCode?_eq_none {s : List Char} (h : ∀ q, ¬ EndsHere (s.drop q)) :
    bodyAndCode? s = none := by
  induction s with
  | nil => rfl
  | cons c s ih =>
    have hhere : ¬ EndsHere (c :: s) := h 0
    rw [bodyAndCode?, codeAfterEnd?_eq_none hhere]
    simp [ih fun q => h (q + 1)]

theorem endsHere_drop_iff {s : List Char} {p j : Nat} :
    EndsHere ((s.drop (p + 4)).drop j) ↔ EndsAt s p (p + 4 + j) := by
  simp only [EndsHere, List.drop_drop, Nat.add_assoc]
  constructor
  · rintro ⟨hmark, hcode⟩
    exact ⟨by omega, hmark, hcode⟩
  · rintro ⟨_, hmark, hcode⟩
    exact ⟨hmark, hcode⟩

/-- The comment at the given places, put together from its delimiters and what stands between. -/
theorem extract_eq_delimited {s t : List Char} {p j : Nat} {c : Char}
    (hopen : OccursAt openingMark s p) (hbody : s.drop (p + 3) = c :: t)
    (hclose : closingMark <+: t.drop j) :
    s.extract p (p + 4 + j + 2) = openingMark ++ c :: t.take j ++ closingMark := by
  obtain ⟨rest, hrest⟩ := hclose
  have hlen : j ≤ t.length := by
    by_contra hlt
    rw [List.drop_eq_nil_of_le (by omega)] at hrest
    cases hrest
  have htake : (t.take j).length = j := by simp [hlen]
  have hdrop : s.drop p = (openingMark ++ c :: t.take j ++ closingMark) ++ rest := by
    calc s.drop p = openingMark ++ s.drop (p + 3) := hopen.drop_eq
      _ = openingMark ++ c :: (t.take j ++ t.drop j) := by rw [hbody, List.take_append_drop]
      _ = (openingMark ++ c :: t.take j ++ closingMark) ++ rest := by rw [← hrest]; simp
  have hsize : p + 4 + j + 2 - p = (openingMark ++ c :: t.take j ++ closingMark).length := by
    simp only [openingMark, closingMark, List.length_append, List.length_cons, List.length_nil,
      htake]
    omega
  rw [List.extract_eq_take_drop, hdrop, hsize, List.take_left]

/-- The first block is read at its places. -/
theorem first?_eq_some {s : List Char} {p q : Nat} (h : FirstBlock s p q) :
    (first? s).map Found.parts = some (blockAt s p q, afterBlock s q) := by
  have hafter : Text.after? openingMark s = some (s.drop (p + 3)) :=
    Text.after?_eq_some h.opens (by decide)
  have hend : q + 2 ≤ s.length := h.ends.1.mark.add_length_le (by decide)
  have hbody := h.ends.1.body
  obtain ⟨j, rfl⟩ : ∃ j, q = p + 4 + j := ⟨q - (p + 4), by omega⟩
  have hleast := h.ends
  rw [Text.isLeast_add_iff fun m hm hend => absurd hend.body (by omega)] at hleast
  simp only [← endsHere_drop_iff] at hleast
  have hread := bodyAndCode?_eq_some hleast
  unfold first?
  split
  · rename_i hnone
    rw [hafter] at hnone
    cases hnone
  · rename_i hnil
    rw [hafter, Option.some.injEq, List.drop_eq_nil_iff] at hnil
    omega
  · rename_i c t hcons
    rw [hafter, Option.some.injEq] at hcons
    have ht : s.drop (p + 4) = t := by
      rw [← Nat.add_assoc p 3 1, ← List.drop_drop, hcons]
      rfl
    have hcomment := extract_eq_delimited h.opens.1 hcons (ht ▸ hleast.1.1)
    rw [ht] at hread
    obtain ⟨f, hf, hvalue, hrest⟩ := Found.exists_of_map_parts hread
    simp only [hf, Option.map_some, Found.parts, Found.value_within, Found.rest_within,
      Found.value_map, Found.rest_map, hvalue, hrest, blockAt, hcomment, afterBlock]
    rw [← ht]
    simp [List.drop_drop, Nat.add_assoc]

theorem first?_eq_none_of_no_opening {s : List Char} (h : ∀ p, ¬ OccursAt openingMark s p) :
    first? s = none := by
  have hafter := Text.after?_eq_none h
  unfold first?
  split
  · rfl
  · rfl
  · rename_i hcons
    rw [hafter] at hcons
    cases hcons

/-- If the first comment has no end, no later one has. -/
theorem first?_eq_none_of_no_end {s : List Char} {p : Nat}
    (hopen : IsLeast {p | OccursAt openingMark s p} p) (h : ∀ q, ¬ EndsAt s p q) :
    first? s = none := by
  have hafter : Text.after? openingMark s = some (s.drop (p + 3)) :=
    Text.after?_eq_some hopen (by decide)
  unfold first?
  split
  · rfl
  · rfl
  · rename_i c t hcons
    rw [hafter, Option.some.injEq] at hcons
    have ht : s.drop (p + 4) = t := by
      rw [← Nat.add_assoc p 3 1, ← List.drop_drop, hcons]
      rfl
    have hnone : bodyAndCode? t = none := by
      apply bodyAndCode?_eq_none
      intro j hj
      rw [← ht] at hj
      exact h _ (endsHere_drop_iff.mp hj)
    rw [hnone]
    rfl

/-- Either nothing is opened, or what is opened first has no end, or it has one. -/
theorem first_cases (s : List Char) :
    (∀ p, ¬ OccursAt openingMark s p) ∨
      (∃ p, IsLeast {p | OccursAt openingMark s p} p ∧ ∀ q, ¬ EndsAt s p q) ∨
        ∃ p q, FirstBlock s p q := by
  classical
  by_cases hopen : ∃ p, OccursAt openingMark s p
  · have hp := Nat.isLeast_find hopen
    by_cases hend : ∃ q, EndsAt s (Nat.find hopen) q
    · exact Or.inr (Or.inr ⟨_, _, hp, Nat.isLeast_find hend⟩)
    · exact Or.inr (Or.inl ⟨_, hp, fun q hq => hend ⟨q, hq⟩⟩)
  · exact Or.inl fun p hp => hopen ⟨p, hp⟩

theorem first?_eq_none {s : List Char} (h : ∀ p q, ¬ FirstBlock s p q) : first? s = none := by
  rcases first_cases s with hopen | ⟨p, hopen, hend⟩ | ⟨p, q, hfirst⟩
  · exact first?_eq_none_of_no_opening hopen
  · exact first?_eq_none_of_no_end hopen hend
  · exact absurd hfirst (h p q)

theorem length_afterBlock_lt {s : List Char} {p q : Nat} (h : FirstBlock s p q) :
    (afterBlock s q).length < s.length := by
  have hend : q + 2 ≤ s.length := h.ends.1.mark.add_length_le (by decide)
  simp only [afterBlock, List.length_drop]
  omega

/-- What holds of texts without a block, and of a text if it holds behind its first block, holds
of all texts. -/
theorem block_induction {P : List Char → Prop}
    (none : ∀ s, (∀ p q, ¬ FirstBlock s p q) → P s)
    (block : ∀ s p q, FirstBlock s p q → P (afterBlock s q) → P s) (s : List Char) : P s := by
  induction hn : s.length using Nat.strongRecOn generalizing s with
  | ind n ih =>
    by_cases hfirst : ∃ p q, FirstBlock s p q
    · obtain ⟨p, q, hfirst⟩ := hfirst
      have hlt := length_afterBlock_lt hfirst
      exact block s p q hfirst (ih _ (hn ▸ hlt) _ rfl)
    · exact none s fun p q h => hfirst ⟨p, q, h⟩

theorem all_eq_nil {s : List Char} (h : ∀ p q, ¬ FirstBlock s p q) : all s = [] := by
  rw [all, first?_eq_none h]

theorem all_eq_cons {s : List Char} {p q : Nat} (h : FirstBlock s p q) :
    all s = blockAt s p q :: all (afterBlock s q) := by
  obtain ⟨f, hf, hvalue, hrest⟩ := Found.exists_of_map_parts (first?_eq_some h)
  rw [all, hf, ← hvalue, ← hrest]

end DocComments.Block
