import DocComments.Proofs.Block.Reading
import DocComments.Proofs.Text.LineEnds
import DocComments.Record.Reader
import Mathlib.Data.List.Forall2

/-!
# Records do not depend on line ends

A text is read once with line feeds and once with a carriage return before each of them. The two
runs of the reader keep in step: each of its parts answers both texts alike, and what it leaves of
the one is what it leaves of the other with carriage returns put in. So the blocks come in pairs,
with the same lines in their comments and the same code, as long as the code is on one line. Of code
that runs over several lines nothing is said.
-/

namespace DocComments.Block
open Text (Found trimStart withReturns)
open Unicode (isBlank)

/-- The answers of a reader to two texts: both have none, or values that are related, and what is
left of the second is what is left of the first with carriage returns. -/
inductive InStep {α β : Type} (R : α → β → Prop) {s t : List Char} :
    Option (Found α s) → Option (Found β t) → Prop
  | none : InStep R none none
  | some {f : Found α s} {g : Found β t} (value : R f.value g.value)
      (rest : g.rest = withReturns f.rest) : InStep R (some f) (some g)

/-- What is made of two answers in step is in step. -/
theorem InStep.map {α β γ δ : Type} {R : α → β → Prop} {R' : γ → δ → Prop} {s t u v : List Char}
    {x : Option (Found α s)} {y : Option (Found β t)} (h : InStep R x y)
    {F : Found α s → Found γ u} {G : Found β t → Found δ v} (hF : ∀ f, (F f).rest = f.rest)
    (hG : ∀ g, (G g).rest = g.rest)
    (hvalue : ∀ f g, R f.value g.value → R' (F f).value (G g).value) :
    InStep R' (x.map F) (y.map G) := by
  cases h with
  | none => exact .none
  | some value rest =>
    refine .some (hvalue _ _ value) ?_
    rw [hF, hG, rest]

/-! ### Code -/

theorem inStep_throughTerminator? (s : List Char) :
    InStep (fun code code' => code' = withReturns code) (throughTerminator? s)
      (throughTerminator? (withReturns s)) := by
  induction s with
  | nil => exact .none
  | cons c s ih =>
    by_cases hc : c = '\n'
    · subst hc
      have hstep : throughTerminator? (withReturns ('\n' :: s)) =
          ((throughTerminator? (withReturns s)).map fun f =>
            (f.map ('\n' :: ·)).behind).map fun f => (f.map ('\r' :: ·)).behind :=
        rfl
      rw [hstep, Option.map_map]
      refine ih.map (fun _ => rfl) (fun _ => rfl) ?_
      rintro f g hvalue
      simp [hvalue, Text.withReturns_feed_cons]
    · rw [Text.withReturns_cons s hc, throughTerminator?, throughTerminator?]
      cases hterm : isTerminator c with
      | true => exact .some (Text.withReturns_cons [] hc).symm rfl
      | false =>
        refine ih.map (fun _ => rfl) (fun _ => rfl) ?_
        rintro f g hvalue
        simp [hvalue, Text.withReturns_cons _ hc]

section
variable {s t : List Char} {c : Char}

theorem code?_of_nil (h : trimStart s = []) : code? s = none := by
  unfold code?
  split
  · rfl
  · rename_i hcons
    rw [h] at hcons
    cases hcons

/-- Code that starts with a terminator starts with the blank before it. -/
theorem code?_of_terminator (h : trimStart s = c :: t) (hc : isTerminator c = true) :
    code? s = (s.takeWhile isBlank).getLast?.map fun b =>
      ⟨[b, c], t, Text.length_le_of_trimStart_eq_cons h⟩ := by
  unfold code?
  split
  · rename_i hnil
    rw [h] at hnil
    cases hnil
  · rename_i d u hcons
    have heq := h.symm.trans hcons
    cases heq
    rw [if_pos hc]

theorem code?_of_not_terminator (h : trimStart s = c :: t) (hc : isTerminator c = false) :
    code? s =
      (throughTerminator? (c :: t)).map (·.within (Text.length_le_of_trimStart_eq_cons h)) := by
  unfold code?
  split
  · rename_i hnil
    rw [h] at hnil
    cases hnil
  · rename_i d u hcons
    have heq := h.symm.trans hcons
    cases heq
    rw [if_neg (by simp [hc])]

end

/-- Code on one line is the same in both texts. -/
def SameLine (code code' : List Char) : Prop :=
  '\n' ∉ code → code' = code

theorem inStep_code? (s : List Char) : InStep SameLine (code? s) (code? (withReturns s)) := by
  have hstart := Text.trimStart_withReturns s
  cases ht : trimStart s with
  | nil =>
    rw [ht, Text.withReturns_nil] at hstart
    rw [code?_of_nil ht, code?_of_nil hstart]
    exact .none
  | cons c t =>
    have hc : c ≠ '\n' := by
      rintro rfl
      exact absurd (Text.isBlank_of_trimStart_eq_cons ht) (by decide)
    rw [ht, Text.withReturns_cons t hc] at hstart
    cases hterm : isTerminator c with
    | true =>
      -- the blank before the terminator is the last of the blanks, also at a line end
      rw [code?_of_terminator ht hterm, code?_of_terminator hstart hterm,
        (Text.span_withReturns s).1, Text.getLast?_withReturns]
      cases (s.takeWhile isBlank).getLast? with
      | none => exact .none
      | some b => exact .some (fun _ => rfl) rfl
    | false =>
      rw [code?_of_not_terminator ht hterm, code?_of_not_terminator hstart hterm]
      have hcode := inStep_throughTerminator? (c :: t)
      rw [Text.withReturns_cons t hc] at hcode
      refine hcode.map (fun _ => rfl) (fun _ => rfl) ?_
      intro f g hvalue hline
      exact hvalue.trans (Text.withReturns_eq_self hline)

/-! ### Comments -/

theorem feed_not_mem_marks : '\n' ∉ openingMark ∧ '\n' ∉ closingMark := by decide

theorem return_not_mem_marks : '\r' ∉ openingMark ∧ '\r' ∉ closingMark := by decide

/-- Without its mark at the front a comment does not end there. -/
theorem codeAfterEnd?_of_not_closed {s : List Char} (h : ¬ closingMark <+: s) :
    codeAfterEnd? s = none :=
  codeAfterEnd?_eq_none fun hends => h hends.1

theorem inStep_codeAfterEnd? (s : List Char) :
    InStep SameLine (codeAfterEnd? s) (codeAfterEnd? (withReturns s)) := by
  have hprefix := Text.isPrefixOf?_withReturns feed_not_mem_marks.2 return_not_mem_marks.2 s
  by_cases hmark : closingMark <+: s
  · obtain ⟨rest, rfl⟩ := hmark
    rw [Text.withReturns_append, Text.withReturns_eq_self feed_not_mem_marks.2]
    exact (inStep_code? rest).map (fun _ => rfl) (fun _ => rfl) fun _ _ hvalue => hvalue
  · rw [Text.isPrefixOf?_eq_none_iff.mpr hmark] at hprefix
    rw [codeAfterEnd?_of_not_closed hmark,
      codeAfterEnd?_of_not_closed (Text.isPrefixOf?_eq_none_iff.mp hprefix)]
    exact .none

section
variable {s : List Char} {c : Char}

theorem bodyAndCode?_of_end {f : Found (List Char) (c :: s)} (h : codeAfterEnd? (c :: s) = some f) :
    bodyAndCode? (c :: s) = some (f.map ([], ·)) := by
  rw [bodyAndCode?, h]

theorem bodyAndCode?_of_no_end (h : codeAfterEnd? (c :: s) = none) :
    bodyAndCode? (c :: s) =
      (bodyAndCode? s).map fun f => (f.map fun x => (c :: x.1, x.2)).behind := by
  rw [bodyAndCode?, h]
  rfl

end

/-- A body has got carriage returns, and the code behind it is the same if it is on one line. -/
def SameBody (x x' : List Char × List Char) : Prop :=
  x'.1 = withReturns x.1 ∧ SameLine x.2 x'.2

theorem inStep_bodyAndCode? (s : List Char) :
    InStep SameBody (bodyAndCode? s) (bodyAndCode? (withReturns s)) := by
  induction s with
  | nil => exact .none
  | cons c s ih =>
    by_cases hc : c = '\n'
    · subst hc
      have hnone : ∀ t, codeAfterEnd? ('\n' :: t) = none := fun _ => rfl
      have hreturn : ∀ t, codeAfterEnd? ('\r' :: t) = none := fun _ => rfl
      rw [Text.withReturns_feed_cons, bodyAndCode?_of_no_end (hnone s),
        bodyAndCode?_of_no_end (hreturn _), bodyAndCode?_of_no_end (hnone _), Option.map_map]
      refine ih.map (fun _ => rfl) (fun _ => rfl) ?_
      rintro f g ⟨hbody, hcode⟩
      exact ⟨by simp [hbody, Text.withReturns_feed_cons], hcode⟩
    · have hend := inStep_codeAfterEnd? (c :: s)
      rw [Text.withReturns_cons s hc] at hend ⊢
      generalize hx : codeAfterEnd? (c :: s) = x at hend
      generalize hy : codeAfterEnd? (c :: withReturns s) = y at hend
      cases hend with
      | some value rest =>
        rw [bodyAndCode?_of_end hx, bodyAndCode?_of_end hy]
        exact .some ⟨rfl, value⟩ rest
      | none =>
        rw [bodyAndCode?_of_no_end hx, bodyAndCode?_of_no_end hy]
        refine ih.map (fun _ => rfl) (fun _ => rfl) ?_
        rintro f g ⟨hbody, hcode⟩
        exact ⟨by simp [hbody, Text.withReturns_cons _ hc], hcode⟩

/-- Two blocks between whose delimiters the lines end differently, with the same code if it is on
one line. -/
structure Resembles (b b' : Block) : Prop where
  comment : ∃ m, b.comment.toList = openingMark ++ m ++ closingMark ∧
    b'.comment.toList = openingMark ++ withReturns m ++ closingMark
  code : SameLine b.code.toList b'.code.toList

section
variable {s t : List Char} {c : Char}

theorem first?_of_opening (h : Text.after? openingMark s = some (c :: t))
    (hle : t.length ≤ s.length) :
    first? s = (bodyAndCode? t).map fun f => (f.map fun x =>
      { comment := String.ofList (openingMark ++ c :: x.1 ++ closingMark)
        code := String.ofList x.2 : Block }).within hle := by
  unfold first?
  split
  · rename_i hnone
    rw [h] at hnone
    cases hnone
  · rename_i hnil
    rw [h] at hnil
    cases hnil
  · rename_i d u hcons
    have heq := h.symm.trans hcons
    cases heq
    rfl

theorem first?_of_no_opening (h : ∀ c t, Text.after? openingMark s ≠ some (c :: t)) :
    first? s = none := by
  unfold first?
  split
  · rfl
  · rfl
  · rename_i hcons
    exact absurd hcons (h _ _)

end

theorem inStep_first? (s : List Char) :
    InStep Resembles (first? s) (first? (withReturns s)) := by
  have hafter := Text.after?_withReturns feed_not_mem_marks.1 return_not_mem_marks.1 s (by decide)
  cases hs : Text.after? openingMark s with
  | none =>
    rw [hs] at hafter
    rw [first?_of_no_opening (by simp [hs]), first?_of_no_opening (by simp [hafter])]
    exact .none
  | some rest =>
    rw [hs, Option.map_some] at hafter
    have hlength := Text.length_le_of_after? hs
    have hlength' := Text.length_le_of_after? hafter
    cases rest with
    | nil =>
      rw [Text.withReturns_nil] at hafter
      rw [first?_of_no_opening (by simp [hs]), first?_of_no_opening (by simp [hafter])]
      exact .none
    | cons c t =>
      rw [first?_of_opening hs (Nat.le_of_lt hlength)]
      by_cases hc : c = '\n'
      · subst hc
        rw [Text.withReturns_feed_cons] at hafter hlength'
        rw [first?_of_opening hafter (Nat.le_of_lt hlength'),
          bodyAndCode?_of_no_end (c := '\n') rfl, Option.map_map]
        refine (inStep_bodyAndCode? t).map (fun _ => rfl) (fun _ => rfl) ?_
        rintro f g ⟨hbody, hcode⟩
        refine ⟨⟨'\n' :: f.value.1, by simp, ?_⟩, by simpa [SameLine] using hcode⟩
        simp [hbody, Text.withReturns_feed_cons]
      · rw [Text.withReturns_cons t hc] at hafter hlength'
        rw [first?_of_opening hafter (Nat.le_of_lt hlength')]
        refine (inStep_bodyAndCode? t).map (fun _ => rfl) (fun _ => rfl) ?_
        rintro f g ⟨hbody, hcode⟩
        refine ⟨⟨c :: f.value.1, by simp, ?_⟩, by simpa [SameLine] using hcode⟩
        simp [hbody, Text.withReturns_cons _ hc]

theorem all_of_none {s : List Char} (h : first? s = none) : all s = [] := by
  rw [all, h]

theorem all_of_some {s : List Char} {f : Found Block s} (h : first? s = some f) :
    all s = f.value :: all f.rest := by
  rw [all, h]

/-- The blocks of the two texts come in pairs. -/
theorem all_resembles (s : List Char) : List.Forall₂ Resembles (all s) (all (withReturns s)) := by
  induction hn : s.length using Nat.strongRecOn generalizing s with
  | ind n ih =>
    have hfirst := inStep_first? s
    generalize hx : first? s = x at hfirst
    generalize hy : first? (withReturns s) = y at hfirst
    cases hfirst with
    | none =>
      rw [all_of_none hx, all_of_none hy]
      exact .nil
    | @some f g value rest =>
      rw [all_of_some hx, all_of_some hy, rest]
      exact .cons value (ih f.rest.length (hn ▸ f.shorter) f.rest rfl)

/-! ### Records -/

/-- The text between the delimiters of a comment. -/
theorem inside_delimited (m : List Char) :
    Comment.inside (openingMark ++ m ++ closingMark) = m := by
  have htrim : Text.trim (openingMark ++ m ++ closingMark) = openingMark ++ m ++ closingMark :=
    Text.trim_eq_self (c := '/') (d := '/') (s := '*' :: '*' :: m ++ ['*', '/'])
      (t := openingMark ++ m ++ ['*']) (by decide) (by decide) (by simp [openingMark])
  rw [Comment.inside, htrim]
  change Text.dropClosing closingMark (Text.dropOpening openingMark _) = m
  rw [List.append_assoc, Text.dropOpening_append, Text.dropClosing_append]

/-- The comments of two such blocks say the same. -/
theorem Resembles.read_eq {b b' : Block} (h : Resembles b b') (hreturn : '\r' ∉ b.comment.toList) :
    Comment.read b'.comment.toList = Comment.read b.comment.toList := by
  obtain ⟨m, hm, hm'⟩ := h.comment
  have hfree : '\r' ∉ m := fun hmem => hreturn (hm ▸ by simp [hmem])
  have hlines : Comment.commentLines b'.comment.toList =
      Comment.commentLines b.comment.toList := by
    rw [Comment.commentLines, Comment.commentLines, hm, hm', inside_delimited, inside_delimited,
      Text.lines_withReturns hfree]
  rw [Comment.read, Comment.read, hlines]

/-- What a comment holds stands in the text. -/
theorem mem_of_mem_comment {s : List Char} {b : Block} (hb : b ∈ all s) {c : Char}
    (hc : c ∈ b.comment.toList) : c ∈ s := by
  induction s using block_induction with
  | none s hnone =>
    rw [all_eq_nil hnone] at hb
    cases hb
  | block s p q hfirst ih =>
    rw [all_eq_cons hfirst] at hb
    rcases List.mem_cons.mp hb with rfl | hb
    · rw [blockAt, String.toList_ofList, List.extract_eq_take_drop] at hc
      exact List.mem_of_mem_drop (List.mem_of_mem_take hc)
    · exact List.mem_of_mem_drop (List.mem_of_mem_drop (ih hb))

end DocComments.Block

namespace DocComments.Record
open Text (withReturns)

/-- A text without carriage returns whose pieces of code are each on one line has the same records
when a carriage return is put before each line feed. -/
theorem all_withReturns {s : List Char} (hreturn : '\r' ∉ s)
    (hline : ∀ b ∈ Block.all s, '\n' ∉ b.code.toList) : all (withReturns s) = all s := by
  have hpair : ∀ {bs bs' : List Block}, List.Forall₂ Block.Resembles bs bs' →
      (∀ b ∈ bs, '\r' ∉ b.comment.toList ∧ '\n' ∉ b.code.toList) →
        bs'.map ofBlock = bs.map ofBlock := by
    intro bs bs' h hbs
    induction h with
    | nil => rfl
    | @cons b b' bs bs' hb _ ih =>
      obtain ⟨⟨hfree, hcode⟩, hbs⟩ := List.forall_mem_cons.mp hbs
      rw [List.map_cons, List.map_cons, ih hbs, ofBlock, ofBlock, hb.read_eq hfree, hb.code hcode]
  refine hpair (Block.all_resembles s) fun b hb => ⟨?_, hline b hb⟩
  exact fun hmem => hreturn (Block.mem_of_mem_comment hb hmem)

/-- A comment over several lines, with a tag and an example. -/
theorem all_withReturns_lines :
    let source := "/**\n * Add.\n *\n * @param {number} a\n * @example\n * add(1)\n */\nadd(a)".toList
    (∃ b ∈ Block.all source, '\n' ∈ b.comment.toList) ∧ all (withReturns source) = all source := by
  intro source
  have hreturn : '\r' ∉ source := by decide
  have hline : ∀ b ∈ Block.all source, '\n' ∉ b.code.toList := by decide +kernel
  exact ⟨by decide +kernel, all_withReturns hreturn hline⟩

end DocComments.Record
