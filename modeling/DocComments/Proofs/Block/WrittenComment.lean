import DocComments.Proofs.Block.Append
import DocComments.Proofs.Block.SingleComment

/-!
# Single comments in front of code

A single comment with code behind it is a block of its own, and the scan goes on directly behind
that code. The code is taken to start with a character that is neither blank nor a terminator;
nothing is said of comments that are not single.
-/

namespace DocComments.Block
open Text (OccursAt)
open Unicode (isBlank)

/-- A text that is one comment from its first to its last character. -/
structure IsComment (comment : List Char) : Prop where
  opens : OccursAt openingMark comment 0
  closes : OccursAt closingMark comment (comment.length - 2)
  body : 6 ≤ comment.length
  single : IsSingle comment

section
variable {comment r : List Char} (h : IsComment comment) (hcode : CodeFollows r)
include h hcode

theorem IsComment.firstBlock : FirstBlock (comment ++ r) 0 (comment.length - 2) := by
  have hbody := h.body
  have hlen : comment.length - 2 + 2 = comment.length := by omega
  refine ⟨⟨h.opens.append r, fun m _ => Nat.zero_le m⟩, ⟨⟨by omega, h.closes.append r, ?_⟩, ?_⟩⟩
  · rwa [hlen, List.drop_left]
  · intro m hm
    by_contra hlt
    have hin : m + closingMark.length ≤ comment.length := by
      change m + 2 ≤ comment.length
      omega
    have hmark : OccursAt closingMark comment m := (Text.occursAt_append_left hin).mp hm.mark
    exact h.single m (by omega) hmark

/-- A comment with code behind it makes a block, and the others are those of the text behind. -/
theorem IsComment.all_append :
    all (comment ++ r) =
      ⟨String.ofList comment, String.ofList (codeText r)⟩ ::
        all (r.drop (r.findIdx isTerminator + 1)) := by
  have hbody := h.body
  have hlen : comment.length - 2 + 2 = comment.length := by omega
  rw [all_eq_cons (h.firstBlock hcode), blockAt, afterBlock, hlen, List.drop_left,
    List.extract_eq_take_drop, List.drop_zero, Nat.sub_zero, List.take_left]

end

section
variable {w code s : List Char} {c d : Char} (hw : ∀ b ∈ w, isBlank b = true)
  (hc : isBlank c = false) (hcode : ∀ b ∈ c :: code, isTerminator b = false)
  (hd : isTerminator d = true)
include hw hcode hd

theorem findIdx_isTerminator_code :
    (w ++ (c :: code ++ d :: s)).findIdx isTerminator = w.length + (c :: code).length := by
  have hnone : ¬ (c :: code).findIdx isTerminator < (c :: code).length := by
    rw [List.findIdx_lt_length]
    rintro ⟨b, hb, hterm⟩
    rw [hcode b hb] at hterm
    cases hterm
  rw [findIdx_isTerminator_append hw, List.findIdx_append, if_neg hnone, List.findIdx_cons, hd]
  simp

theorem codeFollows_code : CodeFollows (w ++ (c :: code ++ d :: s)) := by
  refine ⟨by simp, ?_, d, by simp, hd⟩
  exact not_isTerminator_of_head? hw _ fun _ => hcode c List.mem_cons_self

theorem drop_code :
    (w ++ (c :: code ++ d :: s)).drop ((w ++ (c :: code ++ d :: s)).findIdx isTerminator + 1) =
      s := by
  rw [findIdx_isTerminator_code hw hcode hd, Nat.add_assoc, List.drop_length_add_append,
    List.drop_length_add_append]
  rfl

include hc

/-- The code in front of a text goes from its first character through the terminator. -/
theorem codeText_code : codeText (w ++ (c :: code ++ d :: s)) = c :: code ++ [d] := by
  have hstop := findIdx_isTerminator_code (s := s) hw hcode hd
  have hstart : (w ++ (c :: code ++ d :: s)).findIdx (!isBlank ·) = w.length :=
    findIdx_not_isBlank_append hw hc (code ++ d :: s)
  have hlen : w.length + (c :: code).length + 1 - w.length = (c :: code).length + 1 := by omega
  have hne : w.length ≠ w.length + (c :: code).length := by simp
  rw [codeText, hstop, hstart, if_neg hne, List.extract_eq_take_drop, List.drop_left, hlen,
    List.take_length_add_append]
  rfl

end

/-- A text without opening marks stays without them if the text behind it starts with a slash. -/
theorem not_occursAt_openingMark_append {t b : List Char} (ht : ¬ openingMark <:+: t)
    (hb : ∀ c, b.head? = some c → c = '/') {n : Nat} (hn : n < t.length) :
    ¬ OccursAt openingMark (t ++ b) n := by
  intro hmark
  by_cases hin : n + openingMark.length ≤ t.length
  · exact ht ((Text.occursAt_append_left hin).mp hmark).isInfix
  · -- one of the two stars is the first character of the text behind
    obtain ⟨k, hk, hstar⟩ : ∃ k, n + k = t.length ∧ openingMark[k]? = some '*' := by
      change ¬ n + 3 ≤ t.length at hin
      obtain hlen | hlen : n + 1 = t.length ∨ n + 2 = t.length := by omega
      · exact ⟨1, hlen, rfl⟩
      · exact ⟨2, hlen, rfl⟩
    have hhead : b.head? = some '*' := by
      have hstart : b = (t ++ b).drop (n + k) := by rw [hk, List.drop_left]
      obtain ⟨rest, hrest⟩ := hmark
      rw [hstart, List.head?_eq_getElem?, List.getElem?_drop, Nat.add_zero, ← List.getElem?_drop,
        ← hrest, List.getElem?_append_left (List.getElem?_eq_some_iff.mp hstar).1, hstar]
    exact absurd (hb '*' hhead) (by decide)

end DocComments.Block
