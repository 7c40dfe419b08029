import DocComments.Proofs.Block.Reading

/-!
# Scanning from left to right

The blocks of a text are those of a scan that is told by places: from the end of the last block it
takes the first opening mark, then the first place where the comment can end, then the code. The
relation `Scan` tells this without the reader; that the reader finds the same blocks, and that
every text has a scan, is shown here.
-/

namespace DocComments.Block
open Text (OccursAt)

/-- The blocks that a scan of a text comes upon. If the first comment has no end, the scan ends
there, whatever follows. -/
inductive Scan : List Char → List Block → Prop
  | noOpening {s : List Char} (h : ∀ p, ¬ OccursAt openingMark s p) : Scan s []
  | noEnd {s : List Char} {p : Nat} (opens : IsLeast {p | OccursAt openingMark s p} p)
      (h : ∀ q, ¬ EndsAt s p q) : Scan s []
  | block {s : List Char} {p q : Nat} {bs : List Block} (h : FirstBlock s p q)
      (rest : Scan (afterBlock s q) bs) : Scan s (blockAt s p q :: bs)

theorem all_eq_of_scan {s : List Char} {bs : List Block} (h : Scan s bs) : all s = bs := by
  induction h with
  | noOpening hopen => exact all_eq_nil fun p _ hfirst => hopen p hfirst.opens.1
  | noEnd hopen hend =>
    apply all_eq_nil
    intro p q hfirst
    rw [← hopen.unique hfirst.opens] at hfirst
    exact hend q hfirst.ends.1
  | block hfirst _ ih => rw [all_eq_cons hfirst, ih]

theorem scan_exists (s : List Char) : ∃ bs, Scan s bs := by
  induction s using block_induction with
  | none s hnone =>
    rcases first_cases s with hopen | ⟨p, hopen, hend⟩ | ⟨p, q, hfirst⟩
    · exact ⟨[], .noOpening hopen⟩
    · exact ⟨[], .noEnd hopen hend⟩
    · exact absurd hfirst (hnone p q)
  | block s p q hfirst ih =>
    obtain ⟨bs, hbs⟩ := ih
    exact ⟨_, .block hfirst hbs⟩

/-- A scan of a text comes upon its blocks and upon no others, whatever the text. -/
theorem scan_iff_all_eq (s : List Char) (bs : List Block) : Scan s bs ↔ all s = bs := by
  constructor
  · exact all_eq_of_scan
  · rintro rfl
    obtain ⟨bs, hbs⟩ := scan_exists s
    rw [all_eq_of_scan hbs]
    exact hbs

end DocComments.Block
