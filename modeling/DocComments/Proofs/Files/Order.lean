import DocComments.Files.Path
import Mathlib.Data.String.Basic

/-!
# The order of paths

Paths are put in order by the steps they take, and that order is total: of two ways through a tree
exactly one comes first. Two paths that take the same steps are not told apart.
-/

namespace DocComments.Files

namespace Step

/-- Steps of different kinds are in the order of their kinds, and names in their own. -/
theorem before_iff {a b : Step} :
    a.before b = true ↔ a.rank < b.rank ∨ ∃ m n, a = name m ∧ b = name n ∧ m < n := by
  cases a <;> cases b <;> simp [before, rank]

theorem before_trans {a b c : Step} (h : a.before b = true) (h' : b.before c = true) :
    a.before c = true := by
  rw [before_iff] at h h' ⊢
  obtain hrank | ⟨l, m, rfl, rfl, hlm⟩ := h
  · obtain hrank' | ⟨m, n, rfl, rfl, -⟩ := h'
    · exact .inl (hrank.trans hrank')
    · exact .inl hrank
  · obtain hrank' | ⟨m', n, hm, rfl, hmn⟩ := h'
    · exact .inl hrank'
    · cases hm
      exact .inr ⟨l, n, rfl, rfl, String.lt_trans hlm hmn⟩

theorem before_irrefl (a : Step) : a.before a = false := by
  refine Bool.eq_false_iff.mpr fun h => ?_
  obtain hrank | ⟨m, n, rfl, hn, hmn⟩ := before_iff.mp h
  · exact Nat.lt_irrefl _ hrank
  · cases hn
    exact String.lt_irrefl m hmn

theorem exists_names_of_rank_eq {a b : Step} (h : a ≠ b) (hrank : a.rank = b.rank) :
    ∃ m n, a = name m ∧ b = name n := by
  cases a <;> cases b <;> simp_all [rank]

theorem before_total {a b : Step} (h : a ≠ b) : a.before b = true ∨ b.before a = true := by
  rw [before_iff, before_iff]
  obtain hrank | hrank | hrank := Nat.lt_trichotomy a.rank b.rank
  · exact .inl (.inl hrank)
  · obtain ⟨m, n, rfl, rfl⟩ := exists_names_of_rank_eq h hrank
    have hne : m ≠ n := fun hmn => h (congrArg name hmn)
    exact (lt_or_gt_of_ne hne).imp (fun hmn => .inr ⟨m, n, rfl, rfl, hmn⟩)
      fun hnm => .inr ⟨n, m, rfl, rfl, hnm⟩
  · exact .inr (.inl hrank)

end Step

namespace Path

theorem stepsBefore_cons_cons {a b : Step} {xs ys : List Step} :
    stepsBefore (a :: xs) (b :: ys) = true ↔
      a.before b = true ∨ a = b ∧ stepsBefore xs ys = true := by
  rw [stepsBefore]
  split
  · rename_i h
    subst h
    simp [Step.before_irrefl]
  · rename_i h
    simp [h]

theorem stepsBefore_trans {xs ys zs : List Step} (h : stepsBefore xs ys = true)
    (h' : stepsBefore ys zs = true) : stepsBefore xs zs = true := by
  induction xs generalizing ys zs with
  | nil => rfl
  | cons a xs ih =>
    cases ys with
    | nil => cases h
    | cons b ys =>
      cases zs with
      | nil => cases h'
      | cons c zs =>
        rw [stepsBefore_cons_cons] at h h' ⊢
        obtain hab | ⟨rfl, hxs⟩ := h
        · obtain hbc | ⟨rfl, -⟩ := h'
          · exact .inl (Step.before_trans hab hbc)
          · exact .inl hab
        · obtain hac | ⟨rfl, hys⟩ := h'
          · exact .inl hac
          · exact .inr ⟨rfl, ih hxs hys⟩

theorem stepsBefore_total (xs ys : List Step) :
    stepsBefore xs ys = true ∨ stepsBefore ys xs = true := by
  induction xs generalizing ys with
  | nil => exact .inl rfl
  | cons a xs ih =>
    cases ys with
    | nil => exact .inr rfl
    | cons b ys =>
      rw [stepsBefore_cons_cons, stepsBefore_cons_cons]
      by_cases hab : a = b
      · exact (ih ys).imp (fun h => .inr ⟨hab, h⟩) fun h => .inr ⟨hab.symm, h⟩
      · exact (Step.before_total hab).imp .inl .inl

theorem stepsBefore_antisymm {xs ys : List Step} (h : stepsBefore xs ys = true)
    (h' : stepsBefore ys xs = true) : xs = ys := by
  induction xs generalizing ys with
  | nil =>
    cases ys with
    | nil => rfl
    | cons b ys => cases h'
  | cons a xs ih =>
    cases ys with
    | nil => cases h
    | cons b ys =>
      have hnot (hab : a.before b = true) (hba : b.before a = true) : False :=
        Bool.eq_false_iff.mp (Step.before_irrefl a) (Step.before_trans hab hba)
      rw [stepsBefore_cons_cons] at h h'
      obtain hab | ⟨rfl, hxs⟩ := h
      · obtain hba | ⟨rfl, -⟩ := h'
        · exact (hnot hab hba).elim
        · exact (hnot hab hab).elim
      · obtain haa | ⟨-, hys⟩ := h'
        · exact (hnot haa haa).elim
        · rw [ih hxs hys]

/-- Two lists of ways that are in order, each of them once, and that hold the same ways are one. -/
theorem eq_of_mem_iff_of_ordered {xs ys : List (List Step)}
    (hxs : xs.Pairwise fun a b => stepsBefore a b = true ∧ a ≠ b)
    (hys : ys.Pairwise fun a b => stepsBefore a b = true ∧ a ≠ b)
    (h : ∀ a, a ∈ xs ↔ a ∈ ys) : xs = ys := by
  have hperm : xs.Perm ys :=
    (List.perm_ext_iff_of_nodup (hxs.imp And.right) (hys.imp And.right)).mpr h
  exact hperm.eq_of_pairwise (fun _ _ _ _ => stepsBefore_antisymm) (hxs.imp And.left)
    (hys.imp And.left)

theorem atMost_trans {p q r : Path} (h : p.atMost q = true) (h' : q.atMost r = true) :
    p.atMost r = true :=
  stepsBefore_trans h h'

theorem atMost_total (p q : Path) : (p.atMost q || q.atMost p) = true := by
  rw [Bool.or_eq_true]
  exact stepsBefore_total p.steps q.steps

end Path

end DocComments.Files
