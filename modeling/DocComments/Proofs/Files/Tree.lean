import DocComments.Files.Tree
import DocComments.Proofs.Text.Occurrence

/-!
# What stands in a tree

A tree is a list of entries, but nothing that is asked of it depends on their order: two trees in
which the same stands at every place have the same folders and files, list the same names, though
perhaps in another order, and stay the same when the same is put into them.
-/

namespace DocComments.Files.Tree

theorem lookup_cons_eq (x : Place × Entry) (t : Tree) (p : Place) :
    List.lookup p (x :: t) = if p = x.1 then some x.2 else t.lookup p := by
  obtain ⟨q, e⟩ := x
  by_cases h : p = q
  · rw [List.lookup_cons, beq_iff_eq.mpr h, if_pos h]
  · rw [List.lookup_cons, beq_eq_false_iff_ne.mpr h, if_neg h]

theorem isSome_get?_iff {t : Tree} {p : Place} (hp : p ≠ []) :
    (t.get? p).isSome = true ↔ ∃ e ∈ t, e.1 = p := by
  rw [get?, if_neg hp, List.lookup_isSome_iff]
  refine exists_congr fun e => and_congr_right fun _ => ?_
  rw [beq_iff_eq, eq_comm]

/-- Below a place is whatever stands at a longer one. -/
theorem mem_below_iff {t : Tree} {p q : Place} :
    q ∈ t.below p ↔ q ≠ [] ∧ (t.get? (p ++ q)).isSome = true := by
  rw [below, List.mem_filter, decide_eq_true_eq, List.mem_filterMap, and_comm]
  refine and_congr_right fun hq => ?_
  rw [isSome_get?_iff (List.append_ne_nil_of_right_ne_nil p hq)]
  simp only [Text.isPrefixOf?_eq_some_iff]

theorem mem_names_iff {t : Tree} {p : Place} {n : String} :
    n ∈ t.names p ↔ (t.get? (p ++ [n])).isSome = true := by
  rw [names, List.mem_filterMap]
  constructor
  · rintro ⟨q, hq, hn⟩
    split at hn <;> cases hn
    exact (mem_below_iff.mp hq).2
  · intro h
    exact ⟨[n], mem_below_iff.mpr ⟨by simp, h⟩, rfl⟩

theorem lookup_put (t : Tree) (p q : Place) (e : Entry) :
    (t.put p e).lookup q = if q = p then some e else t.lookup q := by
  induction t with
  | nil => exact lookup_cons_eq (p, e) [] q
  | cons x t ih =>
    obtain ⟨r, f⟩ := x
    by_cases hr : r = p
    · rw [put, if_pos hr, lookup_cons_eq, lookup_cons_eq]
      by_cases hq : q = p
      · rw [if_pos hq, if_pos hq]
      · rw [if_neg hq, if_neg hq, if_neg (by rwa [hr])]
    · rw [put, if_neg hr, lookup_cons_eq, lookup_cons_eq, ih]
      by_cases hq : q = r
      · rw [if_pos hq, if_neg (by rwa [hq]), if_pos hq]
      · rw [if_neg hq, if_neg hq]

theorem get?_put (t : Tree) (p q : Place) (e : Entry) :
    (t.put p e).get? q = if q ≠ [] ∧ q = p then some e else t.get? q := by
  by_cases hq : q = []
  · simp [get?, hq]
  · simp [get?, hq, lookup_put]

/-- What is put somewhere has no bearing on any other place. -/
theorem get?_put_of_ne {t : Tree} {p q : Place} (h : q ≠ p) (e : Entry) :
    (t.put p e).get? q = t.get? q := by
  rw [get?_put, if_neg fun hq => h hq.2]

theorem get?_put_self {t : Tree} {p : Place} (h : p ≠ []) (e : Entry) :
    (t.put p e).get? p = some e := by
  rw [get?_put, if_pos ⟨h, rfl⟩]

theorem isSome_get?_put {t : Tree} {p : Place} (h : (t.get? p).isSome = true) (q : Place)
    (e : Entry) : ((t.put q e).get? p).isSome = true := by
  rw [get?_put]
  split
  · rfl
  · exact h

theorem isFile_eq_false_of_isFolder {t : Tree} {p : Place} (h : t.isFolder p = true) :
    t.isFile p = false := by
  unfold isFolder at h
  unfold isFile
  split at h
  · rename_i hfolder
    rw [hfolder]
  · cases h

/-- A folder stays one as long as nothing is put in its place. -/
theorem isFolder_put {t : Tree} {p q : Place} (hq : t.isFolder q = false)
    (hp : t.isFolder p = true) (e : Entry) : (t.put q e).isFolder p = true := by
  have hne : p ≠ q := by
    rintro rfl
    rw [hp] at hq
    cases hq
  rw [isFolder, get?_put_of_ne hne]
  exact hp

/-- The same stands at every place of both trees. -/
def Same (t u : Tree) : Prop :=
  ∀ p, t.get? p = u.get? p

/-- The order of entries has no bearing on a tree that has no more than one for each place. -/
theorem same_of_perm {t u : Tree} (h : t.Perm u) (hplaces : (t.map Prod.fst).Nodup) : t.Same u := by
  intro p
  have hlookup : t.lookup p = u.lookup p := by
    induction h with
    | nil => rfl
    | cons x h ih =>
      rw [lookup_cons_eq, lookup_cons_eq, ih (List.nodup_cons.mp hplaces).2]
    | swap x y t =>
      have hne : y.1 ≠ x.1 := fun heq => (List.nodup_cons.mp hplaces).1 (by simp [heq])
      simp only [lookup_cons_eq]
      by_cases hx : p = x.1
      · rw [if_neg (by rw [hx]; exact hne.symm), if_pos hx, if_pos hx]
      · rw [if_neg hx, if_neg hx]
    | trans h h' ih ih' =>
      exact (ih hplaces).trans (ih' ((h.map Prod.fst).nodup_iff.mp hplaces))
  rw [get?, get?, hlookup]

namespace Same
variable {t u : Tree} (h : t.Same u)
include h

theorem symm : u.Same t :=
  fun p => (h p).symm

theorem isFolder (p : Place) : t.isFolder p = u.isFolder p := by
  rw [Tree.isFolder, h p, Tree.isFolder]

theorem isFile (p : Place) : t.isFile p = u.isFile p := by
  rw [Tree.isFile, h p, Tree.isFile]

theorem mem_below_iff {p q : Place} : q ∈ t.below p ↔ q ∈ u.below p := by
  rw [Tree.mem_below_iff, Tree.mem_below_iff, h]

theorem mem_names_iff {p : Place} {n : String} : n ∈ t.names p ↔ n ∈ u.names p := by
  rw [Tree.mem_names_iff, Tree.mem_names_iff, h]

theorem put (p : Place) (e : Entry) : (t.put p e).Same (u.put p e) := by
  intro q
  rw [get?_put, get?_put, h q]

end Same

end DocComments.Files.Tree
