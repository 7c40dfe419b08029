import DocComments.Files.Search
import DocComments.Proofs.Files.Path

/-!
# Files that a pattern names, in any listing of a tree

A search goes through the entries of a tree in their order, and so do the paths that it finds. Which
paths these are depends only on what stands where.
-/

namespace DocComments.Files.Search

/-- Every part of a path pattern is well formed. -/
def IsValid (s : String) : Prop :=
  ((parts s).mapM Pattern.ofText?).isSome = true

instance (s : String) : Decidable (IsValid s) :=
  inferInstanceAs (Decidable (((parts s).mapM Pattern.ofText?).isSome = true))

theorem exists_files_of_isValid {s : String} (h : IsValid s) (t : Tree) :
    ∃ found, files t s = .ok found := by
  obtain ⟨ps, hps⟩ := Option.isSome_iff_exists.mp h
  unfold files
  rw [hps]
  dsimp only
  split
  · exact ⟨_, rfl⟩
  · exact ⟨_, rfl⟩

/-- A path is one of those that a pattern names. -/
def Finds (t : Tree) (s : String) (p : Path) : Prop :=
  ∃ found, files t s = .ok found ∧ p ∈ found

theorem finds_iff {t : Tree} {s : String} {p : Path} :
    Finds t s p ↔ ∃ ps, (parts s).mapM Pattern.ofText? = some ps ∧
      (s = "" || s.toList.head? = some '/' || s.toList.getLast? = some '/') = false ∧
      p ∈ follow t false ps ["."] ∧ p.isFile t = true := by
  unfold Finds files
  cases (parts s).mapM Pattern.ofText? with
  | none => simp
  | some ps =>
    cases hends : (s = "" || s.toList.head? = some '/' || s.toList.getLast? = some '/' : Bool) with
    | true => simp
    | false => simp [List.mem_filter]

section
variable {t u : Tree} (h : t.Same u)
include h

theorem mem_children_same {p x : Path} : x ∈ children t p ↔ x ∈ children u p := by
  rw [children, children, Path.place?_same h]
  cases p.place? u with
  | none => rfl
  | some q =>
    dsimp only
    rw [h.isFolder]
    split
    · simp only [List.mem_map, h.mem_names_iff]
    · rfl

theorem mem_descendants_same {p x : Path} : x ∈ descendants t p ↔ x ∈ descendants u p := by
  rw [descendants, descendants, Path.place?_same h]
  cases p.place? u with
  | none => rfl
  | some q =>
    dsimp only
    rw [h.isFolder]
    split
    · simp only [List.mem_map, h.mem_below_iff]
    · rfl

theorem leadsOn_same (p : Path) (part : String) : leadsOn t p part = leadsOn u p part := by
  rw [leadsOn, leadsOn, Path.isFolder_same h, Path.get?_same h]

theorem dotPaths_same (p : Path) (ts : List Token) : dotPaths t p ts = dotPaths u p ts := by
  rw [dotPaths, dotPaths, Path.isFolder_same h]

theorem mem_stepsTo_same {p x : Path} {ts : List Token} :
    x ∈ stepsTo t p ts ↔ x ∈ stepsTo u p ts := by
  rw [stepsTo, stepsTo]
  cases Pattern.literal? ts with
  | some part =>
    dsimp only
    rw [leadsOn_same h]
  | none =>
    dsimp only
    rw [dotPaths_same h]
    simp only [List.mem_append, List.mem_filter, mem_children_same h]

theorem mem_follow_same {deep : Bool} {ps : List Pattern} {p x : Path} :
    x ∈ follow t deep ps p ↔ x ∈ follow u deep ps p := by
  induction ps generalizing deep p with
  | nil => rw [follow, follow]
  | cons pattern ps ih =>
    cases pattern with
    | anyFolders =>
      rw [follow, follow]
      exact ih
    | name ts =>
      rw [follow, follow, List.mem_flatMap, List.mem_flatMap]
      refine exists_congr fun y => and_congr ?_ ih
      split
      · simp only [List.mem_filter, mem_descendants_same h]
      · exact mem_stepsTo_same h

theorem finds_same {s : String} {p : Path} : Finds t s p ↔ Finds u s p := by
  rw [finds_iff, finds_iff]
  simp only [mem_follow_same h, Path.isFile_same h]

end

end DocComments.Files.Search
