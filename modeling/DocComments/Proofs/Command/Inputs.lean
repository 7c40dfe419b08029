import DocComments.Command.Run
import DocComments.Proofs.Files.Order
import DocComments.Proofs.Files.Search

/-!
# The files that patterns name

The list of files that a run reads is in the order of their steps and has each way once, whatever
the order and number of the patterns. That makes it canonical up to the spelling of paths: which of
two spellings of one way stands in the list is left open, and so is whether two ways lead to one
file.
-/

namespace DocComments.Command
open Files (Path Place Step Tree)
open Files.Search (Finds IsValid)

/-! ### One pattern -/

/-- A path is one of those that a pattern names. -/
def Names (t : Tree) (pattern : String) (p : Path) : Prop :=
  ∃ found, expand t pattern = .ok found ∧ p ∈ found

theorem names_iff {t : Tree} {pattern : String} {p : Path} :
    Names t pattern p ↔
      if (Path.ofText pattern).isFile t then p = Path.ofText pattern
      else if (Path.ofText pattern).isFolder t then p ∈ sourcesIn t (Path.ofText pattern)
      else Finds t pattern p := by
  unfold Names expand
  dsimp only
  split
  · simp
  · split
    · simp
    · unfold Finds
      cases Files.Search.files t pattern with
      | ok found => simp
      | error fault =>
        cases fault
        simp

theorem exists_expand_of_isValid {pattern : String} (h : IsValid pattern) (t : Tree) :
    ∃ found, expand t pattern = .ok found := by
  obtain ⟨found, hfound⟩ := Files.Search.exists_files_of_isValid h t
  unfold expand
  dsimp only
  rw [hfound]
  split
  · exact ⟨_, rfl⟩
  · split
    · exact ⟨_, rfl⟩
    · exact ⟨_, rfl⟩

theorem mem_sourcesIn_iff {t : Tree} {p x : Path} :
    x ∈ sourcesIn t p ↔ ∃ q n, p.place? t = some q ∧ n ∈ t.names q ∧
      t.isFile (q ++ [n]) = true ∧ (sourceStem? n).isSome = true ∧ p.join n = x := by
  unfold sourcesIn
  cases p.place? t with
  | none => simp
  | some q => simp [List.mem_filterMap, and_assoc]

/-- The empty text and dots are no names of source files. -/
theorem ofPart?_of_isSome_sourceStem? {n : String} (h : (sourceStem? n).isSome = true) :
    Step.ofPart? n = some (.name n) := by
  have hne (m : String) (hm : sourceStem? m = none) : n ≠ m := by
    rintro rfl
    rw [hm] at h
    cases h
  rw [Step.ofPart?, if_neg (by simp [hne "" (by decide), hne "." (by decide)]),
    if_neg (hne ".." (by decide))]

theorem isFile_of_mem_sourcesIn {t : Tree} {p x : Path} (hfolder : p.isFolder t = true)
    (hx : x ∈ sourcesIn t p) : x.isFile t = true := by
  obtain ⟨q, n, hq, hn, hfile, hstem, rfl⟩ := mem_sourcesIn_iff.mp hx
  rw [Path.isFolder, hq] at hfolder
  have hplace := Path.place?_join hq hfolder (ofPart?_of_isSome_sourceStem? hstem)
    (Tree.mem_names_iff.mp hn)
  rw [Path.isFile, hplace]
  exact hfile

theorem isFile_of_names {t : Tree} {pattern : String} {p : Path} (h : Names t pattern p) :
    p.isFile t = true := by
  rw [names_iff] at h
  split at h
  · rename_i hfile
    rwa [h]
  · split at h
    · rename_i hfolder
      exact isFile_of_mem_sourcesIn hfolder h
    · obtain ⟨ps, -, -, -, hfile⟩ := Files.Search.finds_iff.mp h
      exact hfile

theorem mem_sourcesIn_same {t u : Tree} (h : t.Same u) {p x : Path} :
    x ∈ sourcesIn t p ↔ x ∈ sourcesIn u p := by
  simp only [mem_sourcesIn_iff, Path.place?_same h, h.mem_names_iff, h.isFile]

theorem names_same {t u : Tree} (h : t.Same u) {pattern : String} {p : Path} :
    Names t pattern p ↔ Names u pattern p := by
  simp only [names_iff, Path.isFile_same h, Path.isFolder_same h, mem_sourcesIn_same h,
    Files.Search.finds_same h]

/-! ### Each way once -/

theorem dropRepeats_sublist (ps : List Path) : (dropRepeats ps).Sublist ps := by
  induction ps with
  | nil => exact .slnil
  | cons p ps ih =>
    rw [dropRepeats]
    split
    · exact (List.nil_sublist ps).cons_cons p
    · rename_i q qs hqs
      rw [hqs] at ih
      split
      · exact (List.sublist_of_cons_sublist ih).cons_cons p
      · exact ih.cons_cons p

/-- No way is lost with a repeated path. -/
theorem exists_mem_dropRepeats {ps : List Path} {p : Path} (h : p ∈ ps) :
    ∃ q ∈ dropRepeats ps, q.steps = p.steps := by
  induction ps with
  | nil => cases h
  | cons r ps ih =>
    rw [dropRepeats]
    split
    · rename_i hnil
      obtain rfl | hmem := List.mem_cons.mp h
      · exact ⟨p, List.mem_singleton_self p, rfl⟩
      · obtain ⟨q, hq, -⟩ := ih hmem
        rw [hnil] at hq
        cases hq
    · rename_i x xs hxs
      rw [hxs] at ih
      split
      · rename_i hsteps
        obtain rfl | hmem := List.mem_cons.mp h
        · exact ⟨p, List.mem_cons_self, rfl⟩
        · obtain ⟨q, hq, hqp⟩ := ih hmem
          obtain rfl | hq := List.mem_cons.mp hq
          · exact ⟨r, List.mem_cons_self, hsteps.trans hqp⟩
          · exact ⟨q, List.mem_cons_of_mem r hq, hqp⟩
      · obtain rfl | hmem := List.mem_cons.mp h
        · exact ⟨p, List.mem_cons_self, rfl⟩
        · obtain ⟨q, hq, hqp⟩ := ih hmem
          exact ⟨q, List.mem_cons_of_mem r hq, hqp⟩

/-- Of paths in order, those with the same steps are neighbours, so each way is left once. -/
theorem pairwise_dropRepeats {ps : List Path} (h : ps.Pairwise fun p q => p.atMost q = true) :
    (dropRepeats ps).Pairwise fun p q => p.atMost q = true ∧ p.steps ≠ q.steps := by
  induction ps with
  | nil => exact .nil
  | cons p ps ih =>
    obtain ⟨hp, hps⟩ := List.pairwise_cons.mp h
    rw [dropRepeats]
    split
    · exact List.pairwise_singleton _ p
    · rename_i q qs hqs
      have hmem : ∀ r ∈ q :: qs, p.atMost r = true := fun r hr =>
        hp r ((dropRepeats_sublist ps).mem (hqs ▸ hr))
      have hsorted := ih hps
      rw [hqs] at hsorted
      obtain ⟨hq, hrest⟩ := List.pairwise_cons.mp hsorted
      split
      · rename_i hsteps
        refine List.pairwise_cons.mpr ⟨fun r hr => ⟨hmem r (List.mem_cons_of_mem q hr), ?_⟩, hrest⟩
        rw [hsteps]
        exact (hq r hr).2
      · rename_i hsteps
        refine List.pairwise_cons.mpr ⟨fun r hr => ⟨hmem r hr, ?_⟩, hsorted⟩
        obtain rfl | hr := List.mem_cons.mp hr
        · exact hsteps
        · -- a later path on the way of the first would bring its neighbour there, too
          intro hpr
          have hqp : q.atMost p = true := by
            rw [Path.atMost, hpr]
            exact (hq r hr).1
          exact hsteps (Path.stepsBefore_antisymm (hmem q List.mem_cons_self) hqp)

/-! ### All patterns -/

/-- A list of paths has every file that patterns name, in order and each way once. -/
structure Lists (t : Tree) (patterns : List String) (paths : List Path) : Prop where
  ordered : paths.Pairwise fun p q => p.atMost q = true ∧ p.steps ≠ q.steps
  named : ∀ p ∈ paths, ∃ s ∈ patterns, Names t s p
  complete : ∀ s ∈ patterns, ∀ p, Names t s p → ∃ q ∈ paths, q.steps = p.steps

theorem forall₂_of_mapM {t : Tree} {patterns : List String} {found : List (List Path)}
    (h : patterns.mapM (expand t) = .ok found) :
    List.Forall₂ (fun s xs => expand t s = .ok xs) patterns found := by
  induction patterns generalizing found with
  | nil =>
    cases h
    exact .nil
  | cons s patterns ih =>
    rw [List.mapM_cons] at h
    cases hs : expand t s with
    | error e =>
      rw [hs] at h
      cases h
    | ok xs =>
      cases hrest : patterns.mapM (expand t) with
      | error e =>
        rw [hs, hrest] at h
        cases h
      | ok rest =>
        rw [hs, hrest] at h
        cases h
        exact .cons hs (ih hrest)

theorem exists_mapM_expand {t : Tree} {patterns : List String}
    (h : ∀ s ∈ patterns, IsValid s) : ∃ found, patterns.mapM (expand t) = .ok found := by
  induction patterns with
  | nil => exact ⟨[], rfl⟩
  | cons s patterns ih =>
    obtain ⟨xs, hxs⟩ := exists_expand_of_isValid (h s List.mem_cons_self) t
    obtain ⟨rest, hrest⟩ := ih fun s hs => h s (List.mem_cons_of_mem _ hs)
    refine ⟨xs :: rest, ?_⟩
    rw [List.mapM_cons, hxs, hrest]
    rfl

theorem mem_flatten_iff {t : Tree} {patterns : List String} {found : List (List Path)}
    (h : List.Forall₂ (fun s xs => expand t s = .ok xs) patterns found) {p : Path} :
    p ∈ found.flatten ↔ ∃ s ∈ patterns, Names t s p := by
  induction h with
  | nil => simp
  | cons hs _ ih => simp [ih, Names, hs]

theorem lists_of_inputs {t : Tree} {patterns : List String} {paths : List Path}
    (h : inputs t patterns = .ok paths) : Lists t patterns paths := by
  unfold inputs at h
  split at h
  · cases h
  · rename_i found hfound
    cases h
    have hmem {p : Path} :
        p ∈ found.flatten.mergeSort Path.atMost ↔ ∃ s ∈ patterns, Names t s p := by
      rw [List.mem_mergeSort, mem_flatten_iff (forall₂_of_mapM hfound)]
    have hsorted : (found.flatten.mergeSort Path.atMost).Pairwise fun p q => p.atMost q = true := by
      apply List.pairwise_mergeSort
      · exact fun p q r => Path.atMost_trans
      · exact Path.atMost_total
    exact {
      ordered := pairwise_dropRepeats hsorted
      named := fun p hp => hmem.mp ((dropRepeats_sublist _).mem hp)
      complete := fun s hs p hp => exists_mem_dropRepeats (hmem.mpr ⟨s, hs, hp⟩) }

theorem exists_inputs {t : Tree} {patterns : List String} (h : ∀ s ∈ patterns, IsValid s) :
    ∃ paths, inputs t patterns = .ok paths := by
  obtain ⟨found, hfound⟩ := exists_mapM_expand (t := t) h
  unfold inputs
  rw [hfound]
  exact ⟨_, rfl⟩

theorem dropRepeats_eq_self {ps : List Path}
    (h : ps.Pairwise fun p q => p.atMost q = true ∧ p.steps ≠ q.steps) : dropRepeats ps = ps := by
  induction ps with
  | nil => rfl
  | cons p ps ih =>
    obtain ⟨hp, hps⟩ := List.pairwise_cons.mp h
    rw [dropRepeats, ih hps]
    cases ps with
    | nil => rfl
    | cons q qs =>
      dsimp only
      rw [if_neg (hp q List.mem_cons_self).2]

/-- Nothing is done to paths that are in order already, each way once. -/
theorem inputs_of_ordered {t : Tree} {patterns : List String} (found : List (List Path))
    (h : patterns.mapM (expand t) = .ok found)
    (hordered : found.flatten.Pairwise fun p q => p.atMost q = true ∧ p.steps ≠ q.steps) :
    inputs t patterns = .ok found.flatten := by
  rw [inputs, h]
  dsimp only
  rw [List.mergeSort_of_pairwise (hordered.imp And.left), dropRepeats_eq_self hordered]

theorem Lists.isFile {t : Tree} {patterns : List String} {paths : List Path}
    (h : Lists t patterns paths) {p : Path} (hp : p ∈ paths) : p.isFile t = true := by
  obtain ⟨s, -, hs⟩ := h.named p hp
  exact isFile_of_names hs

/-- Two lists of the same files take the same ways, one after the other. -/
theorem Lists.map_steps_eq {t u : Tree} (h : t.Same u) {ps qs : List String} {xs ys : List Path}
    (hpatterns : ∀ s, s ∈ ps ↔ s ∈ qs) (hxs : Lists t ps xs) (hys : Lists u qs ys) :
    xs.map Path.steps = ys.map Path.steps := by
  refine Path.eq_of_mem_iff_of_ordered (List.pairwise_map.mpr hxs.ordered)
    (List.pairwise_map.mpr hys.ordered) fun a => ?_
  rw [List.mem_map, List.mem_map]
  constructor
  · rintro ⟨p, hp, rfl⟩
    obtain ⟨s, hs, hnames⟩ := hxs.named p hp
    exact hys.complete s ((hpatterns s).mp hs) p ((names_same h).mp hnames)
  · rintro ⟨q, hq, rfl⟩
    obtain ⟨s, hs, hnames⟩ := hys.named q hq
    exact hxs.complete s ((hpatterns s).mpr hs) q ((names_same h).mpr hnames)

end DocComments.Command
