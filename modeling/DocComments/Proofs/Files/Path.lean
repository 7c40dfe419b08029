import DocComments.Files.Path
import DocComments.Proofs.Files.Tree

/-!
# Where paths lead

A path leads through a tree part by part, but all that counts are its steps: two paths that take the
same steps, and lead anywhere at all, lead to the same place. Parts without a step still ask for a
folder, so one of them may lead somewhere and the other nowhere.
-/

namespace DocComments.Files

namespace Path

/-- The place to which one step leads from a place. -/
def stepTo? (t : Tree) (p : Place) : Step → Option Place
  | .root => none
  | .here => some p
  | .up => if p.isEmpty then none else some p.dropLast
  | .name n => if (t.get? (p ++ [n])).isSome then some (p ++ [n]) else none

/-- The place to which steps lead from a place. -/
def walk? (t : Tree) (p : Place) (steps : List Step) : Option Place :=
  steps.foldlM (stepTo? t) p

theorem walk?_append (t : Tree) (p : Place) (xs ys : List Step) :
    walk? t p (xs ++ ys) = (walk? t p xs).bind fun q => walk? t q ys :=
  List.foldlM_append

/-- A part of a path leads where its step leads, and only from a folder. -/
theorem next?_eq (t : Tree) (p : Place) (part : String) :
    next? t p part =
      if t.isFolder p then walk? t p (Step.ofPart? part).toList else none := by
  cases hfolder : t.isFolder p with
  | false => simp [next?, hfolder]
  | true =>
    by_cases hdot : part = "" ∨ part = "."
    · simp [next?, Step.ofPart?, walk?, hfolder, hdot]
    · by_cases hup : part = ".."
      · simp [next?, Step.ofPart?, walk?, stepTo?, hfolder, hup]
      · simp [next?, Step.ofPart?, walk?, stepTo?, hfolder, hdot, hup]

theorem walk?_of_foldlM {t : Tree} {p q : Place} {parts : List String}
    (h : parts.foldlM (next? t) p = some q) :
    walk? t p (parts.filterMap Step.ofPart?) = some q := by
  induction parts generalizing p with
  | nil => exact h
  | cons part parts ih =>
    obtain ⟨r, hr, hq⟩ := Option.bind_eq_some_iff.mp h
    rw [next?_eq] at hr
    split at hr
    · have hsteps : (part :: parts).filterMap Step.ofPart? =
          (Step.ofPart? part).toList ++ parts.filterMap Step.ofPart? := by
        rw [List.filterMap_cons]
        cases Step.ofPart? part <;> rfl
      rw [hsteps, walk?_append, hr]
      exact ih hq
    · cases hr

theorem isOutside_cons (first : String) (rest : Path) :
    isOutside (first :: rest) = decide (first = "") := by
  by_cases h : first = "" <;> simp [isOutside, h]

theorem place?_eq_some_iff {t : Tree} {p : Path} {q : Place} :
    p.place? t = some q ↔ p.isOutside = false ∧ p.foldlM (next? t) [] = some q := by
  rw [place?, Option.ite_none_left_eq_some, Bool.not_eq_true]

/-- A path leads where its steps lead, if it leads anywhere. -/
theorem walk?_of_place? {t : Tree} {p : Path} {q : Place} (h : p.place? t = some q) :
    walk? t [] p.steps = some q := by
  obtain ⟨houtside, hlead⟩ := place?_eq_some_iff.mp h
  cases p with
  | nil => cases houtside
  | cons first rest =>
    rw [isOutside_cons, decide_eq_false_iff_not] at houtside
    have hwalk := walk?_of_foldlM hlead
    by_cases hdot : first = "."
    · subst hdot
      exact hwalk
    · rw [steps, if_neg houtside, if_neg hdot]
      rw [List.filterMap_cons] at hwalk
      cases hpart : Step.ofPart? first with
      | none => rwa [hpart] at hwalk
      | some s => rwa [hpart] at hwalk

/-- Two paths that take the same steps lead to the same place, if both lead anywhere. -/
theorem place_unique {t : Tree} {p q : Path} {a b : Place} (hsteps : p.steps = q.steps)
    (hp : p.place? t = some a) (hq : q.place? t = some b) : a = b := by
  have ha := walk?_of_place? hp
  rw [hsteps, walk?_of_place? hq] at ha
  exact (Option.some.inj ha).symm

theorem exists_place?_of_isFile {t : Tree} {p : Path} (h : p.isFile t = true) :
    ∃ a, p.place? t = some a ∧ t.isFile a = true := by
  obtain ⟨a, ha, hfile⟩ := Option.any_eq_true _ _ |>.mp h
  exact ⟨a, ha, hfile⟩

/-! ### Trees into which something is put -/

theorem stepTo?_put {t : Tree} {p q : Place} {s : Step} (h : stepTo? t p s = some q) (r : Place)
    (e : Entry) : stepTo? (t.put r e) p s = some q := by
  cases s with
  | root => exact h
  | here => exact h
  | up => exact h
  | name n =>
    rw [stepTo?] at h ⊢
    split at h
    · rename_i hsome
      rw [if_pos (Tree.isSome_get?_put hsome r e)]
      exact h
    · cases h

section
variable {t : Tree} {r : Place} (hr : t.isFolder r = false)
include hr

theorem next?_put {p q : Place} {part : String} (h : next? t p part = some q) (e : Entry) :
    next? (t.put r e) p part = some q := by
  rw [next?_eq] at h ⊢
  split at h
  · rename_i hfolder
    rw [if_pos (Tree.isFolder_put hr hfolder e)]
    cases hstep : Step.ofPart? part with
    | none => rwa [hstep] at h
    | some s =>
      rw [hstep] at h
      obtain ⟨a, ha, hq⟩ := Option.bind_eq_some_iff.mp h
      exact Option.bind_eq_some_iff.mpr ⟨a, stepTo?_put ha r e, hq⟩
  · cases h

theorem foldlM_next?_put {p q : Place} {parts : List String}
    (h : parts.foldlM (next? t) p = some q) (e : Entry) :
    parts.foldlM (next? (t.put r e)) p = some q := by
  induction parts generalizing p with
  | nil => exact h
  | cons part parts ih =>
    obtain ⟨a, ha, hq⟩ := Option.bind_eq_some_iff.mp h
    exact Option.bind_eq_some_iff.mpr ⟨a, next?_put hr ha e, ih hq⟩

/-- A path leads where it led before, unless a folder on it is replaced. -/
theorem place?_put {p : Path} {q : Place} (h : p.place? t = some q) (e : Entry) :
    p.place? (t.put r e) = some q := by
  obtain ⟨houtside, hlead⟩ := place?_eq_some_iff.mp h
  exact place?_eq_some_iff.mpr ⟨houtside, foldlM_next?_put hr hlead e⟩

end

/-! ### Paths to entries of a folder -/

/-- An empty part at the end asks for a folder and leads nowhere else. -/
theorem foldlM_dropLast {t : Tree} {p q : Place} {parts : List String}
    (hlast : parts.getLast? = some "") (h : parts.foldlM (next? t) p = some q) :
    parts.dropLast.foldlM (next? t) p = some q := by
  obtain ⟨init, rfl⟩ := List.getLast?_eq_some_iff.mp hlast
  rw [List.foldlM_append] at h
  obtain ⟨a, ha, hq⟩ := Option.bind_eq_some_iff.mp h
  obtain ⟨b, hb, hbq⟩ := Option.bind_eq_some_iff.mp hq
  cases hbq
  rw [next?_eq] at hb
  split at hb
  · cases hb
    rwa [List.dropLast_concat]
  · cases hb

theorem isOutside_join {p : Path} (h : p.isOutside = false) (n : String) :
    (p.join n).isOutside = false := by
  cases p with
  | nil => cases h
  | cons first rest =>
    rw [isOutside_cons] at h
    unfold join
    split
    · rename_i hlast
      cases rest with
      | nil =>
        cases hlast
        cases h
      | cons second rest => rwa [List.dropLast_cons_cons, List.cons_append, isOutside_cons]
    · rwa [List.cons_append, isOutside_cons]

/-- A path to a folder leads to the entries in it, each behind its name. -/
theorem place?_join {t : Tree} {p : Path} {q : Place} {n : String} (hp : p.place? t = some q)
    (hfolder : t.isFolder q = true) (hname : Step.ofPart? n = some (.name n))
    (hsome : (t.get? (q ++ [n])).isSome = true) :
    (p.join n).place? t = some (q ++ [n]) := by
  have hnext : [n].foldlM (next? t) q = some (q ++ [n]) := by
    rw [List.foldlM_cons, next?_eq, if_pos hfolder, hname]
    change ((stepTo? t q (.name n)).bind some).bind some = _
    rw [stepTo?, if_pos hsome]
    rfl
  obtain ⟨houtside, hlead⟩ := place?_eq_some_iff.mp hp
  refine place?_eq_some_iff.mpr ⟨isOutside_join houtside n, ?_⟩
  unfold join
  split
  · rename_i hlast
    rw [List.foldlM_append, foldlM_dropLast hlast hlead]
    exact hnext
  · rw [List.foldlM_append, hlead]
    exact hnext

/-! ### The name of a file -/

/-- Only folders lie on the way to a place. -/
def LiesInFolders (t : Tree) (p : Place) : Prop :=
  ∀ q n rest, p = q ++ n :: rest → t.isFolder q = true

theorem LiesInFolders.dropLast {t : Tree} {p : Place} (h : LiesInFolders t p) :
    LiesInFolders t p.dropLast := by
  intro q n rest hp
  cases hempty : p.getLast? with
  | none =>
    rw [List.getLast?_eq_none_iff.mp hempty] at hp
    simp at hp
  | some m =>
    obtain ⟨init, rfl⟩ := List.getLast?_eq_some_iff.mp hempty
    rw [List.dropLast_concat] at hp
    exact h q n (rest ++ [m]) (by simp [hp])

theorem LiesInFolders.append {t : Tree} {p : Place} (h : LiesInFolders t p)
    (hfolder : t.isFolder p = true) (m : String) : LiesInFolders t (p ++ [m]) := by
  intro q n rest hp
  obtain rfl | ⟨init, last, rfl⟩ := List.eq_nil_or_concat rest
  · obtain ⟨rfl, -⟩ := List.append_inj' hp rfl
    exact hfolder
  · have hp' : p ++ [m] = (q ++ n :: init) ++ [last] := by simpa using hp
    exact h q n init (List.append_inj' hp' rfl).1

theorem ofPart?_cases (part : String) :
    Step.ofPart? part = none ∨ Step.ofPart? part = some .up ∨
      Step.ofPart? part = some (.name part) := by
  unfold Step.ofPart?
  split
  · exact .inl rfl
  · split
    · exact .inr (.inl rfl)
    · exact .inr (.inr rfl)

theorem next?_cases {t : Tree} {p q : Place} {part : String} (h : next? t p part = some q) :
    t.isFolder p = true ∧
      (q = p ∨ q = p.dropLast ∨ Step.ofPart? part = some (.name part) ∧ q = p ++ [part]) := by
  rw [next?_eq] at h
  split at h
  · rename_i hfolder
    refine ⟨hfolder, ?_⟩
    obtain hstep | hstep | hstep := ofPart?_cases part
    · rw [hstep] at h
      cases h
      exact .inl rfl
    · rw [hstep] at h
      obtain ⟨a, ha, haq⟩ := Option.bind_eq_some_iff.mp h
      cases haq
      exact .inr (.inl (Option.some.inj (Option.ite_none_left_eq_some.mp ha).2).symm)
    · rw [hstep] at h
      obtain ⟨a, ha, haq⟩ := Option.bind_eq_some_iff.mp h
      cases haq
      exact .inr (.inr ⟨hstep, (Option.some.inj (Option.ite_none_right_eq_some.mp ha).2).symm⟩)
  · cases h

theorem LiesInFolders.next? {t : Tree} {p q : Place} {part : String} (h : LiesInFolders t p)
    (hq : next? t p part = some q) : LiesInFolders t q := by
  obtain ⟨hfolder, rfl | rfl | ⟨-, rfl⟩⟩ := next?_cases hq
  · exact h
  · exact h.dropLast
  · exact h.append hfolder part

theorem LiesInFolders.foldlM {t : Tree} {p q : Place} {parts : List String}
    (h : LiesInFolders t p) (hq : parts.foldlM (Path.next? t) p = some q) :
    LiesInFolders t q := by
  induction parts generalizing p with
  | nil =>
    cases hq
    exact h
  | cons part parts ih =>
    obtain ⟨a, ha, hq⟩ := Option.bind_eq_some_iff.mp hq
    exact ih (h.next? ha) hq

/-- Only a name leads to a file: a part without a step asks for a folder, and what lies above a
folder is one. -/
theorem LiesInFolders.of_isFile {t : Tree} {p q : Place} {part : String}
    (h : LiesInFolders t p) (hq : Path.next? t p part = some q) (hfile : t.isFile q = true) :
    Step.ofPart? part = some (.name part) ∧ q = p ++ [part] := by
  have hnot {r : Place} (hr : t.isFolder r = true) (hrq : q = r) : False := by
    rw [hrq, Tree.isFile_eq_false_of_isFolder hr] at hfile
    cases hfile
  obtain ⟨hfolder, hqp | hqp | hname⟩ := next?_cases hq
  · exact (hnot hfolder hqp).elim
  · obtain rfl | ⟨init, last, rfl⟩ := List.eq_nil_or_concat p
    · exact (hnot hfolder hqp).elim
    · rw [List.concat_eq_append, List.dropLast_concat] at hqp
      exact (hnot (h init last [] (by simp)) hqp).elim
  · exact hname

/-- A path that ends with a name ends with the step to it. -/
theorem name?_append_singleton (p : Path) {n : String}
    (h : Step.ofPart? n = some (.name n)) : name? (p ++ [n]) = some n := by
  have hsteps : ∃ front, steps (p ++ [n]) = front ++ [.name n] := by
    cases p with
    | nil =>
      have hempty : n ≠ "" := by
        rintro rfl
        cases h
      have hdot : n ≠ "." := by
        rintro rfl
        cases h
      exact ⟨[], by simp [steps, hempty, hdot, h]⟩
    | cons first rest =>
      have hrest : (rest ++ [n]).filterMap Step.ofPart? =
          rest.filterMap Step.ofPart? ++ [.name n] := by
        simp [List.filterMap_append, h]
      rw [List.cons_append, steps, hrest, ← List.append_assoc]
      exact ⟨_, rfl⟩
  obtain ⟨front, hfront⟩ := hsteps
  rw [name?, hfront, List.getLast?_concat]

/-- A path to a file ends with the name of the file. -/
theorem name?_of_isFile {t : Tree} {p : Path} {a : Place} (h : p.place? t = some a)
    (hfile : t.isFile a = true) : p.name? = a.getLast? := by
  obtain ⟨-, hlead⟩ := place?_eq_some_iff.mp h
  obtain rfl | ⟨init, last, rfl⟩ := List.eq_nil_or_concat p
  · cases hlead
    cases hfile
  · rw [List.concat_eq_append] at hlead ⊢
    rw [List.foldlM_append] at hlead
    obtain ⟨b, hb, hlast⟩ := Option.bind_eq_some_iff.mp hlead
    obtain ⟨c, hc, hca⟩ := Option.bind_eq_some_iff.mp hlast
    cases hca
    have hinit : LiesInFolders t b := LiesInFolders.foldlM (fun q n rest hq => by simp at hq) hb
    obtain ⟨hname, rfl⟩ := hinit.of_isFile hc hfile
    rw [name?_append_singleton init hname, List.getLast?_concat]

/-! ### Trees in which the same stands -/

section
variable {t u : Tree} (h : t.Same u)
include h

theorem next?_same (p : Place) (part : String) : next? t p part = next? u p part := by
  rw [next?, next?, h.isFolder, h]

theorem place?_same (p : Path) : p.place? t = p.place? u := by
  have hnext : next? t = next? u := funext fun p => funext fun part => next?_same h p part
  rw [place?, hnext, place?]

theorem get?_same (p : Path) : p.get? t = p.get? u := by
  rw [get?, get?, place?_same h, show t.get? = u.get? from funext h]

theorem isFile_same (p : Path) : p.isFile t = p.isFile u := by
  rw [isFile, isFile, place?_same h, show t.isFile = u.isFile from funext h.isFile]

theorem isFolder_same (p : Path) : p.isFolder t = p.isFolder u := by
  rw [isFolder, isFolder, place?_same h, show t.isFolder = u.isFolder from funext h.isFolder]

end

/-- The same folder is made in two trees, or in neither, and the same stands in them afterwards. -/
def MadeAlike (x y : Option (Tree × Place)) : Prop :=
  Option.Rel (fun a b => a.1.Same b.1 ∧ a.2 = b.2) x y

theorem makeFrom?_same {t u : Tree} (h : t.Same u) (p : Place) (parts : Path) :
    MadeAlike (makeFrom? t p parts) (makeFrom? u p parts) := by
  induction parts generalizing t u p with
  | nil =>
    rw [makeFrom?, makeFrom?, h.isFolder]
    split
    · exact .some ⟨h, rfl⟩
    · exact .none
  | cons part rest ih =>
    rw [makeFrom?, makeFrom?, next?_same h, h.isFolder]
    split
    · exact ih h _
    · split
      · exact .none
      · exact ih (h.put _ _) _

theorem makeFolder?_same {t u : Tree} (h : t.Same u) (p : Path) :
    MadeAlike (p.makeFolder? t) (p.makeFolder? u) := by
  rw [makeFolder?, makeFolder?]
  split
  · exact .none
  · exact makeFrom?_same h [] p

end Path

end DocComments.Files
