import DocComments.Proofs.Signature.Words
import Mathlib.Data.List.Induction

/-!
# Functions assigned to a path

The search for a path to which a function is assigned finds one exactly where the text has one. It
goes through the whole text, so it also finds what stands between parentheses. Which of several
paths is found is said only where the text in front of it is known to assign nothing.
-/

namespace DocComments.Signature
open Text (trim trimStart trimEnd isBlankText)
open Unicode (isBlank isWordChar)

/-- Somewhere in the text a function is assigned to a name of the given sort. -/
def Assigns (IsName : List Char → Prop) (s : List Char) : Prop :=
  ∃ u name g h f, s = u ++ (name ++ (g ++ '=' :: (h ++ f))) ∧ IsName name ∧
    isBlankText g = true ∧ isBlankText h = true ∧ StartsFunction f

/-- A function is assigned to a path that the text starts with. -/
def AssignsHere (s : List Char) : Prop :=
  ∃ path g h f, s = path ++ (g ++ '=' :: (h ++ f)) ∧ IsPath path ∧
    isBlankText g = true ∧ isBlankText h = true ∧ StartsFunction f

theorem not_assigns_nil {P : List Char → Prop} : ¬ Assigns P [] := by
  rintro ⟨u, name, g, h, f, heq, -⟩
  simp at heq

theorem not_assigns_of_not_mem {P : List Char → Prop} {s : List Char} (h : '=' ∉ s) :
    ¬ Assigns P s := by
  rintro ⟨u, name, g, k, f, rfl, -⟩
  exact h (by simp)

/-- A path to which a function is assigned is in front of a text or behind its first character. -/
theorem assigns_cons_iff {c : Char} {s : List Char} :
    Assigns IsPath (c :: s) ↔ AssignsHere (c :: s) ∨ Assigns IsPath s := by
  constructor
  · rintro ⟨u, path, g, h, f, heq, hrest⟩
    cases u with
    | nil => exact Or.inl ⟨path, g, h, f, heq, hrest⟩
    | cons d u => exact Or.inr ⟨u, path, g, h, f, (List.cons.inj heq).2, hrest⟩
  · rintro (⟨path, g, h, f, heq, hrest⟩ | ⟨u, path, g, h, f, rfl, hrest⟩)
    · exact ⟨[], path, g, h, f, heq, hrest⟩
    · exact ⟨c :: u, path, g, h, f, rfl, hrest⟩

theorem trimStart_of_startsFunction {f : List Char} (h : StartsFunction f) : trimStart f = f := by
  rcases h with ⟨rest, rfl, -⟩ | ⟨g, t, -, -, rfl, -⟩ <;> rfl

theorem mark?_append {g : List Char} (hg : isBlankText g = true) {c : Char}
    (hc : isBlank c = false) (s : List Char) : mark? c (g ++ c :: s) = some (trimStart s) := by
  rw [mark?, Text.trimStart_append_of_blank hg, Text.trimStart_cons_of_not_blank hc]
  simp

/-- A mark is read only where it is. -/
theorem mark?_eq_none {g : List Char} (hg : isBlankText g = true) {c d : Char}
    (hd : isBlank d = false) (hne : d ≠ c) (s : List Char) : mark? c (g ++ d :: s) = none := by
  rw [mark?, Text.trimStart_append_of_blank hg, Text.trimStart_cons_of_not_blank hd]
  simp [hne]

theorem exists_of_mark? {s r : List Char} {c : Char} (h : mark? c s = some r) :
    ∃ g t, isBlankText g = true ∧ s = g ++ c :: t ∧ r = trimStart t := by
  rw [mark?] at h
  split at h
  · cases h
  · rename_i d t hstart
    split at h
    · rename_i hd
      obtain ⟨g, hg, hs⟩ := Text.exists_blanks_of_trimStart hstart
      exact ⟨g, t, hg, hd ▸ hs, (Option.some.inj h).symm⟩
    · cases h

/-- A path in front of a text, with an equals sign behind it, has assigned to it whatever function
stands behind the sign. -/
theorem assignmentHere?_append {path g h : List Char} (hpath : IsPath path)
    (hg : isBlankText g = true) (hh : isBlankText h = true) (f : List Char) :
    assignmentHere? (path ++ (g ++ '=' :: (h ++ f))) =
      (functionWord? (trimStart f)).map fun (isAsync, _) => (path, isAsync) := by
  cases path with
  | nil => exact hpath.elim
  | cons c p =>
    obtain ⟨htake, hdrop⟩ := Text.span_append hpath.2 (head?_append_mark
      (t := h ++ f) hg (c := '=') fun _ => by decide)
    rw [List.cons_append, assignmentHere?]
    simp only [hpath.1, if_true, htake, hdrop]
    rw [mark?_append hg (by decide), Text.trimStart_append_of_blank hh]

theorem assignmentHere?_isSome_iff {s : List Char} :
    (assignmentHere? s).isSome = true ↔ AssignsHere s := by
  constructor
  · intro hsome
    cases s with
    | nil => cases hsome
    | cons c s =>
      rw [assignmentHere?] at hsome
      split at hsome
      · rename_i hc
        split at hsome
        · cases hsome
        · rename_i r hmark
          obtain ⟨g, t, hg, hsplit, rfl⟩ := exists_of_mark? hmark
          rw [Option.isSome_map, functionWord?_isSome_iff] at hsome
          have hpath : IsPath (c :: s.takeWhile isPathPart) :=
            ⟨hc, fun d hd => List.all_eq_true.mp List.all_takeWhile d hd⟩
          refine ⟨_, g, t.takeWhile isBlank, trimStart t, ?_, hpath, hg, List.all_takeWhile, hsome⟩
          rw [trimStart, List.takeWhile_append_dropWhile, ← hsplit, List.cons_append,
            List.takeWhile_append_dropWhile]
      · cases hsome
  · rintro ⟨path, g, h, f, rfl, hpath, hg, hh, hf⟩
    rw [assignmentHere?_append hpath hg hh, trimStart_of_startsFunction hf, Option.isSome_map,
      functionWord?_isSome_iff]
    exact hf

/-- The search for a path to which a function is assigned finds one exactly if there is one. -/
theorem assignment?_isSome_iff {s : List Char} :
    (assignment? s).isSome = true ↔ Assigns IsPath s := by
  induction s with
  | nil => exact iff_of_false (by decide) not_assigns_nil
  | cons c s ih =>
    rw [assigns_cons_iff, ← assignmentHere?_isSome_iff, ← ih, assignment?]
    cases assignmentHere? (c :: s) with
    | none => simp
    | some a => simp

theorem assignment?_eq_none_iff {s : List Char} : assignment? s = none ↔ ¬ Assigns IsPath s := by
  rw [← assignment?_isSome_iff, Option.not_isSome_iff_eq_none]

/-- The last character of two texts put together is that of the second one. -/
theorem exists_eq_append_of_append_eq {l x t : List Char} {b : Char} (h : l ++ [b] = x ++ t)
    (ht : t ≠ []) : ∃ r, t = r ++ [b] ∧ l = x ++ r := by
  obtain ⟨r, d, rfl⟩ := (List.eq_nil_or_concat t).resolve_left ht
  rw [List.concat_eq_append, ← List.append_assoc] at h
  obtain ⟨hl, hb⟩ := List.append_inj' h rfl
  exact ⟨r, by rw [List.concat_eq_append, (List.cons.inj hb).1], hl⟩

section
variable {b : Char} (hb : isWordChar b = false)
include hb

/-- Whether a text starts with the word for a function does not depend on a last character that
stands in no word. -/
theorem startsFunctionWord_append_iff {s : List Char} :
    StartsFunctionWord (s ++ [b]) ↔ StartsFunctionWord s := by
  constructor
  · rintro ⟨rest, heq, hrest⟩
    cases rest with
    | nil =>
      have hlast : s ++ [b] = "functio".toList ++ ['n'] := heq
      rw [(List.cons.inj (List.append_inj' hlast rfl).2).1] at hb
      exact absurd hb (by decide)
    | cons d rest =>
      obtain ⟨r, hsplit, rfl⟩ := exists_eq_append_of_append_eq heq (List.cons_ne_nil d rest)
      refine ⟨r, rfl, ?_⟩
      cases r with
      | nil => rfl
      | cons e r =>
        rw [hsplit] at hrest
        exact hrest
  · rintro ⟨rest, rfl, hrest⟩
    refine ⟨rest ++ [b], by rw [List.append_assoc], ?_⟩
    cases rest with
    | nil => exact hb
    | cons e r => exact hrest

theorem startsFunction_append_iff {s : List Char} :
    StartsFunction (s ++ [b]) ↔ StartsFunction s := by
  constructor
  · rintro (h | ⟨g, t, hg, hne, heq, ht⟩)
    · exact Or.inl ((startsFunctionWord_append_iff hb).mp h)
    · have hnil : t ≠ [] := by
        rintro rfl
        obtain ⟨rest, hrest, -⟩ := ht
        cases hrest
      rw [← List.append_assoc] at heq
      obtain ⟨r, rfl, rfl⟩ := exists_eq_append_of_append_eq heq hnil
      exact Or.inr ⟨g, r, hg, hne, List.append_assoc _ _ _,
        (startsFunctionWord_append_iff hb).mp ht⟩
  · rintro (h | ⟨g, t, hg, hne, rfl, ht⟩)
    · exact Or.inl ((startsFunctionWord_append_iff hb).mpr h)
    · exact Or.inr ⟨g, t ++ [b], hg, hne, by simp, (startsFunctionWord_append_iff hb).mpr ht⟩

/-- Nor does it matter for what is assigned in a text. -/
theorem assigns_append_iff {P : List Char → Prop} {s : List Char} :
    Assigns P (s ++ [b]) ↔ Assigns P s := by
  constructor
  · rintro ⟨u, name, g, h, f, heq, hname, hg, hh, hf⟩
    have hnil : f ≠ [] := by
      rintro rfl
      rcases hf with ⟨rest, hrest, -⟩ | ⟨g, t, -, -, hrest, -⟩ <;> cases hrest
    have hsplit : s ++ [b] = u ++ (name ++ (g ++ '=' :: h)) ++ f := by rw [heq]; simp
    obtain ⟨r, rfl, rfl⟩ := exists_eq_append_of_append_eq hsplit hnil
    exact ⟨u, name, g, h, r, by simp, hname, hg, hh, (startsFunction_append_iff hb).mp hf⟩
  · rintro ⟨u, name, g, h, f, rfl, hname, hg, hh, hf⟩
    exact ⟨u, name, g, h, f ++ [b], by simp, hname, hg, hh, (startsFunction_append_iff hb).mpr hf⟩

end

/-- What is assigned in a text shows in the text without its last blanks. -/
theorem assigns_trimEnd_iff {P : List Char → Prop} (s : List Char) :
    Assigns P (trimEnd s) ↔ Assigns P s := by
  induction s using List.reverseRecOn with
  | nil => rfl
  | append_singleton s b ih =>
    cases hb : isBlank b with
    | true =>
      rw [Text.trimEnd_append_blank hb, ih,
        assigns_append_iff (Unicode.isWordChar_of_isBlank hb)]
    | false => rw [Text.trimEnd_append_of_not_blank hb]

/-- The first mark behind blanks is not one that is nowhere in the text. -/
theorem mark?_append_eq_none {l : List Char} {a b : Char} (hl : a ∉ l) (hb : b ≠ a)
    {s : List Char} (hs : isBlank b = true → mark? a s = none) : mark? a (l ++ b :: s) = none := by
  induction l with
  | nil =>
    cases hblank : isBlank b with
    | true =>
      have hskip := Text.trimStart_append_of_blank (g := [b]) (by simp [isBlankText, hblank]) s
      rw [List.singleton_append] at hskip
      rw [List.nil_append, mark?, hskip, ← mark?]
      exact hs hblank
    | false => exact mark?_eq_none (g := []) rfl hblank hb s
  | cons c l ih =>
    have hrest := ih fun h => hl (List.mem_cons_of_mem c h)
    have hc : c ≠ a := fun h => hl (h ▸ List.mem_cons_self)
    cases hblank : isBlank c with
    | true =>
      have hskip := Text.trimStart_append_of_blank (g := [c]) (by simp [isBlankText, hblank])
        (l ++ b :: s)
      rw [List.singleton_append] at hskip
      rw [List.cons_append, mark?, hskip, ← mark?]
      exact hrest
    | false => exact mark?_eq_none (g := []) rfl hblank hc _

/-- A text without an equals sign assigns nothing, and the search goes on behind it, if its last
character ends every path and the sign does not follow it. -/
theorem assignment?_append {l : List Char} {b : Char} (hl : '=' ∉ l) (hb : isPathPart b = false)
    (hne : b ≠ '=') {s : List Char} (hs : isBlank b = true → mark? '=' s = none) :
    assignment? (l ++ b :: s) = assignment? s := by
  induction l with
  | nil =>
    rw [List.nil_append, assignment?, assignmentHere?,
      if_neg (by simp [isIdentifierStart_of_isPathPart hb])]
  | cons c l ih =>
    have hhere : assignmentHere? (c :: (l ++ b :: s)) = none := by
      have hdrop : (l ++ b :: s).dropWhile isPathPart = l.dropWhile isPathPart ++ b :: s := by
        rw [List.dropWhile_append]
        split
        · rename_i hempty
          rw [List.isEmpty_iff.mp hempty, List.dropWhile_cons_of_neg (by simp [hb])]
          rfl
        · rfl
      have hrest : '=' ∉ l.dropWhile isPathPart := by
        intro h
        exact hl (List.mem_cons_of_mem c ((List.dropWhile_suffix isPathPart).mem h))
      rw [assignmentHere?, hdrop, mark?_append_eq_none hrest hne hs]
      simp
    rw [List.cons_append, assignment?, hhere]
    exact ih fun h => hl (List.mem_cons_of_mem c h)

end DocComments.Signature
