import DocComments.Proofs.Comment.FencedBlock

/-!
# The description beside its examples

What stays of a description is kept without runs of blank lines and without blanks at its ends.
Reading what is kept once more finds no example and changes nothing: taking out blocks, joining
blank lines and trimming bring no opening line in front of a closing one.
-/

namespace DocComments.Comment
open Text (trim trimEnd trimStart unlines isBlankText trimLines)

/-- Lines with every run of empty ones made a single one. -/
def withoutBlankRuns (ls : List (List Char)) : List (List Char) :=
  ls.destutter fun l m => ¬ (l = [] ∧ m = [])

theorem destutter'_eq_cons_joinBlankLines {ls : List (List Char)} (hend : ∀ l ∈ ls, trimEnd l = l)
    {l : List Char} (hl : trimEnd l = l) :
    ls.destutter' (fun l m => ¬ (l = [] ∧ m = [])) l = l :: joinBlankLines (isBlankText l) ls := by
  induction ls generalizing l with
  | nil => rfl
  | cons m ls ih =>
    obtain ⟨hm, hrest⟩ := List.forall_mem_cons.mp hend
    rw [joinBlankLines]
    cases hblank : isBlankText m with
    | false =>
      have hne : ¬ (l = [] ∧ m = []) := by
        rintro ⟨-, rfl⟩
        cases hblank
      rw [List.destutter'_cons_pos _ hne, ih hrest hm, hblank, if_neg (by decide)]
    | true =>
      have hnil := Text.eq_nil_of_isBlankText hm hblank
      subst hnil
      rw [if_pos rfl]
      cases hafter : isBlankText l with
      | true =>
        have hnil := Text.eq_nil_of_isBlankText hl hafter
        rw [List.destutter'_cons_neg _ (by simp [hnil]), ih hrest hl, hafter, if_pos rfl]
      | false =>
        have hne : l ≠ [] := by
          rintro rfl
          cases hafter
        rw [List.destutter'_cons_pos _ (by simp [hne]), ih hrest hm, if_neg (by decide)]
        rfl

section
variable {ls : List (List Char)} (hend : ∀ l ∈ ls, trimEnd l = l)
include hend

/-- Of lines without blanks at their ends, the blank ones are the empty ones. -/
theorem joinBlankLines_eq : joinBlankLines false ls = withoutBlankRuns ls := by
  cases ls with
  | nil => rfl
  | cons l ls =>
    obtain ⟨hl, hend⟩ := List.forall_mem_cons.mp hend
    rw [withoutBlankRuns, List.destutter_cons', destutter'_eq_cons_joinBlankLines hend hl,
      joinBlankLines]
    cases hblank : isBlankText l with
    | true => rw [Text.eq_nil_of_isBlankText hl hblank]; rfl
    | false => rfl

/-- Nothing is joined where no two empty lines follow each other. -/
theorem joinBlankLines_eq_self (hrun : ls.IsChain fun l m => ¬ (l = [] ∧ m = [])) :
    joinBlankLines false ls = ls := by
  rw [joinBlankLines_eq hend, withoutBlankRuns, List.destutter_of_isChain _ _ hrun]

end

/-- Trimming lines together makes no two empty ones follow each other. -/
theorem isChain_trimLines {ls : List (List Char)}
    (h : ls.IsChain fun l m => ¬ (l = [] ∧ m = [])) :
    (trimLines ls).IsChain fun l m => ¬ (l = [] ∧ m = []) := by
  have hdrop := h.suffix (List.dropWhile_suffix isBlankText)
  refine List.IsChain.prefix ?_ (List.rdropWhile_prefix _ _)
  cases hms : ls.dropWhile isBlankText with
  | nil => exact List.isChain_nil
  | cons l ms =>
    have hsolid : isBlankText l = false := by
      have hhead := List.head?_dropWhile_not isBlankText ls
      rw [hms] at hhead
      simpa using hhead
    rw [hms] at hdrop
    exact hdrop.imp_head fun _ hboth => Text.trimStart_ne_nil hsolid hboth.1

/-- A description in which no fence is closed is read again as it was kept. -/
theorem descriptionAndExamples_again {ls : List (List Char)} (hfeed : ∀ l ∈ ls, '\n' ∉ l)
    (hend : ∀ l ∈ ls, trimEnd l = l) (hfence : IsUnfenced ls) :
    descriptionAndExamples (Text.lines (trim (unlines (withoutBlankRuns ls)))) =
      (trim (unlines (withoutBlankRuns ls)), []) := by
  have hsub : (withoutBlankRuns ls).Sublist ls := List.destutter_sublist _ ls
  have hkept : ∀ l ∈ withoutBlankRuns ls, trimEnd l = l := fun l hl => hend l (hsub.subset hl)
  have htrimmed := (hfence.sublist hsub).trimLines
  rw [Text.lines_trim_unlines hkept fun l hl => hfeed l (hsub.subset hl), descriptionAndExamples,
    htrimmed.liftFences_eq]
  simp only
  rw [joinBlankLines_eq_self (Text.trimEnd_of_mem_trimLines hkept)
    (isChain_trimLines (List.isChain_destutter _ ls)), ← Text.trim_unlines hkept, Text.trim_trim]

/-- Lines are cut into closed fences with the lines between them in exactly one way. Every closed
fence makes one example, in order, of the lines inside it and of the paragraph before it. All other
lines stay in order and make the description, also a fence that is never closed and all behind it.
Read again, the description stays what it is and holds no example. -/
theorem exists_fencedBlocks {ls : List (List Char)} (hls : ∀ l ∈ ls, '\n' ∉ l ∧ trimEnd l = l) :
    ∃ blocks rest, IsFenceCut ls blocks rest ∧
      (∀ blocks' rest', IsFenceCut ls blocks' rest' → blocks' = blocks ∧ rest' = rest) ∧
      descriptionAndExamples ls =
        (trim (unlines (withoutBlankRuns (blocks.flatMap FencedBlock.before ++ rest))),
          blocks.map FencedBlock.sample) ∧
      descriptionAndExamples (Text.lines (descriptionAndExamples ls).1) =
        ((descriptionAndExamples ls).1, []) := by
  obtain ⟨blocks, rest, hcut⟩ := exists_isFenceCut ls
  have hmem : ∀ l ∈ blocks.flatMap FencedBlock.before ++ rest, '\n' ∉ l ∧ trimEnd l = l :=
    fun l hl => hls l (hcut.kept_sublist.subset hl)
  have hend : ∀ l ∈ blocks.flatMap FencedBlock.before ++ rest, trimEnd l = l :=
    fun l hl => (hmem l hl).2
  have hread : descriptionAndExamples ls =
      (trim (unlines (withoutBlankRuns (blocks.flatMap FencedBlock.before ++ rest))),
        blocks.map FencedBlock.sample) := by
    rw [descriptionAndExamples, hcut.liftFences_eq]
    simp only [joinBlankLines_eq hend]
  refine ⟨blocks, rest, hcut, fun _ _ => hcut.unique, hread, ?_⟩
  rw [hread]
  exact descriptionAndExamples_again (fun l hl => (hmem l hl).1) hend hcut.kept_unfenced

/-- A block between its paragraph and blank lines, and behind them a fence that is never closed. -/
theorem exists_fencedBlocks_unclosed :
    ∃ blocks rest,
      IsFenceCut (["Use:", "```ts", "  f();", "```", "", "", "```", "open"].map String.toList)
        blocks rest ∧
      blocks.map FencedBlock.sample = [⟨"ts", "Use:", .fenced, "f();"⟩] ∧
      descriptionAndExamples (Text.lines "Use:\n\n```\nopen".toList) =
        ("Use:\n\n```\nopen".toList, []) := by
  have hls : ∀ l ∈ ["Use:", "```ts", "  f();", "```", "", "", "```", "open"].map String.toList,
      '\n' ∉ l ∧ trimEnd l = l := by decide +kernel
  obtain ⟨blocks, rest, hcut, -, hread, hagain⟩ := exists_fencedBlocks hls
  have hvalue : descriptionAndExamples
      (["Use:", "```ts", "  f();", "```", "", "", "```", "open"].map String.toList) =
        ("Use:\n\n```\nopen".toList, [⟨"ts", "Use:", .fenced, "f();"⟩]) := by decide +kernel
  rw [hvalue] at hread hagain
  exact ⟨blocks, rest, hcut, (Prod.mk.inj hread).2.symm, hagain⟩

end DocComments.Comment
