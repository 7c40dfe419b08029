import DocComments.Proofs.Json.Characters
import DocComments.Proofs.Page.Row
import DocComments.Proofs.Record.Names
import DocComments.Record.Reader

/-!
# Line ends in tables

A cell has a space for each line feed and keeps everything else, a carriage return as well. Some
readers of a page end a line at a carriage return, and the row is broken for them. Defaults and
descriptions never hold one, so all depends on the names and types of the parameters; and if no line
of the comment holds one, it can only stand in a pattern of the code that runs over a line end.
-/

namespace DocComments.Page

/-- A text holds neither of the two characters that end a line. -/
def IsOneLine (s : String) : Prop :=
  '\n' ∉ s.toList ∧ '\r' ∉ s.toList

theorem mem_code_iff {c : Char} (hc : c ≠ '\x60') (s : String) :
    c ∈ (code s).toList ↔ c ∈ s.toList := by
  simp [code, hc]

/-- Only the name and the type of a field bring a carriage return into its row. -/
theorem isOneLine_row_iff {f : Field} (hdescription : '\r' ∉ f.description.toList)
    (name : String) :
    IsOneLine (row name f) ↔
      '\r' ∉ name.toList ∧ ∀ t, f.declaredType = some t → '\r' ∉ t.toList := by
  have hfeed : '\n' ∉ (row name f).toList := by
    rw [mem_row_iff (by decide)]
    exact fun h => h.1 rfl
  have hrequired : '\r' ∉ (if f.required then "yes" else "no").toList := by
    cases f.required <;> decide
  have hdefault : '\r' ∉ ((f.defaultValue.map fun l => code l.jsonText).getD "").toList := by
    cases f.defaultValue with
    | none => exact List.not_mem_nil
    | some l =>
      rw [Option.map_some, Option.getD_some, mem_code_iff (by decide)]
      exact fun hmem => absurd (Json.isVisible_compact l.toJson '\r' hmem) (by decide)
  have htype : '\r' ∉ ((f.declaredType.map code).getD "").toList ↔
      ∀ t, f.declaredType = some t → '\r' ∉ t.toList := by
    cases f.declaredType with
    | none => simp
    | some t => simp [mem_code_iff]
  rw [IsOneLine, and_iff_right hfeed, mem_row_iff (by decide), ← htype,
    ← mem_code_iff (by decide) name]
  simp [contents, hdescription, hrequired, hdefault]

theorem mem_qualified_iff {c : Char} (hc : c ≠ '.') {owner : String} (howner : c ∉ owner.toList)
    (property : String) :
    c ∈ (qualified owner property).toList ↔ c ∈ property.toList := by
  simp only [qualified]
  split
  · exact Iff.rfl
  · simp [howner, hc]

/-- The rows of a parameter are one line each if its name and type and those of its properties hold
no carriage return. -/
theorem isOneLine_rows_iff {p : Parameter}
    (hdescription : ∀ f, f = p.toField ∨ f ∈ p.properties → '\r' ∉ f.description.toList) :
    (∀ l ∈ rows p, IsOneLine l) ↔ ∀ f, f = p.toField ∨ f ∈ p.properties → f.IsFreeOf '\r' := by
  have hown : IsOneLine (row p.name p.toField) ↔ p.toField.IsFreeOf '\r' := by
    rw [isOneLine_row_iff (hdescription _ (.inl rfl))]
    exact ⟨fun h => ⟨h.1, h.2⟩, fun h => ⟨h.name, h.type⟩⟩
  have hproperty : '\r' ∉ p.name.toList → ∀ f ∈ p.properties,
      (IsOneLine (row (qualified p.name f.name) f) ↔ f.IsFreeOf '\r') := by
    intro hname f hf
    rw [isOneLine_row_iff (hdescription f (.inr hf)), mem_qualified_iff (by decide) hname]
    exact ⟨fun h => ⟨h.1, h.2⟩, fun h => ⟨h.name, h.type⟩⟩
  rw [rows, List.forall_mem_cons, List.forall_mem_map]
  constructor
  · rintro ⟨hfirst, hrest⟩ f (rfl | hf)
    · exact hown.mp hfirst
    · exact (hproperty (hown.mp hfirst).name f hf).mp (hrest f hf)
  · intro h
    have hfirst := h p.toField (.inl rfl)
    exact ⟨hown.mpr hfirst, fun f hf => (hproperty hfirst.name f hf).mpr (h f (.inr hf))⟩

/-- No row of a record holds a line feed. The rows of a parameter are one line each if and only if
no name or type in them holds a carriage return. Where no line of the comment holds one, which a
carriage return at a line end does not, the rows of a parameter can only be broken if it is a
pattern of the code with a carriage return in it. -/
theorem isOneLine_rows_of_block (source : List Char) : ∀ b ∈ Block.all source,
    ∀ p ∈ (Record.ofBlock b).parameters,
      (∀ l ∈ rows p, '\n' ∉ l.toList) ∧
      ((∀ l ∈ rows p, IsOneLine l) ↔ ∀ f, f = p.toField ∨ f ∈ p.properties → f.IsFreeOf '\r') ∧
      ((∀ l ∈ Comment.commentLines b.comment.toList, '\r' ∉ l) → (∀ l ∈ rows p, IsOneLine l) ∨
        p ∈ (Declaration.ofCode b.code.toList).parameters?.getD [] ∧ '\r' ∈ p.name.toList ∧
          ∃ c ∈ Signature.patternMarks, p.name.toList.head? = some c) := by
  intro b _ p hp
  have hdescription : ∀ f, f = p.toField ∨ f ∈ p.properties → '\r' ∉ f.description.toList := by
    intro f hf hmem
    exact absurd (Record.eq_space_of_mem_description hp hf rfl hmem) (by decide)
  refine ⟨?_, isOneLine_rows_iff hdescription, fun hcomment => ?_⟩
  · intro l hl
    have hrow : ∃ name f, l = row name f := by
      rcases List.mem_cons.mp hl with rfl | hl
      · exact ⟨_, _, rfl⟩
      · obtain ⟨f, -, rfl⟩ := List.mem_map.mp hl
        exact ⟨_, f, rfl⟩
    obtain ⟨name, f, rfl⟩ := hrow
    rw [mem_row_iff (by decide)]
    exact fun h => h.1 rfl
  · rw [isOneLine_rows_iff hdescription]
    exact Record.isFreeOf_or_pattern hcomment hp

/-- A parameter with a description over two lines that end in both characters. -/
theorem isOneLine_rows_of_block_returns :
    let source := ("/**\r\n * Draw.\r\n * @param {int} size The size\r\n *   of it.\r\n */\r\n" ++
      "function draw(size) \x7b\x7d\r\n").toList
    ∃ b ∈ Block.all source, ∃ p ∈ (Record.ofBlock b).parameters, ∀ l ∈ rows p, IsOneLine l := by
  intro source
  have hblock : ∃ b ∈ Block.all source,
      (∀ l ∈ Comment.commentLines b.comment.toList, '\r' ∉ l) ∧
        ∃ p ∈ (Record.ofBlock b).parameters, '\r' ∉ p.name.toList := by
    decide +kernel
  obtain ⟨b, hb, hcomment, p, hp, hname⟩ := hblock
  refine ⟨b, hb, p, hp, ?_⟩
  rcases (isOneLine_rows_of_block source b hb p hp).2.2 hcomment with hrows | ⟨-, hmem, -⟩
  · exact hrows
  · exact absurd hmem hname

/-- The row of a pattern that runs over lines which end in both characters. -/
theorem not_isOneLine_rows_pattern :
    let source := "/** Draws a line. */\r\nfunction draw([\r\n  x,\r\n  y\r\n]) \x7b\x7d".toList
    ∃ r ∈ Record.all source, ∃ p ∈ r.parameters, ∃ l ∈ rows p,
      l = "| `[\r   x,\r   y\r ]` |  | yes |  |  |" ∧ ¬ IsOneLine l := by
  intro source
  have hrow : ∃ r ∈ Record.all source, ∃ p ∈ r.parameters, ∃ l ∈ rows p,
      l = "| `[\r   x,\r   y\r ]` |  | yes |  |  |" := by
    decide +kernel
  obtain ⟨r, hr, p, hp, l, hl, heq⟩ := hrow
  refine ⟨r, hr, p, hp, l, hl, heq, fun honeLine => honeLine.2 ?_⟩
  rw [heq]
  decide

end DocComments.Page
