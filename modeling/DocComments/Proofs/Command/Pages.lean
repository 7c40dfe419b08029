import DocComments.Command.Run
import DocComments.Proofs.Files.Path

/-!
# Pages, written one after the other

The page of a file depends on what the file holds and on the end of its path, and writing one page
changes no more than one place, at which no folder stands. So whatever path led somewhere before a
page was written still leads there.
-/

namespace DocComments.Command
open Files (Entry Path Place Tree)

variable {o : Options} {f : Format} {out : Output} {t u : Tree}

/-! ### The page of a file -/

/-- It does not matter which of two paths leads to a file: both end with its name. -/
theorem page?_of_place?_eq {p q : Path} {a : Place} (hp : p.place? t = some a)
    (hq : q.place? t = some a) : page? o f t p = page? o f t q := by
  have hget : p.get? t = q.get? t := by
    rw [Path.get?, Path.get?, hp, hq]
  rw [page?, page?, hget]
  cases hentry : q.get? t with
  | none => rfl
  | some entry =>
    cases entry with
    | folder => rfl
    | file content =>
      rw [Path.get?, hq] at hentry
      have hfile : t.isFile a = true := by
        rw [Tree.isFile, show t.get? a = some (.file content) from hentry]
      rw [Path.name?_of_isFile hp hfile, Path.name?_of_isFile hq hfile]

theorem page?_same (h : t.Same u) (p : Path) : page? o f t p = page? o f u p := by
  rw [page?, page?, Path.get?_same h]

/-- What is put in the place of no folder has no bearing on the page of a file elsewhere. -/
theorem page?_put {r : Place} (hr : t.isFolder r = false) {p : Path} {a : Place}
    (hp : p.place? t = some a) (hne : a ≠ r) (e : Entry) :
    page? o f (t.put r e) p = page? o f t p := by
  have hget : p.get? (t.put r e) = p.get? t := by
    rw [Path.get?, Path.get?, Path.place?_put hr hp, hp]
    exact Tree.get?_put_of_ne hne e
  rw [page?, page?, hget]

/-! ### One page -/

theorem writePage_cases {p : Path} (h : writePage o f out t p = .ok u) :
    page? o f t p = none ∧ u = t ∨
      ∃ name text, page? o f t p = some (name, text) ∧
        t.isFolder (out.place ++ [name]) = false ∧
        u = t.put (out.place ++ [name]) (.file (.text text)) := by
  unfold writePage at h
  split at h
  · rename_i hpage
    cases h
    exact .inl ⟨hpage, rfl⟩
  · rename_i name text hpage
    split at h
    · cases h
    · rename_i hfolder
      cases h
      exact .inr ⟨name, text, hpage, Bool.eq_false_iff.mpr hfolder, rfl⟩

/-- A path leads where it led before a page was written. -/
theorem place?_of_writePage {p q : Path} {a : Place} (h : writePage o f out t p = .ok u)
    (hq : q.place? t = some a) : q.place? u = some a := by
  obtain ⟨-, rfl⟩ | ⟨name, text, -, hfolder, rfl⟩ := writePage_cases h
  · exact hq
  · exact Path.place?_put hfolder hq _

end DocComments.Command
