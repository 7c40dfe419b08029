import DocComments.Proofs.Command.Inputs
import DocComments.Proofs.Command.Pages

/-!
# How the files of a run are listed

A run reads files in an order of its own, so that neither the order of its patterns nor the order in
which a tree lists its entries has any bearing on it. This says nothing about which files the
patterns should name.
-/

namespace DocComments.Command
open Files (Path Place Tree)
open Files.Search (IsValid)

/-- Two runs end with the same failure or both without one, and leave the same at every place. -/
structure Ending.Alike (a b : Ending) : Prop where
  result : a.result = b.result
  tree : a.tree.Same b.tree

variable {o : Options} {f : Format} {out : Output} {t u : Tree}

theorem writePage_alike (out : Output) (h : t.Same u) {p q : Path}
    (hpage : page? o f t p = page? o f u q) :
    (∃ e, writePage o f out t p = .error e ∧ writePage o f out u q = .error e) ∨
      ∃ t' u', writePage o f out t p = .ok t' ∧ writePage o f out u q = .ok u' ∧ t'.Same u' := by
  rw [writePage, writePage, hpage]
  cases page? o f u q with
  | none => exact .inr ⟨t, u, rfl, rfl, h⟩
  | some page =>
    dsimp only
    rw [h.isFolder]
    split
    · exact .inl ⟨_, rfl, rfl⟩
    · exact .inr ⟨_, _, rfl, rfl, h.put _ _⟩

/-- Of files that are found on the same ways in both trees, the same pages are written. -/
theorem writePages_alike (h : t.Same u) {ps qs : List Path}
    (hsteps : ps.map Path.steps = qs.map Path.steps)
    (hps : ∀ p ∈ ps, (p.place? t).isSome = true) (hqs : ∀ q ∈ qs, (q.place? u).isSome = true) :
    (writePages o f out t ps).Alike (writePages o f out u qs) := by
  induction ps generalizing t u qs with
  | nil =>
    rw [List.map_eq_nil_iff.mp hsteps.symm]
    exact ⟨rfl, h⟩
  | cons p ps ih =>
    obtain ⟨q, qs, rfl, hq, hrest⟩ := List.map_eq_cons_iff.mp hsteps.symm
    -- both ways lead to one place, whose name and content make the page
    have hpage : page? o f t p = page? o f u q := by
      obtain ⟨a, ha⟩ := Option.isSome_iff_exists.mp (hps p List.mem_cons_self)
      obtain ⟨b, hb⟩ := Option.isSome_iff_exists.mp (hqs q List.mem_cons_self)
      have hb' : q.place? t = some b := (Path.place?_same h q).trans hb
      rw [← page?_same h q]
      exact page?_of_place?_eq ha (Path.place_unique hq hb' ha ▸ hb')
    rw [writePages, writePages]
    obtain ⟨e, hp, hq⟩ | ⟨t', u', hp, hq, hsame⟩ := writePage_alike out h hpage
    · rw [hp, hq]
      exact ⟨rfl, h⟩
    · rw [hp, hq]
      refine ih hsame hrest.symm (fun x hx => ?_) fun x hx => ?_
      · obtain ⟨a, ha⟩ := Option.isSome_iff_exists.mp (hps x (List.mem_cons_of_mem p hx))
        rw [place?_of_writePage hp ha]
        rfl
      · obtain ⟨a, ha⟩ := Option.isSome_iff_exists.mp (hqs x (List.mem_cons_of_mem q hx))
        rw [place?_of_writePage hq ha]
        rfl

theorem Lists.isSome_place? {patterns : List String} {paths : List Path}
    (h : Lists t patterns paths) {p : Path} (hp : p ∈ paths) : (p.place? t).isSome = true := by
  obtain ⟨a, ha, -⟩ := Path.exists_place?_of_isFile (h.isFile hp)
  rw [ha]
  rfl

/-- The same options with other patterns. -/
def Options.withPatterns (o : Options) (patterns : List String) : Options :=
  { o with patterns := patterns }

/-- Patterns say which pages are written, not what stands in them. -/
theorem writePages_withPatterns (patterns : List String) (paths : List Path) :
    writePages (o.withPatterns patterns) f out t paths = writePages o f out t paths := by
  have hpage : writePage (o.withPatterns patterns) f out = writePage o f out := rfl
  induction paths generalizing t with
  | nil => rfl
  | cons p paths ih =>
    rw [writePages, writePages, hpage]
    cases writePage o f out t p with
    | error e => rfl
    | ok t => exact ih

/-- Valid patterns name files in both trees, and the same pages are written of them. -/
theorem exists_inputs_alike (h : t.Same u) {patterns : List String}
    (hpatterns : ∀ s, s ∈ o.patterns ↔ s ∈ patterns) (hvalid : ∀ s ∈ o.patterns, IsValid s) :
    ∃ xs ys, inputs t o.patterns = .ok xs ∧ inputs u patterns = .ok ys ∧
      (writePages o f out t xs).Alike (writePages (o.withPatterns patterns) f out u ys) := by
  obtain ⟨xs, hxs⟩ := exists_inputs (t := t) hvalid
  obtain ⟨ys, hys⟩ := exists_inputs (t := u) fun s hs => hvalid s ((hpatterns s).mpr hs)
  have hlists := lists_of_inputs hxs
  have hlists' := lists_of_inputs hys
  refine ⟨xs, ys, hxs, hys, ?_⟩
  rw [writePages_withPatterns]
  exact writePages_alike h (hlists.map_steps_eq h hpatterns hlists')
    (fun p hp => hlists.isSome_place? hp) fun q hq => hlists'.isSome_place? hq

end DocComments.Command
