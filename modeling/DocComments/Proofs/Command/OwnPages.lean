import DocComments.Proofs.Command.Inputs
import DocComments.Proofs.Command.Pages
import Mathlib.Data.Finset.Card

/-!
# A page for each file

A page is named for its file, without the folder in which the file lies and without the ending of a
source file. Two files can so ask for pages of one name, of which the later takes the place of the
other. Nothing else is lost: in a run without failure whose folder for pages holds no input, each
name holds the last of the pages that ask for it.
-/

namespace DocComments.Command
open Files (Entry Path Place Tree)

variable {o : Options} {f : Format} {out : Output} {t u : Tree}

/-- Pages are written of the paths, which are the inputs in the tree that has the folder for
pages. -/
structure Begins (o : Options) (t : Tree) (f : Format) (out : Output) (begun : Tree)
    (paths : List Path) : Prop where
  format : format o = .ok f
  output : o.output?.map Path.ofText = some out.path
  folder : out.path.makeFolder? t = some (begun, out.place)
  inputs : inputs begun o.patterns = .ok paths

/-- No run comes to an end without failure before it has a folder and its inputs. -/
theorem exists_begins_of_ok {place : Place} (h : (run o t).result = .ok place) :
    ∃ f out begun paths, Begins o t f out begun paths := by
  unfold run at h
  split at h
  · cases h
  · rename_i output houtput
    split at h
    · cases h
    · rename_i f hformat
      dsimp only at h
      split at h
      · cases h
      · rename_i begun place hfolder
        split at h
        · cases h
        · rename_i paths hinputs
          exact ⟨f, ⟨Path.ofText output, place⟩, begun, paths, hformat, by rw [houtput]; rfl,
            hfolder, hinputs⟩

theorem Begins.run_eq {begun : Tree} {paths : List Path} (h : Begins o t f out begun paths) :
    run o t = writePages o f out begun paths := by
  obtain ⟨output, houtput, hpath⟩ := Option.map_eq_some_iff.mp h.output
  unfold run
  rw [houtput]
  dsimp only
  rw [h.format, hpath]
  dsimp only
  rw [h.folder]
  dsimp only
  rw [h.inputs]

/-! ### Every page that is written -/

/-- The pages of files by name and text, one after the other. -/
def pages (o : Options) (f : Format) (t : Tree) (paths : List Path) : List (String × String) :=
  paths.filterMap (page? o f t)

/-- A path leads somewhere, but not to an entry of the folder for pages. -/
def Outside (out : Output) (t : Tree) (p : Path) : Prop :=
  ∃ a, p.place? t = some a ∧ ∀ n, a ≠ out.place ++ [n]

theorem Outside.of_writePage {p q : Path} (hq : Outside out t q)
    (h : writePage o f out t p = .ok u) : Outside out u q := by
  obtain ⟨a, ha, houtside⟩ := hq
  exact ⟨a, place?_of_writePage h ha, houtside⟩

theorem Outside.page?_eq {p q : Path} (hq : Outside out t q)
    (h : writePage o f out t p = .ok u) : page? o f u q = page? o f t q := by
  obtain ⟨a, ha, houtside⟩ := hq
  obtain ⟨-, rfl⟩ | ⟨name, text, -, hfolder, rfl⟩ := writePage_cases h
  · rfl
  · exact page?_put hfolder ha (houtside name) _

theorem pages_of_writePage {p : Path} {paths : List Path} (h : writePage o f out t p = .ok u)
    (hpaths : ∀ q ∈ paths, Outside out t q) : pages o f u paths = pages o f t paths :=
  List.filterMap_congr fun q hq => (hpaths q hq).page?_eq h

theorem get?_of_writePage {p : Path} (h : writePage o f out t p = .ok u) (n : String) :
    u.get? (out.place ++ [n]) =
      ((((page? o f t p).toList.lookup n).map fun text => Entry.file (.text text)).or
        (t.get? (out.place ++ [n]))) := by
  obtain ⟨hpage, rfl⟩ | ⟨name, text, hpage, -, rfl⟩ := writePage_cases h
  · rw [hpage]
    rfl
  · rw [hpage]
    by_cases hn : n = name
    · subst hn
      rw [Tree.get?_put_self (by simp)]
      simp
    · rw [Tree.get?_put_of_ne (by simpa using hn)]
      have hlookup : List.lookup n [(name, text)] = none := by
        rw [List.lookup_cons, beq_eq_false_iff_ne.mpr hn]
        rfl
      simp [hlookup]

/-- After a run without failure, a name in the folder for pages holds the last page of that name,
or what it held before if there is no such page. -/
theorem get?_of_writePages {paths : List Path} {place : Place}
    (hok : (writePages o f out t paths).result = .ok place)
    (hpaths : ∀ p ∈ paths, Outside out t p) (n : String) :
    (writePages o f out t paths).tree.get? (out.place ++ [n]) =
      (((pages o f t paths).reverse.lookup n).map fun text => Entry.file (.text text)).or
        (t.get? (out.place ++ [n])) := by
  induction paths generalizing t with
  | nil => rfl
  | cons p paths ih =>
    rw [writePages] at hok ⊢
    cases hwrite : writePage o f out t p with
    | error e =>
      rw [hwrite] at hok
      cases hok
    | ok u =>
      rw [hwrite] at hok
      dsimp only at hok ⊢
      have hrest : ∀ q ∈ paths, Outside out t q := fun q hq => hpaths q (List.mem_cons_of_mem p hq)
      -- the other files ask for the same pages as before, and theirs come later
      have hpages : (pages o f t (p :: paths)).reverse =
          (pages o f u paths).reverse ++ (page? o f t p).toList := by
        rw [pages_of_writePage hwrite hrest, pages, pages, List.filterMap_cons]
        cases page? o f t p <;> simp
      rw [ih hok fun q hq => (hrest q hq).of_writePage hwrite, get?_of_writePage hwrite, hpages,
        List.lookup_append, Option.map_or, Option.or_assoc]

/-! ### Files that ask for a page -/

/-- The file at a place is one of the inputs and asks for a page of a name. -/
def Asks (o : Options) (f : Format) (t : Tree) (paths : List Path) (a : Place)
    (name text : String) : Prop :=
  ∃ p ∈ paths, p.place? t = some a ∧ page? o f t p = some (name, text)

variable {paths : List Path}

/-- A file asks for one page, however many paths lead to it. -/
theorem Asks.unique {a : Place} {m n r s : String} (h : Asks o f t paths a m r)
    (h' : Asks o f t paths a n s) : m = n ∧ r = s := by
  obtain ⟨p, -, hp, hpage⟩ := h
  obtain ⟨q, -, hq, hpage'⟩ := h'
  rw [page?_of_place?_eq hp hq, hpage'] at hpage
  cases hpage
  exact ⟨rfl, rfl⟩

theorem Asks.mem_pages {a : Place} {n s : String} (h : Asks o f t paths a n s) :
    (n, s) ∈ pages o f t paths := by
  obtain ⟨p, hp, -, hpage⟩ := h
  exact List.mem_filterMap.mpr ⟨p, hp, hpage⟩

theorem exists_asks_of_mem_pages (hpaths : ∀ p ∈ paths, Outside out t p) {n s : String}
    (h : (n, s) ∈ pages o f t paths) : ∃ a, Asks o f t paths a n s := by
  obtain ⟨p, hp, hpage⟩ := List.mem_filterMap.mp h
  obtain ⟨a, ha, -⟩ := hpaths p hp
  exact ⟨a, p, hp, ha, hpage⟩

/-- The name that the page of a file has. -/
theorem exists_pageName (o : Options) (f : Format) (t : Tree) (paths : List Path) :
    ∃ name : Place → String, ∀ a n s, Asks o f t paths a n s → name a = n := by
  have hname (a : Place) : ∃ m, ∀ n s, Asks o f t paths a n s → m = n := by
    by_cases h : ∃ n s, Asks o f t paths a n s
    · obtain ⟨m, r, hm⟩ := h
      exact ⟨m, fun n s hn => (hm.unique hn).1⟩
    · exact ⟨"", fun n s hn => (h ⟨n, s, hn⟩).elim⟩
  choose name hname using hname
  exact ⟨name, hname⟩

/-- There are only so many files that ask for a page. -/
theorem exists_askers (o : Options) (f : Format) (t : Tree) (paths : List Path) :
    ∃ askers : Finset Place, ∀ a, a ∈ askers ↔ ∃ n s, Asks o f t paths a n s := by
  refine ⟨(paths.filterMap fun p => (page? o f t p).bind fun _ => p.place? t).toFinset,
    fun a => ?_⟩
  simp only [List.mem_toFinset, List.mem_filterMap, Option.bind_eq_some_iff, Prod.exists]
  constructor
  · rintro ⟨p, hp, n, s, hpage, ha⟩
    exact ⟨n, s, p, hp, ha, hpage⟩
  · rintro ⟨n, s, p, hp, ha, hpage⟩
    exact ⟨p, hp, n, s, hpage, ha⟩

/-! ### Files of their own -/

/-- Among the pages that are written, each file that asks for one has a page of its own, which no
other file has and which holds what the file asks for in the end. -/
structure OwnPages (o : Options) (f : Format) (out : Output) (begun : Tree) (paths : List Path)
    (final : Tree) (own : Place → String) : Prop where
  written : ∀ a n s, Asks o f begun paths a n s → ∃ b r, Asks o f begun paths b (own a) r
  holds : ∀ a n s, Asks o f begun paths a n s →
    final.get? (out.place ++ [own a]) = some (.file (.text s))
  distinct : ∀ a b m n r s, Asks o f begun paths a m r → Asks o f begun paths b n s →
    own a = own b → a = b

/-- As many names as files: if each file has a page of its own, no two ask for one name. -/
theorem OwnPages.eq_of_name_eq {final : Tree} {own : Place → String}
    (h : OwnPages o f out t paths final own) {a b : Place} {n r s : String}
    (ha : Asks o f t paths a n r) (hb : Asks o f t paths b n s) : a = b := by
  obtain ⟨name, hname⟩ := exists_pageName o f t paths
  obtain ⟨askers, haskers⟩ := exists_askers o f t paths
  -- `name` takes the files onto the names of pages, and `own` takes them into these names
  have hmaps : Set.MapsTo own askers (askers.image name) := by
    intro c hc
    obtain ⟨m, x, hm⟩ := (haskers c).mp hc
    obtain ⟨d, y, hd⟩ := h.written c m x hm
    exact Finset.mem_coe.mpr (Finset.mem_image.mpr
      ⟨d, (haskers d).mpr ⟨own c, y, hd⟩, hname d (own c) y hd⟩)
  have hinj : Set.InjOn own askers := by
    intro c hc d hd heq
    obtain ⟨m, x, hm⟩ := (haskers c).mp hc
    obtain ⟨k, y, hk⟩ := (haskers d).mp hd
    exact h.distinct c d m k x y hm hk heq
  have hcard : (askers.image name).card = askers.card :=
    Nat.le_antisymm Finset.card_image_le (Finset.card_le_card_of_injOn own hmaps hinj)
  have hnames : Set.InjOn name askers := Finset.card_image_iff.mp hcard
  refine hnames ((haskers a).mpr ⟨n, r, ha⟩) ((haskers b).mpr ⟨n, s, hb⟩) ?_
  rw [hname a n r ha, hname b n s hb]

/-- The last page of a name is the only one if no two files ask for the name. -/
theorem lookup_pages (hpaths : ∀ p ∈ paths, Outside out t p)
    (hnames : ∀ a b n r s, Asks o f t paths a n r → Asks o f t paths b n s → a = b)
    {a : Place} {n s : String} (h : Asks o f t paths a n s) :
    (pages o f t paths).reverse.lookup n = some s := by
  have hsome : ((pages o f t paths).reverse.lookup n).isSome = true :=
    List.lookup_isSome_iff.mpr ⟨(n, s), List.mem_reverse.mpr h.mem_pages, beq_self_eq_true n⟩
  obtain ⟨r, hr⟩ := Option.isSome_iff_exists.mp hsome
  obtain ⟨front, back, hsplit, -⟩ := List.lookup_eq_some_iff.mp hr
  have hmem : (n, r) ∈ pages o f t paths := by
    rw [← List.mem_reverse, hsplit]
    simp
  obtain ⟨b, hb⟩ := exists_asks_of_mem_pages hpaths hmem
  obtain rfl := hnames a b n s r h hb
  rw [hr, (h.unique hb).2]

theorem Begins.outside {begun : Tree} (h : Begins o t f out begun paths)
    (hinputs : ∀ p ∈ paths, ∀ n, p.place? begun ≠ some (out.place ++ [n])) :
    ∀ p ∈ paths, Outside out begun p := by
  intro p hp
  obtain ⟨a, ha, -⟩ := Path.exists_place?_of_isFile ((lists_of_inputs h.inputs).isFile hp)
  refine ⟨a, ha, fun n hn => hinputs p hp n ?_⟩
  rw [ha, hn]

/-- In a run without failure whose folder for pages holds no input, each file with records has a
page of its own exactly if no two of these files ask for pages of one name. -/
theorem exists_ownPages_iff {begun : Tree} {place : Place} (h : Begins o t f out begun paths)
    (hok : (run o t).result = .ok place)
    (hinputs : ∀ p ∈ paths, ∀ n, p.place? begun ≠ some (out.place ++ [n])) :
    (∃ own, OwnPages o f out begun paths (run o t).tree own) ↔
      ∀ a b n r s, Asks o f begun paths a n r → Asks o f begun paths b n s → a = b := by
  have hpaths := h.outside hinputs
  constructor
  · rintro ⟨own, hown⟩ a b n r s ha hb
    exact hown.eq_of_name_eq ha hb
  · intro hnames
    rw [h.run_eq] at hok ⊢
    obtain ⟨name, hname⟩ := exists_pageName o f begun paths
    refine ⟨name, ?_, ?_, ?_⟩
    · intro a n s ha
      rw [hname a n s ha]
      exact ⟨a, s, ha⟩
    · intro a n s ha
      rw [hname a n s ha, get?_of_writePages hok hpaths, lookup_pages hpaths hnames ha]
      rfl
    · intro a b m n r s ha hb heq
      rw [hname a m r ha, hname b n s hb] at heq
      subst heq
      exact hnames a b m r s ha hb

/-- A path that spells out a place leads to an entry of a folder only if it starts with the folder's
own place. -/
theorem place?_ne_entry {p : Path} {folder : Place} (hp : p.place? t = some p)
    (hbelow : ¬ folder <+: p) (n : String) : p.place? t ≠ some (folder ++ [n]) := by
  intro h
  rw [Option.some.inj (hp.symm.trans h)] at hbelow
  exact hbelow (List.prefix_append folder [n])

/-- Two files in two folders ask for pages of different names. -/
theorem exists_ownPages_iff_two_names :
    let t : Tree := [(["lib"], .folder),
      (["lib", "a.js"], .file (.text "/** One. */ function one() \x7b\x7d")), (["src"], .folder),
      (["src", "b.js"], .file (.text "/** Two. */ function two() \x7b\x7d")), (["docs"], .folder)]
    let o : Options := ⟨"json", false, [], some "docs", ["lib/a.js", "src/b.js"]⟩
    let out : Output := ⟨["docs"], ["docs"]⟩
    let paths : List Path := [["lib", "a.js"], ["src", "b.js"]]
    Begins o t .data out t paths ∧ (run o t).result = .ok ["docs"] ∧
      (∀ p ∈ paths, ∀ n, p.place? t ≠ some (out.place ++ [n])) ∧
      ∃ own, OwnPages o .data out t paths (run o t).tree own := by
  intro t o out paths
  have hinputs : inputs t o.patterns = .ok paths :=
    inputs_of_ordered [[["lib", "a.js"]], [["src", "b.js"]]] (by decide +kernel) (by decide)
  have hbegins : Begins o t .data out t paths := ⟨rfl, rfl, rfl, hinputs⟩
  have hok : (run o t).result = .ok ["docs"] := by
    rw [hbegins.run_eq]
    decide +kernel
  have hplaces : ∀ p ∈ paths, p.place? t = some p := by decide
  have hbelow : ∀ p ∈ paths, ¬ out.place <+: p := by decide
  have houtside : ∀ p ∈ paths, ∀ n, p.place? t ≠ some (out.place ++ [n]) :=
    fun p hp => place?_ne_entry (hplaces p hp) (hbelow p hp)
  have hnames : ∀ p ∈ paths, ∀ q ∈ paths,
      (page? o .data t p).map Prod.fst = (page? o .data t q).map Prod.fst → p = q := by
    decide +kernel
  refine ⟨hbegins, hok, houtside, (exists_ownPages_iff hbegins hok houtside).mpr ?_⟩
  rintro a b n r s ⟨p, hp, ha, hr⟩ ⟨q, hq, hb, hs⟩
  obtain rfl := hnames p hp q hq (by rw [hr, hs]; rfl)
  exact Option.some.inj (ha.symm.trans hb)

/-- Two files in two folders ask for pages of one name, and only one of the pages is left. -/
theorem not_exists_ownPages_one_name :
    let t : Tree := [(["lib"], .folder),
      (["lib", "a.js"], .file (.text "/** One. */ function one() \x7b\x7d")), (["src"], .folder),
      (["src", "a.js"], .file (.text "/** Two. */ function two() \x7b\x7d")), (["docs"], .folder)]
    let o : Options := ⟨"json", false, [], some "docs", ["lib/a.js", "src/a.js"]⟩
    let out : Output := ⟨["docs"], ["docs"]⟩
    let paths : List Path := [["lib", "a.js"], ["src", "a.js"]]
    Begins o t .data out t paths ∧ (run o t).result = .ok ["docs"] ∧
      (∀ p ∈ paths, ∀ n, p.place? t ≠ some (out.place ++ [n])) ∧
      ¬ ∃ own, OwnPages o .data out t paths (run o t).tree own := by
  intro t o out paths
  have hinputs : inputs t o.patterns = .ok paths :=
    inputs_of_ordered [[["lib", "a.js"]], [["src", "a.js"]]] (by decide +kernel) (by decide)
  have hbegins : Begins o t .data out t paths := ⟨rfl, rfl, rfl, hinputs⟩
  have hok : (run o t).result = .ok ["docs"] := by
    rw [hbegins.run_eq]
    decide +kernel
  have hplaces : ∀ p ∈ paths, p.place? t = some p := by decide
  have hbelow : ∀ p ∈ paths, ¬ out.place <+: p := by decide
  have houtside : ∀ p ∈ paths, ∀ n, p.place? t ≠ some (out.place ++ [n]) :=
    fun p hp => place?_ne_entry (hplaces p hp) (hbelow p hp)
  have hnames : ∀ p ∈ paths, (page? o .data t p).map Prod.fst = some "a.json" := by
    decide +kernel
  have hasks : ∀ p ∈ paths, ∃ s, Asks o .data t paths p "a.json" s := by
    intro p hp
    obtain ⟨⟨n, s⟩, hpage, hn⟩ := Option.map_eq_some_iff.mp (hnames p hp)
    obtain rfl : n = "a.json" := hn
    exact ⟨s, p, hp, hplaces p hp, hpage⟩
  refine ⟨hbegins, hok, houtside, ?_⟩
  rintro ⟨own, hown⟩
  obtain ⟨r, hr⟩ := hasks ["lib", "a.js"] (by decide)
  obtain ⟨s, hs⟩ := hasks ["src", "a.js"] (by decide)
  exact absurd (hown.eq_of_name_eq hr hs) (by decide)

end DocComments.Command
