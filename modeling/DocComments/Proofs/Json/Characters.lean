import DocComments.Proofs.Json.Printed
import DocComments.Proofs.Text.Lines

/-!
# The characters of written data

Whatever a value is made of, the only characters of its text that are not visible or spaces are
those that its style puts between the parts: a line feed or a carriage return of a string is written
in letters. So data on one line has no line breaks, and each line inside an object written over many
lines starts with a space, whatever stands in its strings.
-/

namespace DocComments.Json

/-- What holds of a value holds of all data if it holds of containers whose parts it holds of. -/
theorem induction {P : Json → Prop} (null : P null) (bool : ∀ b, P (bool b))
    (number : ∀ n, P (number n)) (string : ∀ s, P (string s))
    (array : ∀ xs, (∀ x ∈ xs, P x) → P (array xs))
    (object : ∀ es : List (String × Json), (∀ e ∈ es, P e.2) → P (object es)) (j : Json) : P j :=
  @rec P (fun xs => ∀ x ∈ xs, P x) (fun es => ∀ e ∈ es, P e.2) (fun e => P e.2)
    null bool number string array object
    (List.forall_mem_nil P) (fun _ _ hx hxs => List.forall_mem_cons.mpr ⟨hx, hxs⟩)
    (List.forall_mem_nil fun e : String × Json => P e.2)
    (fun _ _ he hes => List.forall_mem_cons.mpr ⟨he, hes⟩)
    (fun _ _ hx => hx) j

/-! ### Numbers and strings -/

/-- All characters of a text are visible or spaces. -/
def IsVisible (s : List Char) : Prop :=
  ∀ c ∈ s, 32 ≤ c.toNat

section
variable {s t : List Char}

theorem isVisible_append : IsVisible (s ++ t) ↔ IsVisible s ∧ IsVisible t :=
  List.forall_mem_append

theorem isVisible_cons {c : Char} : IsVisible (c :: s) ↔ 32 ≤ c.toNat ∧ IsVisible s :=
  List.forall_mem_cons

theorem IsVisible.subset (h : IsVisible s) (hsubset : t ⊆ s) : IsVisible t :=
  fun c hc => h c (hsubset hc)

theorem isVisible_of_all (h : s.all (32 ≤ ·.toNat) = true) : IsVisible s :=
  fun c hc => of_decide_eq_true (List.all_eq_true.mp h c hc)

theorem isVisible_toDigits (n : Nat) : IsVisible (Nat.toDigits 10 n) := by
  intro c hc
  have hdigit : c.isDigit = true := Nat.isDigit_of_mem_toDigits (by decide) (by decide) hc
  have hlow := (Char.isDigit_iff_toNat.mp hdigit).1
  exact Nat.le_trans (by decide) hlow

theorem isVisible_zeros (n : Nat) : IsVisible (List.replicate n '0') := by
  intro c hc
  rw [List.eq_of_mem_replicate hc]
  decide

/-- The digits of a number stay visible wherever the point is put. -/
theorem isVisible_positionalText {wholeEnd : String} (hend : IsVisible wholeEnd.toList)
    (hs : IsVisible s) (exponent : Int) :
    IsVisible (Layout.positionalText wholeEnd s exponent) := by
  have hpoint : 32 ≤ '.'.toNat := by decide
  have hzero : 32 ≤ '0'.toNat := by decide
  unfold Layout.positionalText
  dsimp only
  split_ifs
  · exact isVisible_append.mpr ⟨isVisible_append.mpr ⟨hs, isVisible_zeros _⟩, hend⟩
  · have hwhole := hs.subset (List.take_subset (s.length - (-exponent).toNat) s)
    have hfraction := hs.subset (List.drop_subset (s.length - (-exponent).toNat) s)
    exact isVisible_append.mpr ⟨hwhole, isVisible_cons.mpr ⟨hpoint, hfraction⟩⟩
  · have hfraction := isVisible_append.mpr ⟨isVisible_zeros ((-exponent).toNat - s.length), hs⟩
    exact isVisible_cons.mpr ⟨hzero, isVisible_cons.mpr ⟨hpoint, hfraction⟩⟩

theorem isVisible_scientificText (hs : IsVisible s) (leading : Int) :
    IsVisible (Layout.scientificText s leading) := by
  have hfirst := hs.subset (List.take_subset 1 s)
  have hfraction : IsVisible (if s.length ≤ 1 then [] else '.' :: s.drop 1) := by
    split_ifs
    · exact List.forall_mem_nil _
    · exact isVisible_cons.mpr ⟨by decide, hs.subset (List.drop_subset 1 s)⟩
  have hsign : 32 ≤ (if leading < 0 then '-' else '+').toNat := by
    split_ifs <;> decide
  have hexponent := isVisible_cons.mpr ⟨hsign, isVisible_toDigits leading.natAbs⟩
  unfold Layout.scientificText
  exact isVisible_append.mpr ⟨isVisible_append.mpr ⟨hfirst, hfraction⟩,
    isVisible_cons.mpr ⟨by decide, hexponent⟩⟩

theorem isVisible_dropZeros (hs : IsVisible s) (exponent : Int) :
    IsVisible (Layout.dropZeros s exponent).1 := by
  refine hs.subset fun c hc => ?_
  have hmem := (List.dropWhile_suffix _).subset (List.mem_reverse.mp hc)
  exact List.mem_reverse.mp hmem

theorem isVisible_magnitudeText {l : Layout} (hend : IsVisible l.wholeEnd.toList) (rank : Nat) :
    IsVisible (l.magnitudeText rank) := by
  unfold Layout.magnitudeText
  split_ifs
  · exact isVisible_cons.mpr ⟨by decide, hend⟩
  · have hkept := isVisible_dropZeros (isVisible_toDigits (Decimal.shortest l.tie rank).digits)
      (Decimal.shortest l.tie rank).exponent
    dsimp only
    split_ifs
    · exact isVisible_positionalText hend hkept _
    · exact isVisible_scientificText hkept _

theorem isVisible_numberText (n : Number) : IsVisible (numberText n) := by
  have hsigned : ∀ negative rank, IsVisible (signedText negative rank) := by
    intro negative rank
    have hmagnitude : IsVisible (numberLayout.magnitudeText rank) :=
      isVisible_magnitudeText (isVisible_of_all (by decide)) rank
    unfold signedText
    split_ifs
    · exact isVisible_cons.mpr ⟨by decide, hmagnitude⟩
    · exact hmagnitude
  have hinteger : ∀ i : Int, IsVisible (toString i).toList := by
    intro i
    rw [toList_toString_int, signedDigits]
    split_ifs
    · exact isVisible_cons.mpr ⟨by decide, isVisible_toDigits _⟩
    · exact isVisible_toDigits _
  have hnull : IsVisible "null".toList := isVisible_of_all (by decide)
  cases n with
  | nan => exact hnull
  | infinite negative => exact hnull
  | finite negative rank =>
    change IsVisible (finiteText negative rank (Number.finite negative rank).toInt?)
    cases (Number.finite negative rank).toInt? with
    | none => exact hsigned negative rank
    | some i =>
      rw [finiteText]
      split_ifs
      · exact hinteger i
      · exact hsigned negative rank

/-- What is no visible character is written in letters. -/
theorem isVisible_escapedChar (c : Char) : IsVisible (escapedChar c) := by
  have hdigit : ∀ n < 16, 32 ≤ (Nat.digitChar n).toNat := by decide
  have hwritten := writtenChar c
  generalize escapedChar c = text at hwritten
  cases hwritten with
  | @letter l c hmem =>
    have hletters : letters.all (fun e => 32 ≤ e.1.toNat) = true := by decide
    have hl := List.all_eq_true.mp hletters _ hmem
    exact isVisible_of_all (by simpa using hl)
  | code hc =>
    have hhigh := hdigit (c.toNat / 16) (by omega)
    have hlow := hdigit (c.toNat % 16) (by omega)
    exact isVisible_of_all (by simp [hhigh, hlow])
  | plain _ _ hc => exact isVisible_of_all (by simpa using hc)

theorem isVisible_stringText (s : String) : IsVisible (stringText s) := by
  have hquote : 32 ≤ '\x22'.toNat := by decide
  refine isVisible_cons.mpr ⟨hquote, isVisible_append.mpr ⟨?_, ?_⟩⟩
  · intro c hc
    obtain ⟨d, -, hd⟩ := List.mem_flatMap.mp hc
    exact isVisible_escapedChar d c hd
  · exact isVisible_cons.mpr ⟨hquote, List.forall_mem_nil _⟩

end

/-! ### Values -/

/-- A property of texts that visible texts have and that is kept where texts are joined. -/
structure IsKept (P : List Char → Prop) : Prop where
  visible : ∀ s, IsVisible s → P s
  append : ∀ s t, P s → P t → P (s ++ t)

/-- What stands between the parts of a value at a depth and below it has a property. -/
structure Style.Keeps (style : Style) (P : List Char → Prop) (depth : Nat) : Prop where
  gap : ∀ d, depth ≤ d → P (style.gap d)
  afterColon : P style.afterColon

theorem Style.Keeps.deeper {style : Style} {P : List Char → Prop} {depth : Nat}
    (h : style.Keeps P depth) : style.Keeps P (depth + 1) :=
  ⟨fun d hd => h.gap d (Nat.le_of_succ_le hd), h.afterColon⟩

section
variable {P : List Char → Prop} (hP : IsKept P) {style : Style}
include hP

theorem IsKept.cons {c : Char} (hc : 32 ≤ c.toNat) {s : List Char} (hs : P s) : P (c :: s) :=
  hP.append [c] s (hP.visible [c] (isVisible_cons.mpr ⟨hc, List.forall_mem_nil _⟩)) hs

theorem IsKept.itemsText {depth : Nat} (hstyle : style.Keeps P depth) {xs : List Json}
    (hxs : ∀ x ∈ xs, P (textAt style depth x)) : P (itemsText style depth xs) := by
  have hgap := hstyle.gap depth (Nat.le_refl depth)
  induction xs with
  | nil => exact hP.visible [] (List.forall_mem_nil _)
  | cons x xs ih =>
    obtain ⟨hx, hxs⟩ := List.forall_mem_cons.mp hxs
    cases xs with
    | nil => exact hP.append _ _ hgap hx
    | cons y xs => exact hP.append _ _ (hP.append _ _ hgap hx) (hP.cons (by decide) (ih hxs))

theorem IsKept.entriesText {depth : Nat} (hstyle : style.Keeps P depth) {es : List (String × Json)}
    (hes : ∀ e ∈ es, P (textAt style depth e.2)) : P (entriesText style depth es) := by
  have hgap := hstyle.gap depth (Nat.le_refl depth)
  have hkey : ∀ k, P (style.gap depth ++ stringText k) := fun k =>
    hP.append _ _ hgap (hP.visible _ (isVisible_stringText k))
  induction es with
  | nil => exact hP.visible [] (List.forall_mem_nil _)
  | cons e es ih =>
    obtain ⟨k, x⟩ := e
    obtain ⟨hx, hes⟩ := List.forall_mem_cons.mp hes
    have hvalue : P (':' :: (style.afterColon ++ textAt style depth x)) :=
      hP.cons (by decide) (hP.append _ _ hstyle.afterColon hx)
    have hentry := hP.append _ _ (hkey k) hvalue
    cases es with
    | nil => exact hentry
    | cons f es => exact hP.append _ _ hentry (hP.cons (by decide) (ih hes))

/-- The text of a value has every such property that the gaps of its style have. -/
theorem IsKept.textAt (j : Json) {depth : Nat} (hstyle : style.Keeps P depth) :
    P (textAt style depth j) := by
  induction j using Json.induction generalizing depth with
  | null => exact hP.visible _ (isVisible_of_all rfl)
  | bool b => cases b <;> exact hP.visible _ (isVisible_of_all rfl)
  | number n => exact hP.visible _ (isVisible_numberText n)
  | string s => exact hP.visible _ (isVisible_stringText s)
  | array xs ih =>
    cases xs with
    | nil => exact hP.visible _ (isVisible_of_all rfl)
    | cons x xs =>
      have hitems := hP.itemsText hstyle.deeper fun y hy => ih y hy hstyle.deeper
      have hclosing := hP.visible [']'] (isVisible_of_all (by decide))
      exact hP.cons (by decide)
        (hP.append _ _ (hP.append _ _ hitems (hstyle.gap depth (Nat.le_refl depth))) hclosing)
  | object es ih =>
    cases es with
    | nil => exact hP.visible _ (isVisible_of_all rfl)
    | cons e es =>
      have hentries := hP.entriesText hstyle.deeper fun f hf => ih f hf hstyle.deeper
      have hclosing := hP.visible ['\x7d'] (isVisible_of_all (by decide))
      exact hP.cons (by decide)
        (hP.append _ _ (hP.append _ _ hentries (hstyle.gap depth (Nat.le_refl depth))) hclosing)

end

/-- Data on one line holds no line feed, no carriage return and no other control character. -/
theorem isVisible_compact (j : Json) : IsVisible j.compact.toList := by
  have hkept : IsKept IsVisible := ⟨fun _ h => h, fun _ _ hs ht => isVisible_append.mpr ⟨hs, ht⟩⟩
  have hstyle : compactStyle.Keeps IsVisible 0 :=
    ⟨fun _ _ => List.forall_mem_nil _, List.forall_mem_nil _⟩
  rw [compact, String.toList_ofList]
  exact hkept.textAt j hstyle

/-! ### Lines inside an object -/

/-- Every line feed of a text is followed by a space. -/
def IsIndented (s : List Char) : Prop :=
  ∀ a b, s = a ++ '\n' :: b → b.head? = some ' '

theorem isKept_isIndented : IsKept IsIndented where
  visible s hs a b hsplit := by
    have hfeed := hs '\n' (hsplit ▸ by simp)
    exact absurd hfeed (by decide)
  append s t hs ht a b hsplit := by
    rcases List.append_eq_append_iff.mp hsplit with ⟨u, ha, htsplit⟩ | ⟨u, hssplit, hfeed⟩
    · exact ht u b htsplit
    · cases u with
      | nil =>
        rw [List.nil_append] at hfeed
        exact ht [] b hfeed.symm
      | cons c u =>
        obtain ⟨rfl, rfl⟩ := List.cons.inj hfeed
        have hspace := hs a u hssplit
        cases u with
        | nil => cases hspace
        | cons d u => exact hspace

/-- The gaps inside of an object are line feeds with spaces behind them. -/
theorem keeps_isIndented : prettyStyle.Keeps IsIndented 1 where
  gap d hd := by
    obtain ⟨d, rfl⟩ := Nat.exists_eq_add_of_le' hd
    have hspaces : IsVisible (List.replicate (2 * d + 1) ' ') := fun c hc =>
      List.eq_of_mem_replicate hc ▸ (by decide)
    intro a b hsplit
    have hgap : prettyStyle.gap (d + 1) = '\n' :: ' ' :: List.replicate (2 * d + 1) ' ' := rfl
    rw [hgap] at hsplit
    cases a with
    | nil =>
      obtain ⟨-, rfl⟩ := List.cons.inj hsplit
      rfl
    | cons c a =>
      obtain ⟨-, htail⟩ := List.cons.inj hsplit
      exact isKept_isIndented.visible _ (isVisible_cons.mpr ⟨by decide, hspaces⟩) a b htail
  afterColon := isKept_isIndented.visible _ (isVisible_of_all (by decide))

/-- Each line behind a line feed of such a text starts with a space. -/
theorem IsIndented.head?_of_mem {s l : List Char} (h : IsIndented ('\n' :: s))
    (hl : l ∈ s.splitOn '\n') : l.head? = some ' ' := by
  obtain ⟨ls, ms, hpieces⟩ := List.append_of_mem hl
  have hs : Text.unlines (ls ++ l :: ms) = s := by
    rw [← hpieces]
    exact List.intercalate_splitOn '\n'
  have hbehind : (Text.unlines (l :: ms)).head? = some ' ' := by
    cases ls with
    | nil => exact h [] _ (congrArg ('\n' :: ·) hs.symm)
    | cons m ls =>
      rw [Text.unlines_append (List.cons_ne_nil m ls) (List.cons_ne_nil l ms)] at hs
      exact h ('\n' :: Text.unlines (m :: ls)) _ (congrArg ('\n' :: ·) hs.symm)
  cases ms with
  | nil => rwa [Text.unlines_singleton] at hbehind
  | cons m ms =>
    rw [Text.unlines_cons_cons] at hbehind
    cases l with
    | nil => cases hbehind
    | cons c l => exact hbehind

/-- An object over many lines: its braces stand alone on the first and the last line, and each line
between them starts with a space. -/
theorem exists_lines_pretty_object {es : List (String × Json)} (hne : es ≠ []) :
    ∃ inner, (object es).pretty.toList = Text.unlines (['\x7b'] :: inner ++ [['\x7d']]) ∧
      ∀ l ∈ inner, '\n' ∉ l ∧ l.head? = some ' ' := by
  cases es with
  | nil => exact absurd rfl hne
  | cons e es =>
    have hindented : IsIndented (entriesText prettyStyle 1 (e :: es)) :=
      isKept_isIndented.entriesText keeps_isIndented fun f _ =>
        isKept_isIndented.textAt f.2 keeps_isIndented
    have hbody : ∃ body, entriesText prettyStyle 1 (e :: es) = '\n' :: body := by
      cases es <;> exact ⟨_, rfl⟩
    obtain ⟨body, hbody⟩ := hbody
    rw [hbody] at hindented
    obtain ⟨ls, l, hunlines, hls, hl⟩ := Text.exists_eq_unlines body
    refine ⟨ls ++ [l], ?_, ?_⟩
    · have hlines : Text.unlines (['\x7b'] :: (ls ++ [l]) ++ [['\x7d']]) =
          ['\x7b'] ++ '\n' :: (Text.unlines (ls ++ [l]) ++ '\n' :: ['\x7d']) := by
        rw [List.cons_append, Text.unlines_cons (by simp),
          Text.unlines_append (by simp) (List.cons_ne_nil _ _), Text.unlines_singleton]
      rw [hlines, ← hunlines, pretty, String.toList_ofList, Json.textAt, hbody, List.append_assoc]
      rfl
    · intro m hm
      have hmem : m ∈ body.splitOn '\n' := by
        rwa [hunlines, Text.splitOn_unlines hls hl]
      refine ⟨?_, hindented.head?_of_mem hmem⟩
      rcases List.mem_append.mp hm with hm | hm
      · exact hls m hm
      · rwa [List.mem_singleton.mp hm]

end DocComments.Json
