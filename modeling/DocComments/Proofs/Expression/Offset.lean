import DocComments.Proofs.Expression.Walk
import DocComments.Proofs.Text.Trimming

/-!
# Positions between characters

A position stands between two characters exactly if an end of the text starts there, and then the
text can be cut. Each step of a walk leads from one end of the text to another one, so it never
comes to a place inside a character; and what a walk comes to is told by the end of the text that it
leaves, whatever the position was.
-/

namespace DocComments.Expression
open Text (byteSize dropBytes? trimStart firstMark afterMark Found)
open Unicode (isBlank)

/-- The position in bytes at which an end of a text starts. -/
def offset (text s : List Char) : Nat :=
  byteSize text - byteSize s

section
variable {text s t : List Char}

theorem offset_append (g s : List Char) : offset (g ++ s) s = byteSize g := by
  rw [offset, Text.byteSize_append, Nat.add_sub_cancel]

/-- Where an end of the text starts, the text can be cut. -/
theorem dropBytes?_offset (h : s <:+ text) : dropBytes? (offset text s) text = some s := by
  obtain ⟨g, rfl⟩ := h
  rw [offset_append, Text.dropBytes?_append]

/-- What stands between two places where the text can be cut. -/
theorem between?_offset {u : List Char} (hsplit : u ++ t = s) (hs : s <:+ text) :
    between? (offset text s) (offset text t) text = some u := by
  subst hsplit
  have hle : offset text (u ++ t) ≤ offset text t := by
    rw [offset, offset, Text.byteSize_append]
    omega
  rw [between?, if_pos hle, dropBytes?_offset hs,
    dropBytes?_offset ((List.suffix_append u t).trans hs)]
  change some ((u ++ t).take ((u ++ t).length - t.length)) = some u
  rw [List.length_append, Nat.add_sub_cancel, List.take_left]

theorem offset_cons (h : c :: s <:+ text) : offset text s = offset text (c :: s) + c.utf8Size := by
  obtain ⟨g, rfl⟩ := h
  have hrest : g ++ c :: s = (g ++ [c]) ++ s := by simp
  rw [offset_append, hrest, offset_append, Text.byteSize_append, byteSize, byteSize]
  omega

end

/-- A fault points into the text: at the character it names, or at all that is left of the text,
which does not start with a blank. -/
def Fault.PointsInto (text : List Char) : Fault (List Char) → Prop
  | unexpectedChar found place => place <:+ text ∧ place.head? = some found
  | trailing rest => rest.toList <:+ text ∧ ∃ c, rest.toList.head? = some c ∧ isBlank c = false
  | _ => True

/-- What a reader is to give: a value and the text that it leaves, or a fault. -/
abbrev Outcome (α : Type) := Except (Fault (List Char)) (α × List Char)

/-- What is to come of a walk, with positions in bytes for ends of the text. -/
def Outcome.located {α : Type} (text : List Char) : Outcome α → Except (Fault Nat) (α × Nat)
  | .ok (a, t) => .ok (a, offset text t)
  | .error fault => .error (fault.inText text)

/-- What is left is an end of the text, and a fault points into it. -/
def Outcome.StaysIn {α : Type} (text : List Char) : Outcome α → Prop
  | .ok (_, t) => t <:+ text
  | .error fault => fault.PointsInto text

/-- From the place where `s` starts, a walk has the given outcome. -/
def Runs {α : Type} (text : List Char) (walk : Walk α) (s : List Char) (outcome : Outcome α) :
    Prop :=
  walk (offset text s) = some (outcome.located text) ∧ outcome.StaysIn text

namespace Runs
variable {α β : Type} {text s t : List Char} {a : α} {walk : Walk α} {next : α → Walk β}
  {outcome : Outcome β} {fault : Fault (List Char)}

theorem pure (hs : s <:+ text) (a : α) : Runs text (Pure.pure a : Walk α) s (.ok (a, s)) :=
  ⟨rfl, hs⟩

theorem throw (s : List Char) {found : Fault Nat} (hfound : found = fault.inText text)
    (h : fault.PointsInto text) :
    Runs text (MonadExcept.throw found : Walk α) s (.error fault) := by
  subst hfound
  exact ⟨rfl, h⟩

theorem bind_apply (walk : Walk α) (next : α → Walk β) (position : Nat) :
    (walk >>= next) position = Option.bind (walk position)
      (ExceptT.bindCont fun found : α × Nat => next found.1 found.2) :=
  rfl

theorem bind_ok (h : Runs text walk s (.ok (a, t))) (hnext : Runs text (next a) t outcome) :
    Runs text (walk >>= next) s outcome := by
  refine ⟨?_, hnext.2⟩
  rw [bind_apply, h.1]
  exact hnext.1

theorem bind_error (h : Runs text walk s (.error fault)) :
    Runs text (walk >>= next) s (.error fault) := by
  refine ⟨?_, h.2⟩
  rw [bind_apply, h.1]
  rfl

end Runs

/-! ### Steps -/

section
variable {text s : List Char} {c : Char}

theorem runs_get (hs : s <:+ text) : Runs text get s (.ok (offset text s, s)) :=
  ⟨rfl, hs⟩

theorem runs_ahead (hs : s <:+ text) : Runs text (Walk.ahead text) s (.ok (s, s)) := by
  refine ⟨?_, hs⟩
  rw [Walk.ahead, dropBytes?_offset hs]
  rfl

theorem runs_spelling {u t : List Char} (hsplit : u ++ t = s) (hs : s <:+ text) :
    Runs text (Walk.spelling text (offset text s)) t (.ok (u, t)) := by
  refine ⟨?_, List.IsSuffix.trans ⟨u, hsplit⟩ hs⟩
  rw [Walk.spelling, between?_offset hsplit hs]
  rfl

theorem runs_peek (hs : s <:+ text) : Runs text (Walk.peek text) s (.ok (s.head?, s)) :=
  (runs_ahead hs).bind_ok (.pure hs _)

theorem runs_advance {n : Nat} (hs : s <:+ text) {t : List Char}
    (hn : offset text s + n = offset text t) (ht : t <:+ s) :
    Runs text (Walk.advance text n) s (.ok ((), t)) := by
  refine ⟨?_, ht.trans hs⟩
  rw [Walk.advance, hn, dropBytes?_offset (ht.trans hs)]
  rfl

theorem runs_step {n : Nat} (hs : c :: s <:+ text) (hn : n = c.utf8Size) :
    Runs text (Walk.advance text n) (c :: s) (.ok ((), s)) :=
  runs_advance hs (by rw [hn, offset_cons hs]) (List.suffix_cons c s)

theorem runs_bump_nil (hs : [] <:+ text) : Runs text (Walk.bump text) [] (.ok (none, [])) :=
  (runs_peek hs).bind_ok (.pure hs none)

theorem runs_bump (hs : c :: s <:+ text) :
    Runs text (Walk.bump text) (c :: s) (.ok (some c, s)) :=
  (runs_peek hs).bind_ok ((runs_step hs rfl).bind_ok (.pure ((List.suffix_cons c s).trans hs) _))

theorem runs_bumpOr_nil {found : Fault Nat} (fault : Fault (List Char)) (hs : [] <:+ text)
    (hfound : found = fault.inText text) (h : fault.PointsInto text) :
    Runs text (Walk.bumpOr text found) [] (.error fault) :=
  (runs_bump_nil hs).bind_ok (.throw [] hfound h)

theorem runs_bumpOr {found : Fault Nat} (hs : c :: s <:+ text) :
    Runs text (Walk.bumpOr text found) (c :: s) (.ok (c, s)) :=
  (runs_bump hs).bind_ok (.pure ((List.suffix_cons c s).trans hs) c)

theorem length_lt_rounds (hs : s <:+ text) : s.length < Walk.rounds text :=
  Nat.lt_succ_of_le hs.length_le

/-- What is passed is what characters of the sort are in front, if each is as wide as it is said to
be. Each round passes one of them. -/
theorem runs_skipWhile {sort : Char → Bool} {width : Char → Nat} {rounds : Nat}
    (hwidth : ∀ c, sort c = true → width c = c.utf8Size) (hs : s <:+ text)
    (hrounds : s.length < rounds) :
    Runs text (Walk.skipWhile text sort width rounds) s (.ok ((), s.dropWhile sort)) := by
  induction rounds generalizing s with
  | zero => exact absurd hrounds (Nat.not_lt_zero _)
  | succ rounds ih =>
    cases s with
    | nil =>
      have hone : Runs text (Walk.skipOne text sort width) [] (.ok (false, [])) :=
        (runs_peek hs).bind_ok (.pure hs false)
      exact hone.bind_ok (.pure hs ())
    | cons c s =>
      by_cases hc : sort c = true
      · have hrest := (List.suffix_cons c s).trans hs
        have hone : Runs text (Walk.skipOne text sort width) (c :: s) (.ok (true, s)) := by
          refine (runs_peek hs).bind_ok ?_
          simp only [List.head?_cons, if_pos hc]
          exact (runs_step hs (hwidth c hc)).bind_ok (.pure hrest true)
        rw [List.dropWhile_cons_of_pos hc]
        exact hone.bind_ok (ih hrest (Nat.lt_of_succ_lt_succ hrounds))
      · have hone : Runs text (Walk.skipOne text sort width) (c :: s) (.ok (false, c :: s)) := by
          refine (runs_peek hs).bind_ok ?_
          simp only [List.head?_cons, if_neg hc]
          exact .pure hs false
        rw [List.dropWhile_cons_of_neg hc]
        exact hone.bind_ok (.pure hs ())

theorem runs_skipBlanks (hs : s <:+ text) :
    Runs text (Walk.skipBlanks text) s (.ok ((), trimStart s)) :=
  runs_skipWhile (fun _ _ => rfl) hs (length_lt_rounds hs)

theorem runs_skipBytes {sort : Char → Bool} (hsort : ∀ c, sort c = true → c.utf8Size = 1)
    (hs : s <:+ text) :
    Runs text (Walk.skipBytes text sort) s (.ok ((), s.dropWhile sort)) :=
  runs_skipWhile (fun c hc => (hsort c hc).symm) hs (length_lt_rounds hs)

theorem pointsInto_unexpectedChar (hs : c :: s <:+ text) :
    (Fault.unexpectedChar c (c :: s)).PointsInto text :=
  ⟨hs, rfl⟩

theorem runs_unexpected {α : Type} (hs : c :: s <:+ text) :
    Runs text (Walk.unexpected c : Walk α) (c :: s) (.error (.unexpectedChar c (c :: s))) :=
  (runs_get hs).bind_ok (.throw _ rfl (pointsInto_unexpectedChar hs))

theorem runs_unexpectedBehind {α : Type} (hs : c :: s <:+ text) :
    Runs text (Walk.unexpectedBehind c : Walk α) s (.error (.unexpectedChar c (c :: s))) := by
  refine (runs_get ((List.suffix_cons c s).trans hs)).bind_ok ?_
  rw [offset_cons hs, Nat.add_sub_cancel]
  exact .throw s rfl (pointsInto_unexpectedChar hs)

/-- What goes on with a value, or stands behind it, is told from its first character on. -/
theorem runs_continued {α : Type} (hs : c :: s <:+ text) (hc : isBlank c = false) :
    Runs text (Walk.continued text c : Walk α) (c :: s) (.error (continuation c s)) := by
  refine (runs_ahead hs).bind_ok (.throw _ rfl ?_)
  have htrailing : (Fault.trailing (String.ofList (c :: s))).PointsInto text :=
    ⟨by rwa [String.toList_ofList], c, by rw [String.toList_ofList]; rfl, hc⟩
  rw [continuation]
  split_ifs <;> first | exact trivial | exact htrailing

section
variable {β : Type} {outcome : Outcome β}

/-- Behind blanks a walk goes on at the first mark, if there is one. -/
theorem runs_skipBlanks_bind {walk : Walk β} (hs : s <:+ text)
    (hnone : firstMark s = none → [] <:+ text → Runs text walk [] outcome)
    (hsome : ∀ c, firstMark s = some c → c :: afterMark s <:+ text → isBlank c = false →
      Runs text walk (c :: afterMark s) outcome) :
    Runs text (Walk.skipBlanks text >>= fun _ => walk) s outcome := by
  have htrim := (Text.trimStart_suffix s).trans hs
  refine (runs_skipBlanks hs).bind_ok ?_
  cases hmark : firstMark s with
  | none =>
    have hnil : trimStart s = [] := List.head?_eq_none_iff.mp hmark
    rw [hnil] at htrim ⊢
    exact hnone hmark htrim
  | some c =>
    have hcons := Text.trimStart_eq_of_firstMark hmark
    rw [hcons] at htrim ⊢
    exact hsome c hmark htrim (Text.isBlank_of_trimStart_eq_cons hcons)

/-- A walk that looks at the first mark stays in front of it. -/
theorem runs_mark {next : Char → Walk β} (hs : s <:+ text)
    (hnone : firstMark s = none → outcome = .error .unexpectedEnd)
    (hsome : ∀ c, firstMark s = some c → c :: afterMark s <:+ text →
      Runs text (next c) (c :: afterMark s) outcome) :
    Runs text (Walk.skipBlanks text >>= fun _ => Walk.peekOr text .unexpectedEnd >>= next) s
      outcome := by
  refine runs_skipBlanks_bind hs (fun hmark hnil => ?_) fun c hmark hcons _ => ?_
  · rw [hnone hmark]
    exact Runs.bind_error ((runs_peek hnil).bind_ok (.throw [] rfl trivial))
  · exact Runs.bind_ok ((runs_peek hcons).bind_ok (.pure hcons c)) (hsome c hmark hcons)

/-- A walk that takes the first mark goes on behind it. -/
theorem runs_mark_bump {next : Char → Walk β} (hs : s <:+ text)
    (hnone : firstMark s = none → outcome = .error .unexpectedEnd)
    (hsome : ∀ c, firstMark s = some c → c :: afterMark s <:+ text →
      Runs text (next c) (afterMark s) outcome) :
    Runs text (Walk.skipBlanks text >>= fun _ => Walk.bumpOr text .unexpectedEnd >>= next) s
      outcome := by
  refine runs_skipBlanks_bind hs (fun hmark hnil => ?_) fun c hmark hcons _ => ?_
  · rw [hnone hmark]
    exact (runs_bumpOr_nil .unexpectedEnd hnil rfl trivial).bind_error
  · exact (runs_bumpOr hcons).bind_ok (hsome c hmark hcons)

/-- Behind a value a walk looks whether anything stands there. -/
theorem runs_mark? {next : Option Char → Walk β} (hs : s <:+ text)
    (hnone : firstMark s = none → [] <:+ text → Runs text (next none) [] outcome)
    (hsome : ∀ c, firstMark s = some c → c :: afterMark s <:+ text → isBlank c = false →
      Runs text (next (some c)) (c :: afterMark s) outcome) :
    Runs text (Walk.skipBlanks text >>= fun _ => Walk.peek text >>= next) s outcome :=
  runs_skipBlanks_bind hs (fun hmark hnil => (runs_peek hnil).bind_ok (hnone hmark hnil))
    fun c hmark hcons hc => (runs_peek hcons).bind_ok (hsome c hmark hcons hc)

end

end

end DocComments.Expression
