import DocComments.Text.Trim

/-!
# Reading from the front of a text

What a reader hands on: a value, and the text that is still to be read. The rest is always
shorter than the text the reader was given, so whoever reads again and again comes to an end.
-/

namespace DocComments.Text

/-- A value read from the front of `s`, and the shorter text after it. -/
structure Found (α : Type) (s : List Char) where
  value : α
  rest : List Char
  shorter : rest.length < s.length

namespace Found
variable {α β : Type} {s t : List Char}

/-- The same reading with another value. -/
def map (f : α → β) (x : Found α s) : Found β s :=
  ⟨f x.value, x.rest, x.shorter⟩

/-- A reading of a text that is no longer than `s` is a reading of `s`. -/
def within (x : Found α t) (h : t.length ≤ s.length) : Found α s :=
  ⟨x.value, x.rest, Nat.lt_of_lt_of_le x.shorter h⟩

/-- The reading of one character, whatever it stands for. -/
def one {c : Char} (a : α) : Found α (c :: s) :=
  ⟨a, s, Nat.lt_succ_self _⟩

/-- A reading from behind the first character of a text. -/
def behind {c : Char} (x : Found α s) : Found α (c :: s) :=
  x.within (Nat.le_succ _)

/-- A reading of what another one has left. -/
def after (x : Found α s) (y : Found β x.rest) : Found β s :=
  y.within (Nat.le_of_lt x.shorter)

/-- The same reading with less of the text left. -/
def leaving (x : Found α s) (t : List Char) (h : t.length ≤ x.rest.length) : Found α s :=
  ⟨x.value, t, Nat.lt_of_le_of_lt h x.shorter⟩

@[simp] theorem value_map (f : α → β) (x : Found α s) : (x.map f).value = f x.value := rfl

@[simp] theorem rest_map (f : α → β) (x : Found α s) : (x.map f).rest = x.rest := rfl

@[simp] theorem value_within (x : Found α t) (h : t.length ≤ s.length) :
    (x.within h).value = x.value := rfl

@[simp] theorem rest_within (x : Found α t) (h : t.length ≤ s.length) :
    (x.within h).rest = x.rest := rfl

@[simp] theorem value_one {c : Char} (a : α) : (one a : Found α (c :: s)).value = a := rfl

@[simp] theorem rest_one {c : Char} (a : α) : (one a : Found α (c :: s)).rest = s := rfl

@[simp] theorem value_behind {c : Char} (x : Found α s) :
    (x.behind : Found α (c :: s)).value = x.value := rfl

@[simp] theorem rest_behind {c : Char} (x : Found α s) :
    (x.behind : Found α (c :: s)).rest = x.rest := rfl

@[simp] theorem value_after (x : Found α s) (y : Found β x.rest) :
    (x.after y).value = y.value := rfl

@[simp] theorem rest_after (x : Found α s) (y : Found β x.rest) :
    (x.after y).rest = y.rest := rfl

@[simp] theorem value_leaving (x : Found α s) (h : t.length ≤ x.rest.length) :
    (x.leaving t h).value = x.value := rfl

@[simp] theorem rest_leaving (x : Found α s) (h : t.length ≤ x.rest.length) :
    (x.leaving t h).rest = t := rfl

end Found

/-- The first character of a text that is not blank. -/
def firstMark (s : List Char) : Option Char :=
  (trimStart s).head?

/-- The text after the first character that is not blank. -/
def afterMark (s : List Char) : List Char :=
  (trimStart s).tail

theorem length_afterMark_le (s : List Char) : (afterMark s).length ≤ s.length := by
  have h := length_trimStart_le s
  simp only [afterMark, List.length_tail]
  omega

theorem length_trimStart_afterMark_le (s : List Char) :
    (trimStart (afterMark s)).length ≤ s.length :=
  Nat.le_trans (length_trimStart_le _) (length_afterMark_le s)

theorem trimStart_eq_of_firstMark {s : List Char} {c : Char} (h : firstMark s = some c) :
    trimStart s = c :: afterMark s := by
  unfold firstMark at h
  unfold afterMark
  cases ht : trimStart s with
  | nil => simp [ht] at h
  | cons d t => simp_all

end DocComments.Text
