/-!
# Sizes in bytes

Positions and widths are counted in the bytes of UTF-8, of which a character takes one to four.
A cut is possible only between two characters.
-/

namespace DocComments.Text

/-- The number of bytes that a text takes. -/
def byteSize : List Char → Nat
  | [] => 0
  | c :: s => c.utf8Size + byteSize s

/-- The text without its first `n` bytes, unless the cut would divide a character or pass the
end. -/
def dropBytes? : Nat → List Char → Option (List Char)
  | 0, s => some s
  | _ + 1, [] => none
  | n + 1, c :: s => if c.utf8Size ≤ n + 1 then dropBytes? (n + 1 - c.utf8Size) s else none

theorem byteSize_append (s t : List Char) : byteSize (s ++ t) = byteSize s + byteSize t := by
  induction s with
  | nil => simp [byteSize]
  | cons c s ih => simp [byteSize, ih, Nat.add_assoc]

/-- A text consists of the bytes that are cut off and of what is left. -/
theorem exists_of_dropBytes?_eq_some {n : Nat} {s t : List Char} (h : dropBytes? n s = some t) :
    ∃ g, s = g ++ t ∧ byteSize g = n := by
  induction s generalizing n with
  | nil =>
    cases n with
    | zero => exact ⟨[], Option.some.inj h, rfl⟩
    | succ n => cases h
  | cons c s ih =>
    cases n with
    | zero => exact ⟨[], Option.some.inj h, rfl⟩
    | succ n =>
      rw [dropBytes?] at h
      split at h
      · rename_i hle
        obtain ⟨g, rfl, hsize⟩ := ih h
        exact ⟨c :: g, rfl, by rw [byteSize, hsize]; omega⟩
      · cases h

/-- A cut behind what stands in front is a cut of the rest. -/
theorem dropBytes?_byteSize_add (g s : List Char) (n : Nat) :
    dropBytes? (byteSize g + n) (g ++ s) = dropBytes? n s := by
  induction g with
  | nil => rw [byteSize, Nat.zero_add, List.nil_append]
  | cons c g ih =>
    have hpos := c.utf8Size_pos
    obtain ⟨m, hm⟩ : ∃ m, c.utf8Size + byteSize g + n = m + 1 :=
      ⟨c.utf8Size + byteSize g + n - 1, by omega⟩
    have hrest : m + 1 - c.utf8Size = byteSize g + n := by omega
    rw [byteSize, hm, List.cons_append, dropBytes?, if_pos (by omega), hrest, ih]

theorem dropBytes?_append (g s : List Char) : dropBytes? (byteSize g) (g ++ s) = some s := by
  have hcut := dropBytes?_byteSize_add g s 0
  rwa [Nat.add_zero, dropBytes?] at hcut

/-- Only the empty text takes no bytes. -/
theorem eq_nil_of_byteSize_eq_zero {s : List Char} (h : byteSize s = 0) : s = [] := by
  cases s with
  | nil => rfl
  | cons c s =>
    have hpos := c.utf8Size_pos
    rw [byteSize] at h
    omega

end DocComments.Text
