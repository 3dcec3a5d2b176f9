/-!
# Cutting texts at a character

`cut` splits a text at the first occurrence of a character, `pieces` at every one, and `lines` at
every end of a line.
-/

namespace TodoLists.Text

/-- What stands before the first `c`, and what stands after it when there is one. -/
def cut (c : Char) : List Char → List Char × Option (List Char)
  | [] => ([], none)
  | x :: xs => if x = c then ([], some xs) else (x :: (cut c xs).1, (cut c xs).2)

@[simp] theorem cut_nil (c : Char) : cut c [] = ([], none) := rfl

theorem cut_of_not_mem {c : Char} {s : List Char} (h : c ∉ s) : cut c s = (s, none) := by
  induction s with
  | nil => rfl
  | cons x xs ih =>
    have hx : x ≠ c := fun e => h (by simp [e])
    have hxs : c ∉ xs := fun e => h (by simp [e])
    simp [cut, hx, ih hxs]

/-- The pieces between the occurrences of `c`, one more than there are occurrences. -/
def pieces (c : Char) (s : List Char) : List (List Char) := s.splitOnP (· == c)

/-- The lines of a text. A line ends with a line feed, a carriage return, or the second followed by
the first; what stands after the last end is a line if there is any of it. -/
def lines : List Char → List (List Char)
  | [] => []
  | '\r' :: '\n' :: rest => [] :: lines rest
  | c :: rest =>
    if c = '\n' ∨ c = '\r' then [] :: lines rest
    else match lines rest with
      | [] => [[c]]
      | l :: ls => (c :: l) :: ls

/-- The text without the copies of `c` that it starts with. -/
def dropLeading (c : Char) (s : List Char) : List Char := s.dropWhile (· == c)

end TodoLists.Text
