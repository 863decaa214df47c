namespace DataTree.Text

variable {α : Type}

theorem length_dropWhile_le (p : α → Bool) (text : List α) :
    (text.dropWhile p).length ≤ text.length :=
  (List.dropWhile_suffix p).length_le

theorem length_lt_of_dropWhile {p : α → Bool} {text rest : List α} {x : α}
    (h : text.dropWhile p = x :: rest) : rest.length < text.length := by
  have := length_dropWhile_le p text
  rw [h] at this
  exact this

end DataTree.Text
