import DataTree.Text.Span
import Mathlib.Data.List.TakeWhile

namespace DataTree.Text

variable {α : Type} {p : α → Bool} {run rest : List α} {x : α}

theorem takeWhile_run (hrun : ∀ y ∈ run, p y = true) (hx : p x = false) :
    (run ++ x :: rest).takeWhile p = run := by
  rw [List.takeWhile_append_of_pos hrun, List.takeWhile_cons_of_neg (by simp [hx]), List.append_nil]

theorem dropWhile_run (hrun : ∀ y ∈ run, p y = true) (hx : p x = false) :
    (run ++ x :: rest).dropWhile p = x :: rest := by
  rw [List.dropWhile_append_of_pos hrun, List.dropWhile_cons_of_neg (by simp [hx])]

theorem head_rejected (h : ∀ y ∈ run.head?, p y = false) (hl : 0 < run.length) : ¬ p run[0] := by
  obtain ⟨y, run, rfl⟩ := List.exists_cons_of_length_pos hl
  simpa using h y rfl

end DataTree.Text
