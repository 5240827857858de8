import Mathlib.Data.List.Basic

/-!
The longest front of a text in a class of characters, where it is known which character ends it.
-/

namespace LibSurvey.Text

variable {p : Char → Bool} {front rest : List Char}

theorem takeWhile_front (inside : ∀ c ∈ front, p c = true)
    (stop : ∀ c ∈ rest.head?, p c = false) : (front ++ rest).takeWhile p = front := by
  rw [List.takeWhile_append_of_pos inside]
  cases rest with
  | nil => simp
  | cons c rest => simp [stop c rfl]

theorem dropWhile_front (inside : ∀ c ∈ front, p c = true)
    (stop : ∀ c ∈ rest.head?, p c = false) : (front ++ rest).dropWhile p = rest := by
  rw [List.dropWhile_append_of_pos inside]
  cases rest with
  | nil => rfl
  | cons c rest => simp [stop c rfl]

end LibSurvey.Text
