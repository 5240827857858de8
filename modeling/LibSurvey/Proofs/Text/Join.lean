import Mathlib.Data.List.Basic
import Mathlib.Data.List.Forall2

/-!
Lists joined by one separator: their members, what is kept of them, and the texts that they are
written as.
-/

namespace LibSurvey.Text

variable {α β : Type} {sep : α}

theorem mem_intercalate {x : α} {parts : List (List α)} (h : x ∈ [sep].intercalate parts) :
    x = sep ∨ ∃ part ∈ parts, x ∈ part := by
  induction parts with
  | nil => exact absurd h (by simp)
  | cons part parts ih =>
      cases parts with
      | nil => exact .inr ⟨part, by simp, by simpa using h⟩
      | cons next parts =>
          simp only [List.intercalate_cons_cons, List.append_assoc, List.mem_append,
            List.mem_singleton] at h
          rcases h with h | h | h
          · exact .inr ⟨part, by simp, h⟩
          · exact .inl h
          · rcases ih h with h | ⟨other, hother, hx⟩
            · exact .inl h
            · exact .inr ⟨other, List.mem_cons_of_mem part hother, hx⟩

/-- With one separator more each part has its own in front. -/
theorem cons_intercalate (part : List α) (parts : List (List α)) :
    sep :: [sep].intercalate (part :: parts) = (part :: parts).flatMap (sep :: ·) := by
  induction parts generalizing part with
  | nil => simp
  | cons next parts ih =>
      rw [List.intercalate_cons_cons, List.flatMap_cons, ← ih next]
      simp

theorem intercalate_append_cons {before : List (List α)} (nonempty : before ≠ []) (part : List α)
    (after : List (List α)) :
    [sep].intercalate (before ++ part :: after) =
      [sep].intercalate before ++ sep :: [sep].intercalate (part :: after) := by
  obtain ⟨first, others, rfl⟩ := List.exists_cons_of_ne_nil nonempty
  refine List.cons_inj_right sep |>.mp ?_
  rw [List.cons_append, cons_intercalate, ← List.cons_append, List.flatMap_append,
    ← cons_intercalate, ← cons_intercalate, List.cons_append]

theorem infix_intercalate {part : List α} {parts : List (List α)} (h : part ∈ parts) :
    part <:+: [sep].intercalate parts := by
  obtain ⟨before, after, rfl⟩ := List.append_of_mem h
  have hrest : part <:+: [sep].intercalate (part :: after) := by
    cases after with
    | nil => simp
    | cons next after =>
        rw [List.intercalate_cons_cons, List.append_assoc]
        exact (List.prefix_append part _).isInfix
  cases before with
  | nil => exact hrest
  | cons first before =>
      rw [intercalate_append_cons (List.cons_ne_nil first before)]
      exact hrest.trans (List.suffix_append_of_suffix (List.suffix_cons sep _)).isInfix

theorem filter_intercalate {p : α → Bool} (hsep : p sep = true) (parts : List (List α)) :
    ([sep].intercalate parts).filter p = [sep].intercalate (parts.map (List.filter p)) := by
  induction parts with
  | nil => rfl
  | cons part parts ih =>
      cases parts with
      | nil => simp
      | cons next parts =>
          rw [List.intercalate_cons_cons, List.filter_append, List.filter_append, ih]
          simp [List.intercalate_cons_cons, hsep]

theorem map_intercalate (f : α → β) (parts : List (List α)) :
    ([sep].intercalate parts).map f = [f sep].intercalate (parts.map (List.map f)) := by
  induction parts with
  | nil => rfl
  | cons part parts ih =>
      cases parts with
      | nil => simp
      | cons next parts =>
          rw [List.intercalate_cons_cons, List.map_append, List.map_append, ih]
          simp [List.intercalate_cons_cons]

/-- Where a separator divides what is written, the written text of joined parts divides into theirs. -/
theorem intercalate_split {ι : Type} {written : List α → List β → Prop} {token : List β}
    (split : ∀ {a b text}, written (a ++ sep :: b) text →
      ∃ x y, text = x ++ (token ++ y) ∧ written a x ∧ written b y)
    {parts : ι → List α} {items : List ι} {text : List β} (nonempty : items ≠ [])
    (h : written ([sep].intercalate (items.map parts)) text) :
    ∃ texts, List.Forall₂ (fun item x => written (parts item) x) items texts ∧
      text = token.intercalate texts := by
  induction items generalizing text with
  | nil => exact absurd rfl nonempty
  | cons item items ih =>
      cases items with
      | nil => exact ⟨[text], .cons (by simpa using h) .nil, by simp⟩
      | cons next items =>
          simp only [List.map_cons, List.intercalate_cons_cons, List.append_assoc,
            List.singleton_append] at h
          obtain ⟨x, y, rfl, hx, hy⟩ := split h
          obtain ⟨texts, hall, rfl⟩ := ih (by simp) hy
          cases hall with
          | cons hz hall =>
              exact ⟨_, .cons hx (.cons hz hall), by simp [List.intercalate_cons_cons]⟩

end LibSurvey.Text
