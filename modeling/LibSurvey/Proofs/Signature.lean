import LibSurvey.Signature
import Mathlib.Data.List.Basic

/-!
The text of a type. Every piece stands in it whole, nothing but spaces stands between the pieces, and a
piece is glued only to what cannot go on with it.
-/

namespace LibSurvey

variable {previous piece : String} {pieces : List String}

/-- A run of a class of characters without the marks of types ends where something is glued to it. -/
theorem stop_of_gluesTo {p : Char → Bool} (outside : ['(', ')', '[', ']', '*', ','].any p = false)
    (h : gluesTo previous piece = true) (hrun : ∀ c ∈ previous.toList, p c = true)
    (rest : List Char) : ∀ c ∈ (piece.toList ++ rest).head?, p c = false := by
  simp only [List.any_cons, List.any_nil, Bool.or_eq_false_iff] at outside
  obtain ⟨hopen, hclose, hsquare, hbracket, hstar, hcomma, -⟩ := outside
  have other {mark : Char} (hmark : p mark = false) : previous ≠ String.singleton mark := by
    rintro rfl
    rw [hrun mark (by simp)] at hmark
    exact Bool.noConfusion hmark
  have hround : previous ≠ "(" := other hopen
  have hfront : previous ≠ "[" := other hsquare
  have hback : previous ≠ ")" := other hclose
  have hpointer : previous ≠ "*" := other hstar
  simp only [gluesTo, hround, hfront, hback, hpointer, decide_false, Bool.or_false, Bool.and_false,
    List.contains_eq_mem, decide_eq_true_eq, List.mem_cons, List.not_mem_nil, or_false] at h
  rcases h with rfl | rfl | rfl | rfl | rfl <;> rintro c ⟨⟩ <;> assumption

theorem infix_renderAfter (h : piece ∈ pieces) (previous : String) :
    piece.toList <:+: (renderAfter previous pieces).toList := by
  induction pieces generalizing previous with
  | nil => cases h
  | cons first pieces ih =>
      rw [renderAfter, String.toList_append]
      rcases List.mem_cons.mp h with rfl | h
      · refine List.IsInfix.trans ?_ (List.prefix_append _ _).isInfix
        split
        · exact List.infix_refl _
        · rw [String.toList_append]
          exact (List.suffix_append _ _).isInfix
      · exact (ih h first).trans (List.suffix_append _ _).isInfix

/-- A piece of a type is found in one go in its text. -/
theorem infix_renderType (h : piece ∈ pieces) : piece.toList <:+: (renderType pieces).toList := by
  cases pieces with
  | nil => cases h
  | cons first pieces =>
      rw [renderType, String.toList_append]
      rcases List.mem_cons.mp h with rfl | h
      · exact (List.prefix_append _ _).isInfix
      · exact (infix_renderAfter h first).trans (List.suffix_append _ _).isInfix

theorem mem_renderType {c : Char} (h : piece ∈ pieces) (hc : c ∈ piece.toList) :
    c ∈ (renderType pieces).toList :=
  (infix_renderType h).subset hc

theorem of_mem_renderAfter {c : Char} (h : c ∈ (renderAfter previous pieces).toList) :
    c = ' ' ∨ ∃ piece ∈ pieces, c ∈ piece.toList := by
  induction pieces generalizing previous with
  | nil => cases h
  | cons first pieces ih =>
      rw [renderAfter, String.toList_append, List.mem_append] at h
      rcases h with h | h
      · split at h
        · exact .inr ⟨first, List.mem_cons_self, h⟩
        · rw [String.toList_append] at h
          rcases List.mem_append.mp h with h | h
          · exact .inl (by simpa using h)
          · exact .inr ⟨first, List.mem_cons_self, h⟩
      · obtain hspace | ⟨piece, hpiece, hc⟩ := ih h
        · exact .inl hspace
        · exact .inr ⟨piece, List.mem_cons_of_mem first hpiece, hc⟩

/-- Nothing but spaces stands between the pieces of a type. -/
theorem of_mem_renderType {c : Char} (h : c ∈ (renderType pieces).toList) :
    c = ' ' ∨ ∃ piece ∈ pieces, c ∈ piece.toList := by
  cases pieces with
  | nil => cases h
  | cons first pieces =>
      rw [renderType, String.toList_append, List.mem_append] at h
      rcases h with h | h
      · exact .inr ⟨first, List.mem_cons_self, h⟩
      · obtain hspace | ⟨piece, hpiece, hc⟩ := of_mem_renderAfter h
        · exact .inl hspace
        · exact .inr ⟨piece, List.mem_cons_of_mem first hpiece, hc⟩

end LibSurvey
