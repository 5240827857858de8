import LibSurvey.Proofs.Text.Spaced
import LibSurvey.Proofs.Text.Split
import LibSurvey.Text.Distinct

/-!
The words of a text. Tokens with blanks between them are found again as the words of the text, whatever
the blanks are, and what holds no blank stands in the text only where it stands in a token.
-/

namespace LibSurvey.Text

variable {token rest text blanks : List Char} {tokens : List (List Char)}

/-- A text in which these tokens stand in order with blanks between them, and perhaps before and after
them. -/
inductive Separated : List (List Char) → List Char → Prop where
  | nil {blanks : List Char} : Blanks blanks → Separated [] blanks
  | cons {before token rest : List Char} {tokens : List (List Char)} :
      Blanks before → (∀ c ∈ rest.head?, isBlank c = true) → Separated tokens rest →
      Separated (token :: tokens) (before ++ (token ++ rest))

theorem Separated.behind (hblanks : Blanks blanks) (h : Separated tokens text) :
    Separated tokens (blanks ++ text) := by
  cases h with
  | nil hrest => exact .nil (blanks_append hblanks hrest)
  | cons hbefore stop hrest =>
      rw [← List.append_assoc]
      exact .cons (blanks_append hblanks hbefore) stop hrest

theorem separated_intercalate {gap : List Char} (h : Blanks gap) (nonempty : gap ≠ [])
    (tokens : List (List Char)) : Separated tokens (gap.intercalate tokens) := by
  have hnone : Blanks [] := by simp [Blanks]
  induction tokens with
  | nil => exact .nil hnone
  | cons token tokens ih =>
      cases tokens with
      | nil => simpa using Separated.cons hnone (by simp) (.nil hnone)
      | cons next tokens =>
          obtain ⟨c, gap, rfl⟩ := List.exists_cons_of_ne_nil nonempty
          have hc : isBlank c = true := h c List.mem_cons_self
          rw [List.intercalate_cons_cons, List.append_assoc]
          exact .cons hnone (by simpa using hc) (ih.behind h)

theorem splitAtWith_pieces {p : Char → Bool} (current : List Char) (pieces : List (List Char))
    (text : List Char) :
    splitAtWith p current pieces text = pieces.reverse ++ splitAtWith p current [] text := by
  induction text generalizing current pieces with
  | nil => simp [splitAtWith]
  | cons c text ih =>
      rw [splitAtWith, splitAtWith]
      split
      · rw [ih, ih [] [current.reverse]]
        simp
      · exact ih (c :: current) pieces

theorem words_blanks (h : Blanks blanks) (text : List Char) : words (blanks ++ text) = words text := by
  induction blanks with
  | nil => rfl
  | cons c blanks ih =>
      rw [← ih fun d hd => h d (List.mem_cons_of_mem c hd), words, words, List.cons_append, splitAt,
        splitAtWith, if_pos (h c List.mem_cons_self), splitAtWith_pieces]
      simp [splitAt]

theorem words_token (nonempty : token ≠ []) (solid : token.any isBlank = false)
    (stop : ∀ c ∈ rest.head?, isBlank c = true) : words (token ++ rest) = token :: words rest := by
  have hfree : ∀ c ∈ token, isBlank c = false := by simpa using solid
  rw [words, splitAt, splitAtWith_append hfree]
  cases rest with
  | nil => simp [splitAtWith, words, splitAt, nonempty]
  | cons c rest =>
      have hc : isBlank c = true := stop c rfl
      have hblank : Blanks [c] := by simpa [Blanks] using hc
      have hrest : words (c :: rest) = words rest := words_blanks hblank rest
      rw [splitAtWith, if_pos hc, splitAtWith_pieces, hrest]
      simp [words, splitAt, nonempty]

/-- Tokens without blanks are the words of a text in which blanks stand between them. -/
theorem words_separated (h : Separated tokens text)
    (solid : ∀ token ∈ tokens, token ≠ [] ∧ token.any isBlank = false) : words text = tokens := by
  induction h with
  | nil hblanks => simpa [words, splitAt, splitAtWith] using words_blanks hblanks []
  | cons hbefore stop _ ih =>
      rw [List.forall_mem_cons] at solid
      rw [words_blanks hbefore, words_token solid.1.1 solid.1.2 stop, ih solid.2]

section Infix

variable {part : List Char}

theorem occursIn_iff : occursIn part text = true ↔ part <:+: text := by
  induction text with
  | nil => simp [occursIn]
  | cons c text ih =>
      rw [occursIn, Bool.or_eq_true, List.isPrefixOf_iff_prefix, ih, List.infix_cons_iff]

theorem infix_append_stop (solid : part.any isBlank = false)
    (stop : ∀ c ∈ rest.head?, isBlank c = true) :
    part <:+: token ++ rest ↔ part <:+: token ∨ part <:+: rest := by
  rw [List.infix_append_iff]
  refine ⟨?_, fun h => h.imp_right .inl⟩
  rintro (h | h | ⟨front, back, rfl, hfront, hback⟩)
  · exact .inl h
  · exact .inr h
  · -- What reaches over the end of the token would begin with a blank there.
    cases back with
    | nil => exact .inl (by simpa using hfront.isInfix)
    | cons c back =>
        obtain ⟨more, rfl⟩ := hback
        have hc : isBlank c = true := stop c rfl
        simp [hc] at solid

theorem infix_blanks_append (hblanks : Blanks blanks) (nonempty : part ≠ [])
    (solid : part.any isBlank = false) : part <:+: blanks ++ text ↔ part <:+: text := by
  induction blanks with
  | nil => rfl
  | cons c blanks ih =>
      obtain ⟨hc, hblanks⟩ := List.forall_mem_cons.mp hblanks
      rw [List.cons_append, List.infix_cons_iff, ih hblanks, or_iff_right]
      intro hfront
      obtain ⟨d, part, rfl⟩ := List.exists_cons_of_ne_nil nonempty
      obtain ⟨rfl, -⟩ := List.cons_prefix_cons.mp hfront
      simp [hc] at solid

theorem infix_separated (h : Separated tokens text) (nonempty : part ≠ [])
    (solid : part.any isBlank = false) : part <:+: text ↔ ∃ token ∈ tokens, part <:+: token := by
  induction h with
  | @nil blanks hblanks =>
      rw [← List.append_nil blanks, infix_blanks_append hblanks nonempty solid]
      simp [nonempty]
  | cons hbefore stop _ ih =>
      rw [infix_blanks_append hbefore nonempty solid, infix_append_stop solid stop, ih,
        List.exists_mem_cons_iff]

end Infix

end LibSurvey.Text
