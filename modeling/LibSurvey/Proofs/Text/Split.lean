import LibSurvey.Text.Blank
import Mathlib.Data.List.Basic

/-!
Splitting a text at its separators. The pieces hold no separator, and pieces without separators are
found again when they are joined.
-/

namespace LibSurvey.Text

variable {p : Char → Bool}

theorem splitAtWith_append {piece : List Char} (free : ∀ c ∈ piece, p c = false)
    (current : List Char) (pieces : List (List Char)) (rest : List Char) :
    splitAtWith p current pieces (piece ++ rest) =
      splitAtWith p (piece.reverse ++ current) pieces rest := by
  induction piece generalizing current with
  | nil => rfl
  | cons c piece ih =>
      have hc : p c = false := free c List.mem_cons_self
      have hfree : ∀ d ∈ piece, p d = false := fun d hd => free d (List.mem_cons_of_mem _ hd)
      rw [List.cons_append, splitAtWith, hc, if_neg Bool.false_ne_true, ih hfree]
      simp

theorem splitAtWith_intercalate {sep : Char} (hsep : p sep = true) {first : List Char}
    {others : List (List Char)} (free : ∀ piece ∈ first :: others, ∀ c ∈ piece, p c = false)
    (pieces : List (List Char)) :
    splitAtWith p [] pieces ([sep].intercalate (first :: others)) =
      pieces.reverse ++ first :: others := by
  induction others generalizing first pieces with
  | nil =>
      have h := splitAtWith_append (free first List.mem_cons_self) [] pieces []
      simpa [splitAtWith] using h
  | cons second others ih =>
      have hrest : ∀ piece ∈ second :: others, ∀ c ∈ piece, p c = false :=
        fun piece h => free piece (List.mem_cons_of_mem _ h)
      rw [List.intercalate_cons_cons, List.append_assoc,
        splitAtWith_append (free first List.mem_cons_self), List.singleton_append, splitAtWith, hsep,
        if_pos rfl, ih hrest]
      simp

/-- Pieces without a separator are found again. -/
theorem splitAt_intercalate {sep : Char} (hsep : p sep = true) {pieces : List (List Char)}
    (nonempty : pieces ≠ []) (free : ∀ piece ∈ pieces, ∀ c ∈ piece, p c = false) :
    splitAt p ([sep].intercalate pieces) = pieces := by
  cases pieces with
  | nil => exact absurd rfl nonempty
  | cons first others => exact splitAtWith_intercalate hsep free []

theorem intercalate_append_pair (sep : Char) (pieces : List (List Char)) (a b : List Char) :
    [sep].intercalate (pieces ++ [a, b]) = [sep].intercalate (pieces ++ [a ++ sep :: b]) := by
  induction pieces with
  | nil => simp [List.intercalate_cons_cons]
  | cons piece pieces ih =>
      cases pieces with
      | nil => simp [List.intercalate_cons_cons]
      | cons next pieces =>
          simp only [List.cons_append] at ih
          simp only [List.cons_append, List.intercalate_cons_cons, ih]

theorem intercalate_splitAtWith (sep : Char) (current : List Char) (pieces : List (List Char))
    (text : List Char) :
    [sep].intercalate (splitAtWith (· = sep) current pieces text) =
      [sep].intercalate (pieces.reverse ++ [current.reverse ++ text]) := by
  induction text generalizing current pieces with
  | nil => simp [splitAtWith]
  | cons c text ih =>
      rw [splitAtWith]
      split
      · rename_i hc
        obtain rfl : c = sep := by simpa using hc
        rw [ih, ← intercalate_append_pair]
        simp
      · rw [ih]
        simp

/-- The pieces make up the text again. -/
theorem intercalate_splitAt (sep : Char) (text : List Char) :
    [sep].intercalate (splitAt (· = sep) text) = text := by
  rw [splitAt, intercalate_splitAtWith]
  simp

theorem mem_splitAtWith {current : List Char} {pieces : List (List Char)} {text : List Char}
    (hcurrent : ∀ c ∈ current, p c = false) (hpieces : ∀ piece ∈ pieces, ∀ c ∈ piece, p c = false) :
    ∀ piece ∈ splitAtWith p current pieces text, ∀ c ∈ piece, p c = false := by
  induction text generalizing current pieces with
  | nil =>
      intro piece hpiece
      rw [splitAtWith, List.mem_reverse, List.mem_cons] at hpiece
      rcases hpiece with rfl | hpiece
      · simpa using hcurrent
      · exact hpieces piece hpiece
  | cons c text ih =>
      rw [splitAtWith]
      split
      · refine ih (by simp) ?_
        intro piece hpiece
        rcases List.mem_cons.mp hpiece with rfl | hpiece
        · simpa using hcurrent
        · exact hpieces piece hpiece
      · refine ih ?_ hpieces
        intro d hd
        rcases List.mem_cons.mp hd with rfl | hd
        · simpa using ‹¬p _ = true›
        · exact hcurrent d hd

/-- No piece holds a separator. -/
theorem mem_splitAt {text piece : List Char} (h : piece ∈ splitAt p text) :
    ∀ c ∈ piece, p c = false :=
  mem_splitAtWith (by simp) (by simp) piece h

theorem splitAt_append {sep : Char} {piece : List Char} (free : sep ∉ piece) (rest : List Char) :
    splitAt (· = sep) (piece ++ sep :: rest) = piece :: splitAt (· = sep) rest := by
  have hrest := intercalate_splitAt sep rest
  have hpieces : ∀ part ∈ piece :: splitAt (· = sep) rest, ∀ c ∈ part, decide (c = sep) = false :=
    List.forall_mem_cons.mpr
      ⟨fun c hc => decide_eq_false fun heq => free (heq ▸ hc), fun _ => mem_splitAt⟩
  have hjoined : [sep].intercalate (piece :: splitAt (· = sep) rest) = piece ++ sep :: rest := by
    cases hsplit : splitAt (· = sep) rest with
    | nil =>
        obtain rfl : rest = [] := by simpa [hsplit] using hrest.symm
        cases hsplit
    | cons next others =>
        rw [List.intercalate_cons_cons, ← hsplit, hrest]
        simp
  rw [← hjoined, splitAt_intercalate (by simp) (by simp) hpieces]

theorem splitAt_free {sep : Char} {piece : List Char} (free : sep ∉ piece) :
    splitAt (· = sep) piece = [piece] := by
  have h := splitAt_intercalate (p := (· = sep)) (decide_eq_true rfl) (List.cons_ne_nil piece [])
    (List.forall_mem_singleton.mpr fun c hc => decide_eq_false fun heq => free (heq ▸ hc))
  simpa using h

end LibSurvey.Text
