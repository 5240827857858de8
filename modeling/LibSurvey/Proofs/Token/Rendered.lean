import LibSurvey.Proofs.Signature
import LibSurvey.Proofs.Text.Utf8
import LibSurvey.Proofs.Token.Written

/-!
The text of a type read back. Where two of its pieces stand without a space, the second cannot go on
with the first, so that the text of a type is written text of its pieces. A written text is made of
one list of lexemes only; so reading gives back the pieces of a type, and no other pieces have its
text. Which pieces make up a type remains a separate obligation.
-/

namespace LibSurvey

namespace Lexeme

variable {pieces : List Lexeme} {text : List Char}

theorem ends_of_gluesTo {previous piece : Lexeme} (formed : previous.Formed)
    (h : gluesTo previous.text piece.text = true) (rest : List Char) :
    previous.Ends (piece.text.toList ++ rest) := by
  cases formed with
  | word hname => exact stop_of_gluesTo (by decide) h (fun c => isNameChar_of_isName hname) rest
  | number hnumber =>
      exact stop_of_gluesTo (by decide) h (fun c => Token.isNumberChar_of_isNumber hnumber) rest
  | mark _ => trivial

theorem written_renderAfter {previous : Lexeme} (hprevious : previous.Formed)
    (formed : ∀ piece ∈ pieces, piece.Formed) :
    Written pieces (renderAfter previous.text (pieces.map Lexeme.text)).toList ∧
      previous.Ends (renderAfter previous.text (pieces.map Lexeme.text)).toList := by
  induction pieces generalizing previous with
  | nil => exact ⟨written_nil, ends_of_stops stops_nil previous⟩
  | cons piece pieces ih =>
      obtain ⟨hpiece, hpieces⟩ := List.forall_mem_cons.mp formed
      obtain ⟨hrest, hends⟩ := ih hpiece hpieces
      have hwritten := written_one hpiece hends hrest
      rw [List.map_cons, renderAfter, String.toList_append]
      split
      · rename_i hglue
        exact ⟨hwritten, ends_of_gluesTo hprevious hglue _⟩
      · rw [String.toList_append, List.append_assoc]
        exact ⟨written_gap gap_space hwritten, ends_of_stops (stops_cons (by decide) _) previous⟩

/-- The text of a type is made of its pieces. -/
theorem written_renderType (formed : ∀ piece ∈ pieces, piece.Formed) :
    Written pieces (renderType (pieces.map Lexeme.text)).toList := by
  cases pieces with
  | nil => exact written_nil
  | cons piece pieces =>
      obtain ⟨hpiece, hpieces⟩ := List.forall_mem_cons.mp formed
      obtain ⟨hrest, hends⟩ := written_renderAfter hpiece hpieces
      rw [List.map_cons, renderType, String.toList_append]
      exact written_one hpiece hends hrest

/-- Only one lexeme that ends there stands in front of a text. -/
theorem eq_of_append_eq {a b : Lexeme} {x y : List Char} (ha : a.Formed) (hx : a.Ends x)
    (hb : b.Formed) (hy : b.Ends y) (h : a.text.toList ++ x = b.text.toList ++ y) :
    a = b ∧ x = y := by
  obtain ⟨c, more, htext, hfront⟩ := Token.front?_lexeme ha hx true 1
  obtain ⟨d, others, hother, hread⟩ := Token.front?_lexeme hb hy true 1
  rw [htext, hother, List.cons_append, List.cons_append] at h
  obtain ⟨rfl, hrest⟩ := List.cons.inj h
  rw [hrest, hread] at hfront
  simp only [Except.ok.injEq, Prod.mk.injEq, Token.Front.token.injEq, and_true,
    String.toList_inj] at hfront
  obtain ⟨⟨hkind, hsame⟩, hafter⟩ := hfront
  cases a
  cases b
  exact ⟨(Lexeme.mk.injEq ..).mpr ⟨hkind.symm, hsame.symm⟩, hafter.symm⟩

theorem eq_nil_of_gap {lexemes : List Lexeme} (hgap : Gap text) (h : Written lexemes text) :
    lexemes = [] := by
  cases lexemes with
  | nil => rfl
  | cons lexeme lexemes =>
      obtain ⟨rest, htrim, formed, -⟩ := trimLeft_written h
      rw [Text.trimLeft_blanks (blanks_of_gap hgap)] at htrim
      exact absurd (List.append_eq_nil_iff.mp htrim.symm).1 (tight_of_formed formed).nonempty

/-- A text is made of one list of lexemes only. -/
theorem written_unique {a b : List Lexeme} (ha : Written a text) (hb : Written b text) : a = b := by
  induction a generalizing b text with
  | nil =>
      cases ha with
      | nil hgap => exact (eq_nil_of_gap hgap hb).symm
  | cons first a ih =>
      cases b with
      | nil =>
          cases hb with
          | nil hgap => exact eq_nil_of_gap hgap ha
      | cons second b =>
          obtain ⟨x, hfirst, formed, ends, hx⟩ := trimLeft_written ha
          obtain ⟨y, hsecond, formed', ends', hy⟩ := trimLeft_written hb
          obtain ⟨rfl, rfl⟩ := eq_of_append_eq formed ends formed' ends' (hfirst.symm.trans hsecond)
          rw [ih hx hy]

theorem Formed.not_directive {lexeme : Lexeme} (formed : lexeme.Formed) :
    lexeme.kind ≠ .directive := by
  cases formed <;> exact Token.Kind.noConfusion

end Lexeme

/-- The pieces of a type, which are names, numbers such as those of digits, and marks, are read back from
its text as tokens in their order, so that rendering what was read gives the text again. No other pieces
are rendered as this text. -/
theorem Token.ofBytes?_renderType {pieces : List Lexeme} (formed : ∀ piece ∈ pieces, piece.Formed)
    (room : pieces.length ≤ limit) :
    (∃ tokens, ofBytes? (Text.Utf8.encode (renderType (pieces.map Lexeme.text)).toList) = .ok tokens ∧
      tokens = pieces.map (·.onLine 1) ∧ (∀ token ∈ tokens, token.kind ≠ .directive) ∧
      renderType (tokens.map Token.text) = renderType (pieces.map Lexeme.text)) ∧
    ∀ others : List Lexeme, (∀ piece ∈ others, piece.Formed) →
      renderType (others.map Lexeme.text) = renderType (pieces.map Lexeme.text) →
      others = pieces := by
  have hwritten := Lexeme.written_renderType formed
  refine ⟨⟨pieces.map (·.onLine 1), ?_, rfl, ?_, ?_⟩, fun others hothers hsame => ?_⟩
  · have hline := ofChars?_lines (.cons (reads_written hwritten) .nil) (by simpa using room)
    rw [ofBytes?, Text.Utf8.decode?_encode]
    simpa [numbered] using hline
  · intro token htoken
    obtain ⟨piece, hpiece, rfl⟩ := List.mem_map.mp htoken
    exact (formed piece hpiece).not_directive
  · rw [List.map_map]
    rfl
  · have hother := Lexeme.written_renderType hothers
    rw [hsame] at hother
    exact Lexeme.written_unique hother hwritten

/-- Marks glued to both sides, and an array next to an ellipsis. -/
theorem Token.ofBytes?_renderType_callback :
    (∃ tokens, ofBytes? (Text.Utf8.encode "void (*)(char*, int[16], ...)".toList) = .ok tokens ∧
      tokens.map Token.text = ["void", "(", "*", ")", "(", "char", "*", ",", "int", "[", "16", "]",
        ",", "...", ")"]) ∧
    ∀ others : List Lexeme, (∀ piece ∈ others, piece.Formed) →
      renderType (others.map Lexeme.text) = "void (*)(char*, int[16], ...)" →
      others.map Lexeme.text = ["void", "(", "*", ")", "(", "char", "*", ",", "int", "[", "16", "]",
        ",", "...", ")"] := by
  let pieces : List Lexeme := [.word "void", .mark "(", .mark "*", .mark ")", .mark "(",
    .word "char", .mark "*", .mark ",", .word "int", .mark "[", .number "16", .mark "]", .mark ",",
    .mark "...", .mark ")"]
  have formed : ∀ piece ∈ pieces, piece.Formed := by
    have word {text : String} (h : isName text.toList = true) := Lexeme.Formed.word h
    have mark {text : String} (h : text ∈ Lexeme.marks) := Lexeme.Formed.mark h
    simp only [pieces, List.forall_mem_cons]
    refine ⟨word ?_, mark ?_, mark ?_, mark ?_, mark ?_, word ?_, mark ?_, mark ?_, word ?_, mark ?_,
      .number ?_, mark ?_, mark ?_, mark ?_, mark ?_, by simp⟩ <;> decide
  obtain ⟨⟨tokens, hread, rfl, -⟩, only⟩ := ofBytes?_renderType formed (by decide)
  refine ⟨⟨_, hread, rfl⟩, fun others hothers hsame => ?_⟩
  rw [only others hothers hsame]
  rfl

end LibSurvey
