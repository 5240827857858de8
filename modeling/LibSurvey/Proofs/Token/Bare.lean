import LibSurvey.Proofs.Token.Shares

/-!
Pieces without their comments. A comment leaves only blanks, so the tokens stand as well where the
comments were, and any text that is the same but for its blanks is cut into the same tokens.
-/

namespace LibSurvey

namespace Text

variable {s a b : List Char}

/-- A front without blanks is a front of both texts. -/
theorem Reflow.append_solid (solid : ∀ c ∈ s, isBlank c = false) (h : Reflow (s ++ a) b) :
    ∃ b', b = s ++ b' ∧ Reflow a b' := by
  induction s generalizing b with
  | nil => exact ⟨b, rfl, h⟩
  | cons c s ih =>
      obtain ⟨hc, hs⟩ := List.forall_mem_cons.mp solid
      obtain ⟨b, rfl, hafter⟩ := h.cons_solid hc
      obtain ⟨b', rfl, hrest⟩ := ih hs hafter
      exact ⟨b', rfl, hrest⟩

end Text

namespace Token
open Text (Blanks Reflow Shares)

namespace Piece

/-- A blank, a comment, or a token that is no literal and has no character that may join two lines
or begin a directive. -/
def IsSimple : Piece → Prop
  | .blank _ | .lineComment _ | .blockComment _ => True
  | .token kind text => kind ≠ .string ∧ kind ≠ .character ∧ '#' ∉ text ∧ '\\' ∉ text
  | _ => False

/-- What is left of a piece without comments. -/
def bare : Piece → List Char
  | .lineComment _ => []
  | .blockComment text => text.filter (· = '\n') ++ [' ']
  | piece => piece.source

end Piece

variable {start : Bool} {rest : List Char} {kind : Kind} {text : List Char} {pieces : List Piece}

theorem Stands.solid (h : Stands start kind text rest) (hstring : kind ≠ .string)
    (hcharacter : kind ≠ .character) : ∀ c ∈ text, Text.isBlank c = false := by
  cases h with
  | word hname _ => exact fun c hc => isBlank_of_isNameChar (isNameChar_of_isName hname hc)
  | number hnumber _ =>
      exact fun c hc => isBlank_of_isNumberChar (isNumberChar_of_isNumber hnumber hc)
  | string _ => exact absurd rfl hstring
  | character _ => exact absurd rfl hcharacter
  | @mark c rest hmark =>
      have others : ∀ d ∈ ['.', '#', '<', '>', ':'], Text.isBlank d = false := by
        simp [Text.isBlank]
      intro d hd
      rcases (punct_parts c rest).2 d hd with rfl | hd
      · exact hmark.solid
      · exact others d hd

theorem Piece.blanks_bare {piece : Piece} (simple : piece.IsSimple) (gap : piece.lexeme? = none)
    (formed : piece.Formed start rest) : Blanks piece.bare := by
  cases piece with
  | blank c => exact List.forall_mem_singleton.mpr formed
  | lineComment text => simp [bare, Blanks]
  | blockComment text =>
      refine Text.blanks_append (fun c hc => ?_) (by simp [Blanks, Text.isBlank])
      obtain rfl : c = '\n' := by simpa using List.of_mem_filter hc
      decide
  | token kind text => cases gap
  | joined | directive => exact simple.elim

/-- Where comments were, the text has a blank, or it goes on with one after a line comment. -/
theorem shares_bare (cut : Cut [] start pieces) (simple : ∀ piece ∈ pieces, piece.IsSimple) :
    Shares (pieces.flatMap Piece.source) (pieces.flatMap Piece.bare) := by
  induction cut with
  | nil => exact Text.shares_refl []
  | @cons start piece pieces formed _ ih =>
      obtain ⟨hpiece, hpieces⟩ := List.forall_mem_cons.mp simple
      rw [List.flatMap_cons, List.flatMap_cons]
      cases piece with
      | blank c => exact (ih hpieces).append [c]
      | token kind text => exact (ih hpieces).append text
      | lineComment text =>
          rw [Piece.bare, List.nil_append]
          refine Text.shares_blank (fun c hc => ?_) _
          by_contra hsolid
          have hhead := (ih hpieces).head? (Bool.not_eq_true _ ▸ hsolid) hc
          rw [List.append_nil] at formed
          rw [formed.2 c hhead] at hsolid
          exact hsolid rfl
      | blockComment text =>
          refine Text.shares_blank (fun c hc => ?_) _
          have hbare : Blanks (Piece.blockComment text).bare := Piece.blanks_bare hpiece rfl formed
          rw [List.head?_append_of_ne_nil _ (by simp [Piece.bare])] at hc
          exact hbare c (List.mem_of_mem_head? hc)
      | joined | directive => exact hpiece.elim

theorem Cut.blanks_append {blanks : List Char} (h : Blanks blanks)
    (cut : ∀ start, Cut rest start pieces) (start : Bool) :
    Cut rest start (blanks.map Piece.blank ++ pieces) := by
  induction blanks generalizing start with
  | nil => exact cut start
  | cons c blanks ih =>
      obtain ⟨hc, hblanks⟩ := List.forall_mem_cons.mp h
      exact .cons hc (ih hblanks _)

theorem source_blanks (blanks : List Char) :
    (blanks.map Piece.blank).flatMap Piece.source = blanks := by
  rw [List.flatMap_map]
  exact List.flatMap_singleton' blanks

theorem lexemes_blanks (blanks : List Char) :
    (blanks.map Piece.blank).filterMap Piece.lexeme? = [] := by
  rw [List.filterMap_map, List.filterMap_eq_nil_iff]
  exact fun _ _ => rfl

/-- A text that is what the comments leave, but for its blanks, is cut into the same tokens. -/
theorem cut_reflow (cut : Cut [] start pieces) (simple : ∀ piece ∈ pieces, piece.IsSimple)
    {text : List Char} (h : Reflow (Text.trim (pieces.flatMap Piece.bare)) (Text.trim text)) :
    ∃ others, others.flatMap Piece.source = text ∧ (∀ start, Cut [] start others) ∧
      others.filterMap Piece.lexeme? = pieces.filterMap Piece.lexeme? := by
  induction cut generalizing text with
  | nil =>
      have hblanks : Blanks text := Text.blanks_of_trim (h.eq_nil_iff.mp rfl)
      refine ⟨text.map .blank, source_blanks text, fun start => ?_, lexemes_blanks text⟩
      have hcut : Cut [] start (text.map Piece.blank ++ []) :=
        Cut.blanks_append hblanks (fun _ => .nil) start
      rwa [List.append_nil] at hcut
  | @cons start piece pieces formed later ih =>
      obtain ⟨hpiece, hpieces⟩ := List.forall_mem_cons.mp simple
      rw [List.flatMap_cons] at h
      by_cases gap : piece.lexeme? = none
      · -- the other text may have any blanks here, and they stand before its next token
        rw [Text.trim_blanks_append (Piece.blanks_bare hpiece gap formed)] at h
        obtain ⟨others, hsource, hcut, hlexemes⟩ := ih hpieces h
        exact ⟨others, hsource, hcut, by rw [hlexemes, List.filterMap_cons_none gap]⟩
      cases piece with
      | token kind token =>
          obtain ⟨hstring, hcharacter, noHash, noBackslash⟩ := hpiece
          have stands : Stands start kind token (pieces.flatMap Piece.source ++ []) := formed
          rw [List.append_nil] at stands
          have solid := stands.solid hstring hcharacter
          have tight : Text.Tight token :=
            Text.tight_of_solid (Piece.Formed.source_ne_nil formed) (by simpa using solid)
          have hfront : Text.trim (token ++ pieces.flatMap Piece.bare) =
              token ++ Text.trimRight (pieces.flatMap Piece.bare) := by
            rw [Text.trim, Text.trimLeft_tight_append tight]
            exact Text.trimRight_append tight [] _
          have hbare : (Piece.token kind token).bare = token := rfl
          rw [hbare, hfront] at h
          obtain ⟨more, htrim, hmore⟩ := h.append_solid solid
          obtain ⟨before, after, hbefore, hafter, htext⟩ := Text.exists_trim text
          rw [htrim, List.append_assoc] at htext
          -- behind the token the texts are the same again, once the blanks there are trimmed
          have hrest :
              Reflow (Text.trim (pieces.flatMap Piece.bare)) (Text.trim (more ++ after)) := by
            rw [Text.trim_append_blanks more hafter, ← Text.trim_trimRight]
            exact hmore.trim
          obtain ⟨others, hsource, hcut, hlexemes⟩ := ih hpieces hrest
          have shares : Shares (pieces.flatMap Piece.source) (more ++ after) :=
            ((shares_bare later hpieces).trans (Text.shares_reflow hmore).of_trimRight).trans
              (Text.shares_append_blanks more hafter)
          have hcut (start : Bool) : Cut [] start (.token kind token :: others) := by
            refine .cons ?_ (hcut _)
            rw [List.append_nil, hsource]
            exact stands.shares shares noHash noBackslash
          refine ⟨before.map .blank ++ .token kind token :: others, ?_,
            Cut.blanks_append hbefore hcut, ?_⟩
          · rw [List.flatMap_append, source_blanks, List.flatMap_cons, hsource, htext]
            rfl
          · rw [List.filterMap_append, lexemes_blanks, List.nil_append, List.filterMap_cons,
              List.filterMap_cons, hlexemes]
      | blank | lineComment | blockComment => exact absurd rfl gap
      | joined | directive => exact hpiece.elim

end Token
end LibSurvey
