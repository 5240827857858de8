import LibSurvey.Header.Declarations
import LibSurvey.Header.Findings
import LibSurvey.Proofs.Constant.Alike
import LibSurvey.Proofs.Token.Cut

/-!
An expression and its tokens with single spaces between them. Wherever the lexer ends a token a blank
may stand, so the two texts are alike and have one value.
-/

namespace LibSurvey.Expression
open Text (Blanks)
open Token (Cut Kind Piece Stands lexeme_placed placed)

/-- A mark is as long as it can be, so no half of a shift is left for what follows it. -/
theorem joint_punct {c : Char} {rest : List Char} (hname : isNameChar c = false) :
    Joint (Token.punct c rest).1 (Token.punct c rest).2 := by
  refine ⟨fun d hd e _ h => ?_, ?_⟩
  · rw [Token.isNameChar_of_mem_punct hname rest d (List.mem_of_getLast? hd)] at h
    cases h
  have other {d : Char} {p : Prop} (hd : d ≠ '<' ∧ d ≠ '>') (h : d = '<' ∨ d = '>') : p :=
    absurd h (not_or.mpr hd)
  unfold Token.punct
  split
  · rintro d ⟨⟩ _ h
    exact other (by decide) h
  · rintro d ⟨⟩ _ h
    exact other (by decide) h
  · rintro d ⟨⟩ _ _
    exact .inl List.suffix_rfl
  · rintro d ⟨⟩ _ _
    exact .inl List.suffix_rfl
  · rintro d ⟨⟩ _ _
    exact .inr ⟨rfl, List.suffix_rfl⟩
  · rintro d ⟨⟩ _ h
    exact other (by decide) h
  · rename_i hleft hright _ _
    rintro d ⟨⟩ hhead h
    obtain ⟨more, rfl⟩ := List.head?_eq_some_iff.mp hhead
    rcases h with rfl | rfl
    · exact absurd rfl (hleft more rfl)
    · exact absurd rfl (hright more rfl)

/-- A token ends at a joint. -/
theorem joint_of_stands {start : Bool} {kind : Kind} {text rest : List Char}
    (h : Stands start kind text rest) : Joint text rest := by
  have literal {quote : Char} (hquote : isNameChar quote = false ∧ quote ≠ '<' ∧ quote ≠ '>')
      (h : Lexeme.IsLiteral quote text) : Joint text rest := by
    obtain ⟨body, -, rfl⟩ := h
    have hlast : (quote :: (body ++ [quote])).getLast? = some quote := by
      rw [← List.cons_append, List.getLast?_concat]
    constructor
    · rw [hlast]
      rintro c ⟨⟩ d _ hname
      rw [hquote.1] at hname
      cases hname
    · rw [hlast]
      rintro c ⟨⟩ _ hshift
      exact absurd hshift (not_or.mpr hquote.2)
  cases h with
  | word hname ends =>
      refine ⟨fun c _ d hd _ => ends d hd, fun c hc _ hshift => ?_⟩
      have hchar := isNameChar_of_isName hname (List.mem_of_getLast? hc)
      rcases hshift with rfl | rfl <;> exact absurd hchar (by decide)
  | number hnumber ends =>
      refine ⟨fun c _ d hd _ => ?_, fun c hc _ hshift => ?_⟩
      · exact Lexeme.isNameChar_of_not_isNumberChar (ends d hd)
      · have hchar := Token.isNumberChar_of_isNumber hnumber (List.mem_of_getLast? hc)
        rcases hshift with rfl | rfl <;> exact absurd hchar (by decide)
  | string hliteral => exact literal (by decide) hliteral
  | character hliteral => exact literal (by decide) hliteral
  | @mark c rest hmark =>
      exact joint_punct (@Token.isNameChar_of_begins_nothing c rest (by simp [hmark.unnamed])
        (by simp [hmark.unnumbered]))

section Blank

variable {v w : Char} (hv : Text.isBlank v = true) (hw : Text.isBlank w = true) (s t : List Char)
include hv

theorem joint_blank_left : Joint (s ++ [v]) t := by
  constructor
  · rintro c hc d _ hname
    obtain rfl : v = c := by simpa using hc
    rw [isBlank_of_isNameChar hname] at hv
    cases hv
  · rintro c hc _ hshift
    obtain rfl : v = c := by simpa using hc
    rcases hshift with rfl | rfl <;> exact absurd hv (by decide)

theorem joint_blank_right : Joint s (v :: t) := by
  constructor
  · rintro c _ d ⟨⟩ _
    exact Bool.eq_false_iff.mpr fun hname => by
      rw [isBlank_of_isNameChar hname] at hv
      cases hv
  · rintro c _ ⟨⟩ hshift
    rcases hshift with rfl | rfl <;> exact absurd hv (by decide)

include hw

/-- One blank is as good as two. -/
theorem alike_doubled : Alike (s ++ v :: t) (s ++ w :: v :: t) :=
  (Widened.blank hw (joint_blank_right hv s t)).alike

/-- One blank is as good as another. -/
theorem alike_blank : Alike (s ++ v :: t) (s ++ w :: t) := by
  have hwider := Widened.blank hv (joint_blank_left hw s t)
  rw [List.append_assoc, List.append_assoc] at hwider
  exact (alike_doubled hv hw s t).trans hwider.alike.symm

end Blank

/-- The tokens of pieces with a space before each. -/
def laidOut (pieces : List Piece) : List Char :=
  (pieces.filterMap Piece.lexeme?).flatMap fun lexeme => ' ' :: lexeme.text.toList

/-- A blank or a token other than a directive. -/
def IsPlain : Piece → Prop
  | .blank _ => True
  | .token _ _ => True
  | _ => False

/-- Pieces that follow a text are alike to their tokens, if they follow at a joint or after a blank. -/
theorem alike_laidOut {start : Bool} {pieces : List Piece} (cut : Cut [] start pieces)
    (plain : ∀ piece ∈ pieces, IsPlain piece) (before : List Char) :
    (Joint before (pieces.flatMap Piece.source) →
      Alike (before ++ pieces.flatMap Piece.source) (before ++ laidOut pieces)) ∧
    ∀ w, Text.isBlank w = true →
      Alike (before ++ w :: pieces.flatMap Piece.source) (before ++ laidOut pieces) := by
  have hspace : Text.isBlank ' ' = true := by decide
  induction cut generalizing before with
  | nil =>
      refine ⟨fun _ => alike_refl _, fun w hw => ?_⟩
      exact (Widened.blank hw (joint_nil_right before)).alike.symm
  | @cons start piece pieces formed _ ih =>
      obtain ⟨hpiece, hpieces⟩ := List.forall_mem_cons.mp plain
      rw [List.append_nil] at formed
      cases piece with
      | blank c =>
          have hc : Text.isBlank c = true := formed
          have hafter := (ih hpieces before).2 c hc
          refine ⟨fun _ => hafter, fun w hw => ?_⟩
          exact (alike_doubled hc hw before _).symm.trans hafter
      | token kind text =>
          have hafter : Alike (before ++ ' ' :: (text ++ pieces.flatMap Piece.source))
              (before ++ laidOut (.token kind text :: pieces)) := by
            have hjoint : Joint (before ++ ' ' :: text) (pieces.flatMap Piece.source) := by
              by_cases hend : pieces.flatMap Piece.source = []
              · rw [hend]
                exact joint_nil_right _
              · have hwhole := (joint_of_stands formed).context (Piece.Formed.source_ne_nil formed)
                  hend (before ++ [' ']) []
                simpa using hwhole
            simpa [laidOut, Piece.lexeme?] using (ih hpieces (before ++ ' ' :: text)).1 hjoint
          refine ⟨fun joint => (Widened.blank hspace joint).alike.trans hafter, fun w hw => ?_⟩
          exact (alike_blank hw hspace before _).trans hafter
      | joined => exact hpiece.elim
      | lineComment _ => exact hpiece.elim
      | blockComment _ => exact hpiece.elim
      | directive _ => exact hpiece.elim

/-- A text with no comment, backslash or directive in it is blanks and tokens. -/
theorem isPlain_of_text {before : List Char} {pieces : List Piece}
    (noDirective : ∀ token ∈ placed before pieces, token.kind ≠ .directive)
    (noLine : ¬['/', '/'] <:+: pieces.flatMap Piece.source)
    (noBlock : ¬['/', '*'] <:+: pieces.flatMap Piece.source)
    (noBackslash : '\\' ∉ pieces.flatMap Piece.source) : ∀ piece ∈ pieces, IsPlain piece := by
  intro piece hpiece
  have hpart : piece.source <:+: pieces.flatMap Piece.source := by
    obtain ⟨front, after, rfl⟩ := List.append_of_mem hpiece
    exact ⟨front.flatMap Piece.source, after.flatMap Piece.source, by simp⟩
  cases piece with
  | blank c => trivial
  | token kind text => trivial
  | joined => exact noBackslash (hpart.subset (by simp [Piece.source]))
  | lineComment text => exact noLine (List.IsInfix.trans ⟨[], text, rfl⟩ hpart)
  | blockComment text => exact noBlock (List.IsInfix.trans ⟨[], text ++ ['*', '/'], rfl⟩ hpart)
  | directive parts =>
      have hlexeme : _ ∈ pieces.filterMap Piece.lexeme? := List.mem_filterMap.mpr ⟨_, hpiece, rfl⟩
      rw [← lexeme_placed before] at hlexeme
      obtain ⟨token, htoken, hkind⟩ := List.mem_map.mp hlexeme
      exact noDirective token htoken (congrArg Lexeme.kind hkind)

/-- The texts of tokens with single spaces between them. -/
def joined (tokens : List Token) : String :=
  " ".intercalate (tokens.map (·.text))

theorem toList_joined (tokens : List Token) :
    (joined tokens).toList = [' '].intercalate (tokens.map fun token => token.text.toList) := by
  simp [joined, String.toList_intercalate, Function.comp_def]

/-- A space in front of the joined texts is blank. -/
theorem alike_intercalate (texts : List (List Char)) :
    Alike (texts.flatMap (' ' :: ·)) ([' '].intercalate texts) := by
  cases texts with
  | nil => exact alike_refl []
  | cons text texts =>
      rw [← Text.cons_intercalate]
      exact (Widened.blank (by decide) (joint_nil_left _)).alike.symm

/-- What the lexer reads as tokens is alike to the tokens. -/
theorem alike_of_ofChars? {text : List Char} {tokens : List Token}
    (read : Token.ofChars? text = .ok tokens)
    (noDirective : ∀ token ∈ tokens, token.kind ≠ .directive)
    (noLine : ¬['/', '/'] <:+: text) (noBlock : ¬['/', '*'] <:+: text) (noBackslash : '\\' ∉ text) :
    Alike text (joined tokens).toList := by
  have houtcome := Token.ofChars?_outcome text
  rw [read] at houtcome
  cases houtcome with
  | @read pieces htext hcut _ =>
      subst htext
      have hplain := isPlain_of_text noDirective noLine noBlock noBackslash
      have hlaid := (alike_laidOut hcut hplain []).1 (joint_nil_left _)
      refine Alike.trans hlaid ?_
      have hjoined := alike_intercalate ((placed [] pieces).map fun token => token.text.toList)
      rw [laidOut, ← lexeme_placed [], List.nil_append, List.flatMap_map, toList_joined]
      rwa [List.flatMap_map] at hjoined

theorem toOption_evaluate (constants : ConstantSet) (macros : MacroSet) (expression : String) :
    (evaluate constants macros expression).toOption =
      value? constants macros (maxDepth + 1) expression.toList := by
  unfold evaluate
  cases value? constants macros (maxDepth + 1) expression.toList <;> rfl

/-- An expression has one value, written in a `define` or in an enumeration. The tokens of an
enumerator are evaluated with single spaces between them, the text of a `define` as it stands; either
both fail, or both give the value that the name is then known by. -/
theorem evaluate_joined {text : String} {tokens : List Token}
    (read : Token.ofChars? text.toList = .ok tokens)
    (noDirective : ∀ token ∈ tokens, token.kind ≠ .directive)
    (noLine : ¬['/', '/'] <:+: text.toList) (noBlock : ¬['/', '*'] <:+: text.toList)
    (noBackslash : '\\' ∉ text.toList) :
    (∀ name equals : Token, name.kind = .word → equals.isPunct "=" = true →
      Declarations.enumerator? (name :: equals :: tokens) =
        some ⟨name.text, some (joined tokens)⟩) ∧
    (∀ (constants : ConstantSet) (macros : MacroSet),
      (evaluate constants macros (joined tokens)).toOption =
        (evaluate constants macros text).toOption) ∧
    ∀ (findings : Findings) (name : String),
      (findings.applyOne (.enumeration [⟨name, some (joined tokens)⟩])).signatures =
        (findings.applyOne (.constant name text)).signatures := by
  have halike := alike_of_ofChars? read noDirective noLine noBlock noBackslash
  have hvalue (constants : ConstantSet) (macros : MacroSet) :
      (evaluate constants macros (joined tokens)).toOption =
        (evaluate constants macros text).toOption := by
    rw [toOption_evaluate, toOption_evaluate]
    exact (value?_alike constants macros _ halike).symm
  refine ⟨fun name equals word equal => ?_, hvalue, fun findings name => ?_⟩
  · simp [Declarations.enumerator?, word, equal, joined]
  · have hsame := hvalue findings.signatures.constants findings.signatures.macros
    simp only [Findings.applyOne, Findings.enumerate, Findings.evaluate, SignatureSet.evaluate]
    generalize evaluate findings.signatures.constants findings.signatures.macros (joined tokens) = x
      at hsame ⊢
    generalize evaluate findings.signatures.constants findings.signatures.macros text = y
      at hsame ⊢
    cases x <;> cases y <;> simp_all [Except.toOption, Findings.define, Findings.note]

/-- A call without spaces in its arguments, and shifts. -/
theorem evaluate_joined_call :
    let text := "(F(2,A)<<A)|\t1ul"
    let tokens : List Token :=
      [⟨.punctuation, "(", 1⟩, ⟨.word, "F", 1⟩, ⟨.punctuation, "(", 1⟩, ⟨.number, "2", 1⟩,
        ⟨.punctuation, ",", 1⟩, ⟨.word, "A", 1⟩, ⟨.punctuation, ")", 1⟩, ⟨.punctuation, "<<", 1⟩,
        ⟨.word, "A", 1⟩, ⟨.punctuation, ")", 1⟩, ⟨.punctuation, "|", 1⟩, ⟨.number, "1ul", 1⟩]
    let constants : ConstantSet := (∅ : ConstantSet).insert "A" 1
    let macros : MacroSet := (∅ : MacroSet).insert "F" ⟨["x", "y"], "(x | y)"⟩
    Token.ofChars? text.toList = .ok tokens ∧
      joined tokens = "( F ( 2 , A ) << A ) | 1ul" ∧
      evaluate constants macros text = .ok 7 ∧
      (evaluate constants macros (joined tokens)).toOption = some 7 := by
  intro text tokens constants macros
  have read : Token.ofChars? text.toList = .ok tokens := by decide +kernel
  have written : evaluate constants macros text = .ok 7 := by decide +kernel
  have same := (evaluate_joined read (by decide) (by decide +kernel) (by decide +kernel)
    (by decide +kernel)).2.1 constants macros
  rw [written] at same
  exact ⟨read, by decide +kernel, written, same⟩

end LibSurvey.Expression
