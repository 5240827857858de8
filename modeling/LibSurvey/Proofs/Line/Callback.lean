import LibSurvey.Proofs.Line.Listing

/-!
Callbacks read from a line. There the name is looked for behind the first parenthesis up to the end of
the parameter, arguments included, and an ellipsis is three pieces, so a callback is read as what it
is spelled as where its arguments give no occasion for either.
-/

namespace LibSurvey

namespace Spelling

/-- A callback that is read alike by tokens and from its line: none of its marks is noise, its
arguments are fixed, and without a name of its own no word of them may be one. -/
structure Callback.Alike (annotations : Annotations) (callback : Callback) : Prop where
  quiet : ∀ mark, .mark mark ∈ callback.lexemes → annotations.isNoise mark = false
  fixed : .variadic ∉ callback.args
  bare : callback.name = none → ∀ word, .word word ∈ callback.argLexemes → isTypeKeyword word = true

theorem Callback.cases {callback : Callback} {lexeme : Lexeme} (h : lexeme ∈ callback.lexemes) :
    (∃ word, lexeme = .word word) ∨ (∃ mark ∈ ["(", ")", "*", ","], lexeme = .mark mark) ∨
      lexeme = .mark "..." ∧ .variadic ∈ callback.args := by
  have typed {type : Typed} {lexeme : Lexeme} (h : lexeme ∈ type.lexemes) :
      (∃ word, lexeme = .word word) ∨ ∃ mark ∈ ["(", ")", "*", ","], lexeme = .mark mark := by
    obtain ⟨piece, -, rfl⟩ := List.mem_map.mp h
    cases piece with
    | word word => exact .inl ⟨word, rfl⟩
    | star => exact .inr ⟨"*", by simp, rfl⟩
  have mark {text : String} (h : text ∈ ["(", ")", "*", ","]) :
      (∃ word, Lexeme.mark text = .word word) ∨
        (∃ mark ∈ ["(", ")", "*", ","], Lexeme.mark text = .mark mark) ∨
        Lexeme.mark text = .mark "..." ∧ .variadic ∈ callback.args :=
    .inr (.inl ⟨text, h, rfl⟩)
  simp only [Callback.lexemes, Callback.before, Callback.after, List.mem_append, List.mem_cons,
    List.not_mem_nil, or_false] at h
  rcases h with (h | rfl | rfl) | h | rfl | rfl | h | rfl
  · exact (typed h).imp_right .inl
  · exact mark (by simp)
  · exact mark (by simp)
  · obtain ⟨word, -, rfl⟩ := by simpa using h
    exact .inl ⟨word, rfl⟩
  · exact mark (by simp)
  · exact mark (by simp)
  · rcases Text.mem_intercalate h with rfl | ⟨part, hpart, hmem⟩
    · exact mark (by simp)
    · obtain ⟨arg, harg, rfl⟩ := List.mem_map.mp hpart
      cases arg with
      | variadic => exact .inr (.inr ⟨List.mem_singleton.mp hmem, harg⟩)
      | typed type => exact (typed hmem).imp_right .inl
  · exact mark (by simp)

end Spelling

namespace Line
open Lexeme (Written)
open Spelling (Callback)
open Token (Laid)

variable {annotations : Annotations} {lexemes : List Lexeme} {text : List Char}

/-- Each lexeme on a line is divided by itself. -/
theorem pieces_laid (laid : Laid lexemes text) :
    pieces text = lexemes.flatMap fun lexeme => pieces lexeme.text.toList := by
  induction laid with
  | nil hgap =>
      have := pieces_blanks (fun c hc => (hgap c hc).1) []
      rwa [List.append_nil] at this
  | @cons _ lexeme _ rest hgap parted _ ih =>
      have happend :
          pieces (lexeme.text.toList ++ rest) = pieces lexeme.text.toList ++ pieces rest :=
        parted.elim (fun hlast => pieces_ended hlast rest) fun hhead => pieces_append hhead
      rw [pieces_blanks fun c hc => (hgap c hc).1, happend, ih]
      rfl

theorem isPiece_name {word : String} (h : isName word.toList = true) : IsPiece word :=
  .run (tight_of_isName h).nonempty fun _ => isNameChar_of_isName h

/-- But for an ellipsis, the pieces of a callback are its lexemes. -/
theorem pieces_callback {callback : Callback} (laid : Laid callback.lexemes text)
    (words : ∀ word, .word word ∈ callback.lexemes → IsPlain annotations word)
    (fixed : .variadic ∉ callback.args) : pieces text = callback.lexemes.map Lexeme.text := by
  rw [pieces_laid laid, List.map_eq_flatMap]
  refine List.flatMap_congr fun lexeme hlexeme => ?_
  have hpiece : IsPiece lexeme.text := by
    rcases Callback.cases hlexeme with ⟨word, rfl⟩ | ⟨mark, hmark, rfl⟩ | ⟨-, hvariadic⟩
    · exact isPiece_name (words word hlexeme).name
    · simp only [List.mem_cons, List.not_mem_nil, or_false] at hmark
      rcases hmark with rfl | rfl | rfl | rfl
      · exact @IsPiece.mark '(' (by decide) (by decide)
      · exact @IsPiece.mark ')' (by decide) (by decide)
      · exact @IsPiece.mark '*' (by decide) (by decide)
      · exact @IsPiece.mark ',' (by decide) (by decide)
    · exact absurd hvariadic fixed
  have := @IsPiece.pieces_append _ hpiece [] (by simp)
  rwa [List.append_nil] at this

/-- Without a size, the type of a parameter is made of its pieces that are no noise. -/
theorem param_type (annotations : Annotations) (dots : text ≠ ['.', '.', '.'])
    (unsized : '[' ∉ text) :
    ∃ list, (param annotations text).type = renderType list ∧
      ∀ piece ∈ list, piece ∈ pieces text ∧ annotations.isNoise piece = false := by
  have hwhole : text.takeWhile (· != '[') = text :=
    List.takeWhile_eq_self_iff.mpr fun c hc => bne_iff_ne.mpr fun h => unsized (h ▸ hc)
  have hsize : text.contains '[' = false := by simpa using unsized
  have hfound : ∀ piece ∈ (pieces text).filter (!annotations.isNoise ·),
      piece ∈ pieces text ∧ annotations.isNoise piece = false := by
    simp
  rw [param, if_neg dots, hwhole, hsize]
  generalize (pieces text).filter (!annotations.isNoise ·) = found at hfound
  dsimp only
  split
  · rw [callback]
    split
    · exact ⟨_, rfl, fun piece hpiece => hfound piece (List.mem_of_mem_filter hpiece)⟩
    · exact ⟨_, rfl, hfound⟩
  · rw [plainParam]
    simp only [Bool.false_eq_true, if_false, List.append_nil]
    split
    · rename_i last tag head hreverse
      split
      · refine ⟨_, rfl, fun piece hpiece => hfound piece (List.mem_reverse.mp ?_)⟩
        rw [hreverse]
        exact List.mem_cons_of_mem last (List.mem_reverse.mp hpiece)
      · exact ⟨_, rfl, hfound⟩
    · exact ⟨_, rfl, hfound⟩

theorem infix_of_cons {c : Char} {rest : List Char} (h : ['.', '.'] <:+: c :: rest)
    (apart : c = '.' → rest.head? ≠ some '.') : ['.', '.'] <:+: rest := by
  rcases List.infix_cons_iff.mp h with hfront | h
  · obtain ⟨hc, hrest⟩ := List.cons_prefix_cons.mp hfront
    obtain ⟨more, rfl⟩ := hrest
    exact absurd rfl (apart hc.symm)
  · exact h

/-- Two dots do not meet in front of a piece unless they meet behind it. -/
theorem infix_of_piece {piece : String} (hpiece : IsPiece piece) {rest : List Char}
    (h : ['.', '.'] <:+: piece.toList ++ rest) (apart : piece = "." → rest.head? ≠ some '.') :
    ['.', '.'] <:+: rest := by
  cases hpiece with
  | run _ hrun =>
      generalize piece.toList = letters at h hrun
      induction letters with
      | nil => exact h
      | cons c letters ih =>
          obtain ⟨hc, hletters⟩ := List.forall_mem_cons.mp hrun
          refine ih (infix_of_cons h ?_) hletters
          rintro rfl
          exact absurd hc (by decide)
  | mark _ _ =>
      rw [String.toList_singleton, List.singleton_append] at h
      exact infix_of_cons h fun hc => apart (hc ▸ rfl)

/-- No ellipsis is made of pieces, since dots stand apart. -/
theorem not_infix_renderAfter {previous : String} {list : List String}
    (h : ∀ piece ∈ list, IsPiece piece) :
    ¬['.', '.'] <:+: (renderAfter previous list).toList ∧
      (previous = "." → (renderAfter previous list).toList.head? ≠ some '.') := by
  induction list generalizing previous with
  | nil => simp [renderAfter]
  | cons piece list ih =>
      obtain ⟨hpiece, hlist⟩ := List.forall_mem_cons.mp h
      obtain ⟨hrest, happart⟩ := @ih piece hlist
      rw [renderAfter, String.toList_append]
      split
      · rename_i hglue
        refine ⟨fun hdots => hrest (infix_of_piece hpiece hdots happart), ?_⟩
        rintro rfl
        have hmark : piece ∈ ["*", ")", "]", "[", ","] := by simpa [gluesTo] using hglue
        simp only [List.mem_cons, List.not_mem_nil, or_false] at hmark
        rcases hmark with rfl | rfl | rfl | rfl | rfl <;> simp
      · rw [String.toList_append, List.append_assoc]
        refine ⟨fun hdots => hrest (infix_of_piece hpiece (infix_of_cons hdots ?_) happart), ?_⟩
        · intro hspace
          exact absurd hspace (by decide)
        · simp

theorem not_infix_renderType {list : List String} (h : ∀ piece ∈ list, IsPiece piece) :
    ¬['.', '.'] <:+: (renderType list).toList := by
  cases list with
  | nil => decide
  | cons piece list =>
      obtain ⟨hpiece, hlist⟩ := List.forall_mem_cons.mp h
      obtain ⟨hrest, hstart⟩ := @not_infix_renderAfter piece _ hlist
      rw [renderType, String.toList_append]
      exact fun hdots => hrest (infix_of_piece hpiece hdots hstart)

variable {callback : Callback}

theorem mem_callback (laid : Laid callback.lexemes text) : '(' ∈ text :=
  @Token.mem_of_laid _ _ laid (.mark "(") (by simp [Callback.lexemes, Callback.before]) _ (by decide)

theorem not_mem_callback (laid : Laid callback.lexemes text)
    (words : ∀ word, .word word ∈ callback.lexemes → IsPlain annotations word) : '[' ∉ text := by
  refine Text.not_mem_spaced (Token.spaced_of_laid laid) (by decide)
    (List.forall_mem_map.mpr fun lexeme hlexeme => ?_)
  rcases Callback.cases hlexeme with ⟨word, rfl⟩ | ⟨mark, hmark, rfl⟩ | ⟨rfl, -⟩
  · exact fun h => absurd (isNameChar_of_isName (words word hlexeme).name h) (by decide)
  · exact (show ∀ mark ∈ ["(", ")", "*", ","], '[' ∉ mark.toList by decide) mark hmark
  · decide

/-- Without an ellipsis and without noise, a callback is searched by its lexemes. -/
theorem param_lexemes (laid : Laid callback.lexemes text)
    (words : ∀ word, .word word ∈ callback.lexemes → IsPlain annotations word)
    (quiet : ∀ mark, .mark mark ∈ callback.lexemes → annotations.isNoise mark = false)
    (fixed : .variadic ∉ callback.args) :
    param annotations text = Line.callback (callback.lexemes.map Lexeme.text) := by
  have hopen := mem_callback laid
  have hdots : text ≠ ['.', '.', '.'] := fun h => absurd (h ▸ hopen) (by decide)
  have hwhole : text.takeWhile (· != '[') = text := List.takeWhile_eq_self_iff.mpr fun c hc =>
    bne_iff_ne.mpr fun h => not_mem_callback laid words (h ▸ hc)
  have hnoise : ∀ piece ∈ callback.lexemes.map Lexeme.text, (!annotations.isNoise piece) = true := by
    refine List.forall_mem_map.mpr fun lexeme hlexeme => ?_
    rcases Callback.cases hlexeme with ⟨word, rfl⟩ | ⟨mark, hmark, rfl⟩ | ⟨-, hvariadic⟩
    · simp [Lexeme.word, (words word hlexeme).notNoise]
    · have := quiet mark hlexeme
      simp [Lexeme.mark, this]
    · exact absurd hvariadic fixed
  have hgroup : (callback.lexemes.map Lexeme.text).contains "(" = true := by
    simp [Callback.lexemes, Callback.before, Lexeme.mark]
  rw [param, if_neg hdots, hwhole, pieces_callback laid words fixed, List.filter_eq_self.mpr hnoise]
  simp only [hgroup, if_true]

/-- What follows the first parenthesis of a callback, in which the name is looked for. -/
theorem dropWhile_callback
    (words : ∀ word, .word word ∈ callback.lexemes → IsPlain annotations word) :
    (callback.lexemes.map Lexeme.text).dropWhile (· != "(") =
      "(" :: "*" :: (callback.name.toList ++ callback.after.map Lexeme.text) := by
  have hresult : ∀ text ∈ callback.result.lexemes.map Lexeme.text, (text != "(") = true := by
    refine List.forall_mem_map.mpr fun lexeme hlexeme => bne_iff_ne.mpr ?_
    obtain ⟨piece, hpiece, rfl⟩ := List.mem_map.mp hlexeme
    cases piece with
    | word word =>
        rintro rfl
        exact absurd (words "(" (List.mem_append_left _ (List.mem_append_left _ hlexeme))).name
          (by decide)
    | star => decide
  have hlexemes : callback.lexemes.map Lexeme.text = callback.result.lexemes.map Lexeme.text ++
      "(" :: "*" :: (callback.name.toList ++ callback.after.map Lexeme.text) := by
    cases hname : callback.name <;>
      simp [Callback.lexemes, Callback.before, hname, Lexeme.mark, Lexeme.word]
  rw [hlexemes, List.dropWhile_append_of_pos hresult, List.dropWhile_cons_of_neg (by simp)]

/-- A word in the parentheses behind the name stands in the arguments. -/
theorem mem_argLexemes {word : String} (h : .word word ∈ callback.after) :
    .word word ∈ callback.argLexemes := by
  simpa [Callback.after, Lexeme.word, Lexeme.mark] using h

/-- Without a name, none is found in arguments whose words may not be one. -/
theorem find?_unnamed (hname : callback.name = none) (alike : callback.Alike annotations) :
    (callback.after.map Lexeme.text).find? mayName = none := by
  refine List.find?_eq_none.mpr (List.forall_mem_map.mpr fun lexeme hlexeme => ?_)
  have hmem : lexeme ∈ callback.lexemes := by simp [Callback.lexemes, hlexeme]
  rcases Callback.cases hmem with ⟨word, rfl⟩ | ⟨mark, hmark, rfl⟩ | ⟨-, hvariadic⟩
  · simp [mayName, Lexeme.word, alike.bare hname word (mem_argLexemes hlexeme)]
  · exact (show ∀ mark ∈ ["(", ")", "*", ","], ¬mayName mark = true by decide) mark hmark
  · exact absurd hvariadic alike.fixed

/-- Only the name itself is left out for the name. -/
theorem filter_named {name : String} (hname : callback.name = some name)
    (words : ∀ word, .word word ∈ callback.lexemes → IsPlain annotations word)
    (hother : .word name ∉ callback.before ++ callback.after) (fixed : .variadic ∉ callback.args) :
    (callback.lexemes.map Lexeme.text).filter (· != name) =
      (callback.before ++ callback.after).map Lexeme.text := by
  have hplain := words name (by simp [Callback.lexemes, hname])
  have hkept : ∀ piece ∈ (callback.before ++ callback.after).map Lexeme.text,
      (piece != name) = true := by
    refine List.forall_mem_map.mpr fun lexeme hlexeme => bne_iff_ne.mpr ?_
    have hmem : lexeme ∈ callback.lexemes := by
      rcases List.mem_append.mp hlexeme with h | h <;> simp [Callback.lexemes, h]
    rcases Callback.cases hmem with ⟨word, rfl⟩ | ⟨mark, hmark, rfl⟩ | ⟨-, hvariadic⟩
    · rintro rfl
      exact hother hlexeme
    · rintro rfl
      exact (show ∀ mark ∈ ["(", ")", "*", ","], ¬isName mark.toList = true by decide) _ hmark
        hplain.name
    · exact absurd hvariadic fixed
  rw [← List.filter_eq_self.mpr hkept]
  simp [Callback.lexemes, hname, Lexeme.word]

/-- A callback whose arguments give no occasion for it is not misread. -/
theorem param_alike (laid : Laid callback.lexemes text)
    (words : ∀ word, .word word ∈ callback.lexemes → IsPlain annotations word)
    (named : callback.Named) (alike : callback.Alike annotations) :
    param annotations text = callback.meaning := by
  have hopen : mayName "(" = false := by decide
  have hstar : mayName "*" = false := by decide
  rw [param_lexemes laid words alike.quiet alike.fixed, Line.callback, dropWhile_callback words]
  cases hname : callback.name with
  | none =>
      have hnone := find?_unnamed hname alike
      simp [hopen, hstar, hnone, Callback.meaning, Callback.lexemes, hname]
  | some name =>
      obtain ⟨hkeyword, hother⟩ := named name hname
      have hplain := words name (by simp [Callback.lexemes, hname])
      have hmay : mayName name = true := by simp [mayName, hplain.name, hkeyword]
      simp only [Option.toList_some, List.singleton_append, List.find?_cons, hopen, hstar, hmay]
      rw [filter_named hname words hother alike.fixed, Callback.meaning, hname]

/-- A mark in a type is a piece of it. -/
theorem mem_of_mark {list : List String} (h : ∀ piece ∈ list, IsPiece piece) {c : Char}
    (hc : isPieceChar c = false) (solid : c ≠ ' ') (hmem : c ∈ (renderType list).toList) :
    String.singleton c ∈ list := by
  obtain ⟨piece, hpiece, hchar⟩ := (of_mem_renderType hmem).resolve_left solid
  cases h piece hpiece with
  | run _ hrun =>
      rw [hrun c hchar] at hc
      exact Bool.noConfusion hc
  | mark _ _ =>
      obtain rfl : c = _ := by simpa using hchar
      exact hpiece

/-- What a callback means has all of its marks. -/
theorem mem_meaning {mark : String} (h : .mark mark ∈ callback.lexemes) :
    mark ∈ (callback.before ++ callback.after).map Lexeme.text := by
  have hother : ∀ word, Lexeme.word word ≠ .mark mark := by simp [Lexeme.mark, Lexeme.word]
  refine @List.mem_map_of_mem _ _ _ (.mark mark) Lexeme.text ?_
  simp only [Callback.lexemes, List.mem_append] at h ⊢
  rcases h with h | h | h
  · exact .inl h
  · obtain ⟨word, -, hword⟩ := by simpa using h
    exact absurd hword (hother word)
  · exact .inr h

section Pieces

variable {list : List String}

/-- A meaning that is made of pieces has no ellipsis. -/
theorem fixed_of_pieces (hpieces : ∀ piece ∈ list, IsPiece piece)
    (htype : callback.meaning.type = renderType list) : .variadic ∉ callback.args := by
  intro hvariadic
  have hargs : Lexeme.mark "..." ∈ callback.argLexemes :=
    (Text.infix_intercalate (List.mem_map_of_mem hvariadic)).subset
      (by simp [Spelling.Argument.lexemes])
  have hdots : Lexeme.mark "..." ∈ callback.lexemes := by
    simp [Callback.lexemes, Callback.after, hargs]
  have hinfix : "...".toList <:+: (renderType list).toList :=
    htype ▸ infix_renderType (mem_meaning hdots)
  exact not_infix_renderType hpieces (List.IsInfix.trans ⟨[], ['.'], rfl⟩ hinfix)

/-- Each mark of a meaning without an ellipsis is one of the pieces that it is made of. -/
theorem mem_of_pieces (hpieces : ∀ piece ∈ list, IsPiece piece)
    (htype : callback.meaning.type = renderType list) (fixed : .variadic ∉ callback.args)
    {mark : String} (h : .mark mark ∈ callback.lexemes) : mark ∈ list := by
  obtain ⟨c, rfl, hc, solid⟩ :
      ∃ c, mark = String.singleton c ∧ isPieceChar c = false ∧ c ≠ ' ' := by
    rcases Callback.cases h with ⟨word, hword⟩ | ⟨text, htext, heq⟩ | ⟨-, hvariadic⟩
    · simp [Lexeme.mark, Lexeme.word] at hword
    · obtain rfl : mark = text := congrArg Lexeme.text heq
      simp only [List.mem_cons, List.not_mem_nil, or_false] at htext
      rcases htext with rfl | rfl | rfl | rfl
      · exact ⟨'(', rfl, by decide, by decide⟩
      · exact ⟨')', rfl, by decide, by decide⟩
      · exact ⟨'*', rfl, by decide, by decide⟩
      · exact ⟨',', rfl, by decide, by decide⟩
    · exact absurd hvariadic fixed
  have hchar : c ∈ (renderType list).toList := htype ▸ mem_renderType (mem_meaning h) (by simp)
  exact mem_of_mark hpieces hc solid hchar

end Pieces

/-- Where a callback is not misread, its arguments give no occasion for it. -/
theorem alike_of_param (laid : Laid callback.lexemes text)
    (words : ∀ word, .word word ∈ callback.lexemes → IsPlain annotations word)
    (h : param annotations text = callback.meaning) : callback.Alike annotations := by
  have hdots : text ≠ ['.', '.', '.'] := fun hdots =>
    absurd (hdots ▸ mem_callback laid) (by decide)
  obtain ⟨list, htype, hlist⟩ := param_type annotations hdots (not_mem_callback laid words)
  have hpieces : ∀ piece ∈ list, IsPiece piece := fun piece hpiece =>
    isPiece_of_mem (hlist piece hpiece).1
  rw [h] at htype
  have fixed := fixed_of_pieces hpieces htype
  have quiet : ∀ mark, .mark mark ∈ callback.lexemes → annotations.isNoise mark = false :=
    fun mark hmem => (hlist mark (mem_of_pieces hpieces htype fixed hmem)).2
  refine ⟨quiet, fixed, fun hname word hword => ?_⟩
  rw [param_lexemes laid words quiet fixed, Line.callback, dropWhile_callback words] at h
  have hafter : Lexeme.word word ∈ callback.after := by simp [Callback.after, hword]
  have hplain := words word (by simp [Callback.lexemes, hafter])
  -- a name was looked for in the arguments too, and the meaning has none
  split at h
  · have := congrArg Param.name h
    simp [Callback.meaning, hname] at this
  · rename_i hnone
    have hmem : word ∈ callback.after.map Lexeme.text := List.mem_map_of_mem hafter
    have := List.find?_eq_none.mp hnone word (by simp [hname, hmem])
    simpa [mayName, hplain.name] using this

theorem param_callback_iff (laid : Laid callback.lexemes text)
    (words : ∀ word, .word word ∈ callback.lexemes → IsPlain annotations word)
    (named : callback.Named) :
    param annotations text = callback.meaning ↔ callback.Alike annotations :=
  ⟨alike_of_param laid words, param_alike laid words named⟩

end Line
end LibSurvey
