import LibSurvey.Proofs.Line.Comments
import LibSurvey.Proofs.Token.Bare

/-!
Comments read both ways. Cut out by the line or skipped character by character, they are the same
ones: the logical lines of a text have its tokens.
-/

namespace LibSurvey
open Token (Cut Kind Piece Stands)

namespace Line

variable {text rest : List Char}

theorem bare_free (h : '/' ∉ text) : bare .code (text ++ rest) = text ++ bare .code rest := by
  induction text with
  | nil => rfl
  | cons c text ih =>
      rw [List.mem_cons, not_or] at h
      rw [List.cons_append, bare_code fun hc => absurd hc.symm h.1, ih h.2, List.cons_append]

/-- No comment begins in a token. -/
theorem bare_stands {start : Bool} {kind : Kind} (stands : Stands start kind text rest)
    (hstring : kind ≠ .string) (hcharacter : kind ≠ .character) :
    bare .code (text ++ rest) = text ++ bare .code rest := by
  cases stands with
  | word hname _ => exact bare_free fun h => absurd (isNameChar_of_isName hname h) (by decide)
  | number hnumber _ =>
      exact bare_free fun h => absurd (Token.isNumberChar_of_isNumber hnumber h) (by decide)
  | string _ => exact absurd rfl hstring
  | character _ => exact absurd rfl hcharacter
  | @mark c after hmark =>
      by_cases hc : c = '/'
      · subst hc
        exact bare_code hmark.uncommented
      · refine bare_free fun h => ?_
        rcases (Token.punct_parts c after).2 _ h with h | h
        · exact hc h.symm
        · exact absurd h (by decide)

/-- A block comment leaves its line feeds and a space. -/
theorem bare_blockComment (closed : ¬['*', '/'] <:+: text) :
    bare .block (text ++ '*' :: '/' :: rest) =
      text.filter (· = '\n') ++ ' ' :: bare .code rest := by
  induction text with
  | nil => rw [List.nil_append, bare, List.filter_nil, List.nil_append]
  | cons c text ih =>
      have hrest := ih fun h => closed (h.trans (List.suffix_cons c text).isInfix)
      rw [List.cons_append]
      by_cases hfeed : c = '\n'
      · subst hfeed
        rw [bare, hrest, List.filter_cons_of_pos (by simp), List.cons_append]
      · rw [bare_block hfeed, hrest, List.filter_cons_of_neg (by simpa using hfeed)]
        rintro rfl hhead
        cases text with
        | nil => simp at hhead
        | cons d text =>
            obtain rfl : d = '/' := by simpa using hhead
            exact closed (List.prefix_append ['*', '/'] text).isInfix

/-- What is left of a text without comments is what is left of its pieces. -/
theorem bare_pieces {start : Bool} {pieces : List Piece} (cut : Cut [] start pieces)
    (simple : ∀ piece ∈ pieces, piece.IsSimple) :
    bare .code (pieces.flatMap Piece.source) = pieces.flatMap Piece.bare := by
  induction cut with
  | nil => rfl
  | @cons start piece pieces formed _ ih =>
      obtain ⟨hpiece, hpieces⟩ := List.forall_mem_cons.mp simple
      rw [List.append_nil] at formed
      rw [List.flatMap_cons, List.flatMap_cons, ← ih hpieces]
      cases piece with
      | blank c =>
          have hc : c ≠ '/' := Text.ne_of_isBlank formed (by decide)
          exact bare_code fun h => absurd h hc
      | lineComment text =>
          rw [Piece.source, List.cons_append, List.cons_append, bare,
            bare_lineComment formed.1 formed.2]
          rfl
      | blockComment text =>
          rw [Piece.source, List.cons_append, List.cons_append, bare, List.append_assoc,
            List.cons_append, List.singleton_append, bare_blockComment formed, Piece.bare,
            List.append_assoc, List.singleton_append]
      | token kind text => exact bare_stands formed hpiece.1 hpiece.2.1
      | joined | directive => exact hpiece.elim

/-- The logical lines on lines of their own are what comments leave of the text, but for blanks. -/
theorem reflow_logical (noBackslash : '\\' ∉ text) :
    Text.Reflow (Text.trim (bare .code text)) (Text.trim (['\n'].intercalate (logical text))) := by
  have hlines := (@Text.reflow_lines '\n' (by decide)
    (Text.splitAt (· = '\n') (bare .code text))).trim
  rw [Text.trim_trim, Text.intercalate_splitAt] at hlines
  rwa [logical_bare noBackslash, solidLines]

end Line

namespace Token

/-- Without quotes, backslashes and hashes a text is blanks, comments and simple tokens. -/
theorem isSimple_of_plain {start : Bool} {pieces : List Piece} (cut : Cut [] start pieces)
    (plain : ∀ c ∈ pieces.flatMap Piece.source, c ∉ ['"', '\'', '\\', '#']) :
    ∀ piece ∈ pieces, piece.IsSimple := by
  induction cut with
  | nil => simp
  | @cons start piece pieces formed _ ih =>
      rw [List.flatMap_cons] at plain
      obtain ⟨hpiece, hpieces⟩ := List.forall_mem_append.mp plain
      refine List.forall_mem_cons.mpr ⟨?_, ih hpieces⟩
      cases piece with
      | blank _ | lineComment _ | blockComment _ => trivial
      | joined => exact hpiece '\\' (by simp [Piece.source]) (by simp)
      | directive parts => exact hpiece '#' (by simp [Piece.source]) (by simp)
      | token kind text =>
          have quoted {quote : Char} (h : Lexeme.IsLiteral quote text) : quote ∈ text := by
            obtain ⟨body, -, rfl⟩ := h
            exact List.mem_cons_self
          refine ⟨?_, ?_, fun h => hpiece '#' h (by simp), fun h => hpiece '\\' h (by simp)⟩
          · rintro rfl
            cases formed with
            | string hliteral => exact hpiece '"' (quoted hliteral) (by simp)
          · rintro rfl
            cases formed with
            | character hliteral => exact hpiece '\'' (quoted hliteral) (by simp)

/-- The logical lines of a text without quotes, backslashes and hashes have the tokens of the text. -/
theorem ofBytes?_logical {text : List Char} (plain : ∀ c ∈ text, c ∉ ['"', '\'', '\\', '#'])
    {tokens : List Token} (accepted : ofBytes? (Text.Utf8.encode text) = .ok tokens) :
    ∃ again, ofBytes? (Text.Utf8.encode (['\n'].intercalate (Line.logical text))) = .ok again ∧
      again.map lexeme = tokens.map lexeme := by
  have hcut := ofBytes?_cut (Text.Utf8.encode text)
  rw [accepted] at hcut
  obtain ⟨pieces, hsource, cut, rfl, room, -⟩ := hcut
  obtain rfl : pieces.flatMap Piece.source = text := by
    have := congrArg Text.Utf8.decode? hsource
    simpa [Text.Utf8.decode?_encode] using this
  have simple := isSimple_of_plain cut plain
  have hlines := Line.reflow_logical fun h => plain '\\' h (by simp)
  rw [Line.bare_pieces cut simple] at hlines
  obtain ⟨others, hothers, again, hlexemes⟩ := cut_reflow cut simple hlines
  have hmap : (placed [] others).map lexeme = (placed [] pieces).map lexeme := by
    rw [lexeme_placed, lexeme_placed, hlexemes]
  have hroom : (placed [] others).length ≤ limit := by
    have hlength := congrArg List.length hmap
    rw [List.length_map, List.length_map] at hlength
    exact hlength ▸ room
  refine ⟨placed [] others, ?_, hmap⟩
  rw [ofBytes?, Text.Utf8.decode?_encode, ← hothers]
  exact (ofChars?_cut (again true)).trans (if_pos hroom)

/-- A comment that glues nothing, each mark of a comment within a comment of the other kind, a slash
that does not close at once, and comments one after another. -/
theorem ofBytes?_logical_comments :
    let text := "int/*//*/a;// /* b\n/*/ c */d/**//* e\n// f */ / *g // h".toList
    let tokens : List Token := [⟨.word, "int", 1⟩, ⟨.word, "a", 1⟩, ⟨.punctuation, ";", 1⟩,
      ⟨.word, "d", 2⟩, ⟨.punctuation, "/", 3⟩, ⟨.punctuation, "*", 3⟩, ⟨.word, "g", 3⟩]
    (∀ c ∈ text, c ∉ ['"', '\'', '\\', '#']) ∧ ofBytes? (Text.Utf8.encode text) = .ok tokens ∧
      Line.logical text = ["int a;".toList, "d".toList, "/ *g".toList] ∧
      ∃ again, ofBytes? (Text.Utf8.encode (['\n'].intercalate (Line.logical text))) = .ok again ∧
        again.map lexeme = tokens.map lexeme := by
  intro text tokens
  have plain : ∀ c ∈ text, c ∉ ['"', '\'', '\\', '#'] :=
    List.forall_iff_forall_mem.mp (by decide +kernel)
  have accepted : ofBytes? (Text.Utf8.encode text) = .ok tokens := by decide +kernel
  exact ⟨plain, accepted, by decide +kernel, ofBytes?_logical plain accepted⟩

end Token
end LibSurvey
