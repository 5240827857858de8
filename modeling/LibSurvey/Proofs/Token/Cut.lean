import LibSurvey.Proofs.Token.Segment

/-!
The source of a header cut into pieces, each of which says what may follow it. Every text is made of
such pieces up to its end or up to what no piece begins with, and the lexer reads exactly the tokens
among them, each on the line where its piece begins.
-/

namespace LibSurvey.Token
open Lexeme (IsLiteral Quotable)

/-- A part of a directive after its `#`. -/
inductive DirectivePart where
  | char (c : Char)
  | joined (ending : List Char)
  | lineComment (text : List Char)
  | blockComment (text : List Char)
  | quoted (quote : Char) (text : List Char)
deriving DecidableEq

/-- What follows a quote in a directive: it ends with the quote or, left open, with the line. A
backslash keeps any one character after it, also a line feed. -/
inductive LineQuoted (quote : Char) (rest : List Char) : List Char → Prop where
  | closed : LineQuoted quote rest [quote]
  | unclosed : LineEnd rest → LineQuoted quote rest []
  | plain {c : Char} {text : List Char} : c ≠ quote → c ≠ '\\' → c ≠ '\n' →
      LineQuoted quote rest text → LineQuoted quote rest (c :: text)
  | escaped (c : Char) {text : List Char} :
      LineQuoted quote rest text → LineQuoted quote rest ('\\' :: c :: text)
  | last : rest = [] → LineQuoted quote rest ['\\']

namespace DirectivePart

def source : DirectivePart → List Char
  | .char c => [c]
  | .joined ending => '\\' :: ending
  | .lineComment text => '/' :: '/' :: text
  | .blockComment text => '/' :: '*' :: (text ++ ['*', '/'])
  | .quoted quote text => quote :: text

/-- What the directive holds of a part. The only line feeds of a quoted part follow a backslash, and
they are left out. -/
def text : DirectivePart → List Char
  | .char c => [c]
  | .joined _ | .blockComment _ => [' ']
  | .lineComment _ => []
  | .quoted quote text => quote :: text.filter (· ≠ '\n')

/-- A part as it stands before `rest`. -/
def Formed (rest : List Char) : DirectivePart → Prop
  | .char c => c ≠ '\n' ∧ c ≠ '"' ∧ c ≠ '\'' ∧
      (c = '\\' → rest.head? ≠ some '\n' ∧ ¬['\r', '\n'] <+: rest) ∧
      (c = '/' → rest.head? ≠ some '/' ∧ rest.head? ≠ some '*')
  | .joined ending => ending = ['\n'] ∨ ending = ['\r', '\n']
  | .lineComment text => '\n' ∉ text ∧ LineEnd rest
  | .blockComment text => ¬['*', '/'] <:+: text
  | .quoted quote text => (quote = '"' ∨ quote = '\'') ∧ LineQuoted quote rest text

end DirectivePart

/-- The parts of a directive as far as they stand before `rest`. -/
inductive Directed (rest : List Char) : List DirectivePart → Prop where
  | nil : Directed rest []
  | cons {part : DirectivePart} {parts : List DirectivePart} :
      part.Formed (parts.flatMap DirectivePart.source ++ rest) → Directed rest parts →
      Directed rest (part :: parts)

/-- A character that begins a mark: no blank, comment, continued line, literal, word or number begins
with it, and at the start of a line no directive. -/
structure BeginsMark (start : Bool) (c : Char) (rest : List Char) : Prop where
  solid : Text.isBlank c = false
  unquoted : c ≠ '"' ∧ c ≠ '\''
  unnamed : isNameStart c = false
  unnumbered : startsNumber c rest = false
  unjoined : c = '\\' → rest.head? ≠ some '\n'
  uncommented : c = '/' → rest.head? ≠ some '/' ∧ rest.head? ≠ some '*'
  undirected : c = '#' → start = false

/-- A token with what follows it. Words, numbers and marks are as long as they can be. -/
inductive Stands (start : Bool) : Kind → List Char → List Char → Prop where
  | word {text rest : List Char} : isName text = true →
      (∀ c ∈ rest.head?, isNameChar c = false) → Stands start .word text rest
  | number {text rest : List Char} : Lexeme.isNumber text = true →
      (∀ c ∈ rest.head?, isNumberChar c = false) → Stands start .number text rest
  | string {text rest : List Char} : IsLiteral '"' text → Stands start .string text rest
  | character {text rest : List Char} : IsLiteral '\'' text → Stands start .character text rest
  | mark {c : Char} {rest : List Char} : BeginsMark start c rest →
      Stands start .punctuation (punct c rest).1 (punct c rest).2

/-- A piece of the source of a header. -/
inductive Piece where
  | blank (c : Char)
  | joined
  | lineComment (text : List Char)
  | blockComment (text : List Char)
  | directive (parts : List DirectivePart)
  | token (kind : Kind) (text : List Char)
deriving DecidableEq

namespace Piece

def source : Piece → List Char
  | .blank c => [c]
  | .joined => ['\\', '\n']
  | .lineComment text => '/' :: '/' :: text
  | .blockComment text => '/' :: '*' :: (text ++ ['*', '/'])
  | .directive parts => '#' :: parts.flatMap DirectivePart.source
  | .token _ text => text

/-- The token of a piece, if it has one. -/
def lexeme? : Piece → Option Lexeme
  | .directive parts =>
    some ⟨.directive, String.ofList (Text.trim (parts.flatMap DirectivePart.text))⟩
  | .token kind text => some ⟨kind, String.ofList text⟩
  | _ => none

/-- A piece as it stands before `rest`. At the `start` of a line, only gaps stand before it there. -/
def Formed (start : Bool) (rest : List Char) : Piece → Prop
  | .blank c => Text.isBlank c = true
  | .joined => True
  | .lineComment text => '\n' ∉ text ∧ LineEnd rest
  | .blockComment text => ¬['*', '/'] <:+: text
  | .directive parts => start = true ∧ Directed rest parts ∧ LineEnd rest
  | .token kind text => Stands start kind text rest

/-- Whether a piece leaves the start of a line; a directive takes the rest of its own line. -/
def starts (start : Bool) : Piece → Bool
  | .blank c => start || c = '\n'
  | .directive _ => true
  | .token _ _ => false
  | _ => start

end Piece

/-- A text is cut into pieces that stand in order before `rest`. -/
inductive Cut (rest : List Char) : (start : Bool) → List Piece → Prop where
  | nil {start : Bool} : Cut rest start []
  | cons {start : Bool} {piece : Piece} {pieces : List Piece} :
      piece.Formed start (pieces.flatMap Piece.source ++ rest) →
      Cut rest (piece.starts start) pieces → Cut rest start (piece :: pieces)

/-- The tokens of pieces that follow a text: each stands on the line after the line feeds before its
first character. -/
def placed (before : List Char) : List Piece → List Token
  | [] => []
  | piece :: pieces =>
    (piece.lexeme?.map (·.onLine (1 + before.count '\n'))).toList ++
      placed (before ++ piece.source) pieces

theorem BeginsMark.of_isMarkChar {start : Bool} {c : Char} {rest : List Char}
    (h : Lexeme.isMarkChar c = true) (plain : c ∉ ['/', '#', '.']) : BeginsMark start c rest := by
  simp only [Lexeme.isMarkChar, Bool.and_eq_true, Bool.not_eq_true', decide_eq_true_eq] at h
  obtain ⟨⟨⟨⟨⟨hblank, hdouble⟩, hsingle⟩, hstart⟩, hdigit⟩, hback⟩ := h
  simp only [List.mem_cons, List.not_mem_nil, or_false, not_or] at plain
  obtain ⟨hslash, hhash, hdot⟩ := plain
  exact
    { solid := hblank
      unquoted := ⟨hdouble, hsingle⟩
      unnamed := hstart
      unnumbered := by simp [startsNumber, hdigit, hdot]
      unjoined := fun h => absurd h hback
      uncommented := fun h => absurd h hslash
      undirected := fun h => absurd h hhash }

theorem placed_gap {before : List Char} {piece : Piece} {pieces : List Piece}
    (h : piece.lexeme? = none) :
    placed before (piece :: pieces) = placed (before ++ piece.source) pieces := by
  rw [placed, h]
  rfl

theorem placed_token {before : List Char} {piece : Piece} {pieces : List Piece} {lexeme : Lexeme}
    (h : piece.lexeme? = some lexeme) :
    placed before (piece :: pieces) =
      lexeme.onLine (1 + before.count '\n') :: placed (before ++ piece.source) pieces := by
  rw [placed, h]
  rfl

theorem lexeme_placed (before : List Char) (pieces : List Piece) :
    (placed before pieces).map Token.lexeme = pieces.filterMap Piece.lexeme? := by
  induction pieces generalizing before with
  | nil => rfl
  | cons piece pieces ih =>
      rw [placed, List.map_append, ih]
      cases h : piece.lexeme? with
      | none => simp [h]
      | some lexeme =>
          have hlexeme (line : Nat) : (lexeme.onLine line).lexeme = lexeme := rfl
          simp [h, hlexeme]

/-! What the lexer does with one piece. -/

variable {start : Bool} {line count : Nat} {rest : List Char}

theorem LineQuoted.directiveQuote_eq {quote : Char} (hquote : quote = '"' ∨ quote = '\'')
    {text : List Char} (h : LineQuoted quote rest text) (line : Nat) (seen : List Char) :
    directiveQuote quote line seen (text ++ rest) =
      ⟨(text.filter (· ≠ '\n')).reverse ++ seen, line + text.count '\n', rest⟩ := by
  have hfeed : quote ≠ '\n' := by rcases hquote with rfl | rfl <;> decide
  have hback : quote ≠ '\\' := by rcases hquote with rfl | rfl <;> decide
  induction h generalizing line seen with
  | closed =>
      rw [List.singleton_append, directiveQuote]
      · simp [hfeed]
      · exact hfeed
      · exact fun _ h _ => hback h
      · exact fun _ _ h _ => hback h
  | unclosed hend =>
      cases rest with
      | nil => rfl
      | cons c rest =>
          obtain rfl : c = '\n' := hend c rfl
          rfl
  | @plain c text hc hcback hcfeed _ ih =>
      rw [List.cons_append, directiveQuote, if_neg hc, ih, List.count_cons_of_ne hcfeed]
      · simp [hcfeed]
      · exact hcfeed
      · exact fun _ h _ => hcback h
      · exact fun _ _ h _ => hcback h
  | @escaped c text _ ih =>
      by_cases hc : c = '\n'
      · subst hc
        rw [List.cons_append, List.cons_append, directiveQuote, ih]
        simp
        omega
      · rw [List.cons_append, List.cons_append, directiveQuote, ih]
        · simp [hc]
        · exact hc
  | last hrest =>
      subst hrest
      rw [List.singleton_append, directiveQuote, if_neg hback.symm, directiveQuote]
      · rfl
      all_goals simp

theorem afterLine_lineEnd {text : List Char} (h : '\n' ∉ text) (hend : LineEnd rest) :
    afterLine (text ++ rest) = rest := by
  refine Text.dropWhile_front (fun c hc => ?_) fun c hc => ?_
  · simp only [bne_iff_ne, ne_eq]
    rintro rfl
    exact h hc
  · simp [hend c hc]

theorem DirectivePart.Formed.directive?_eq {part : DirectivePart} (h : part.Formed rest)
    (line : Nat) (seen : List Char) :
    directive? line seen (part.source ++ rest) =
      directive? (line + part.source.count '\n') (part.text.reverse ++ seen) rest := by
  cases part with
  | char c =>
      obtain ⟨hfeed, hdouble, hsingle, hjoined, hcomment⟩ := h
      rw [source, List.singleton_append, directive?, if_neg (by simp [hdouble, hsingle])]
      · simp [text, List.count_cons_of_ne hfeed]
      · exact hfeed
      · rintro after rfl rfl
        exact (hjoined rfl).1 rfl
      · rintro after rfl rfl
        exact (hjoined rfl).2 (List.prefix_append ['\r', '\n'] after)
      · rintro after rfl rfl
        exact (hcomment rfl).1 rfl
      · rintro after rfl rfl
        exact (hcomment rfl).2 rfl
  | joined ending =>
      rcases h with rfl | rfl
      · rw [source, List.cons_append, List.singleton_append, directive?]
        rfl
      · rw [source, List.cons_append, List.cons_append, List.singleton_append, directive?]
        rfl
  | lineComment text =>
      obtain ⟨whole, hend⟩ := h
      rw [source, List.cons_append, List.cons_append, directive?, afterLine_lineEnd whole hend]
      simp [DirectivePart.text, List.count_eq_zero.mpr whole]
  | blockComment text =>
      have hafter := afterComment?_append h line rest
      rw [source, List.cons_append, List.cons_append, List.append_assoc, List.cons_append,
        List.singleton_append, directive?]
      split
      · rename_i hfound
        rw [hafter] at hfound
        cases hfound
        simp [DirectivePart.text]
      · simp_all
  | quoted quote text =>
      obtain ⟨hquote, htext⟩ := h
      have hpart := htext.directiveQuote_eq hquote line (quote :: seen)
      have hfeed : quote ≠ '\n' := by rcases hquote with rfl | rfl <;> decide
      rw [source, List.cons_append, directive?, if_pos (by simpa using hquote), hpart]
      · simp [DirectivePart.text, List.count_cons_of_ne hfeed]
      · exact hfeed
      all_goals rcases hquote with rfl | rfl <;> simp

theorem Directed.directive?_eq {parts : List DirectivePart} (h : Directed rest parts)
    (line : Nat) (seen : List Char) :
    directive? line seen (parts.flatMap DirectivePart.source ++ rest) =
      directive? (line + (parts.flatMap DirectivePart.source).count '\n')
        ((parts.flatMap DirectivePart.text).reverse ++ seen) rest := by
  induction h generalizing line seen with
  | nil => simp
  | @cons part parts formed _ ih =>
      rw [List.flatMap_cons, List.append_assoc, formed.directive?_eq, ih, List.count_append,
        Nat.add_assoc, List.flatMap_cons, List.reverse_append, List.append_assoc]

theorem directive?_lineEnd (hend : LineEnd rest) (line : Nat) (seen : List Char) :
    directive? line seen rest = .ok ⟨seen, line, rest⟩ := by
  cases rest with
  | nil => rw [directive?]
  | cons c rest =>
      obtain rfl : c = '\n' := hend c rfl
      rw [directive?]

theorem punct_ne_nil (c : Char) (rest : List Char) : (punct c rest).1 ≠ [] := by
  unfold punct
  split <;> simp

/-- A token that stands at the front of a text is read from there. -/
theorem Stands.front?_eq {kind : Kind} {text : List Char} (h : Stands start kind text rest)
    (line : Nat) :
    ∃ c more, text = c :: more ∧ front? start line c (more ++ rest) =
      .ok (.token kind text (line + text.count '\n'), rest) := by
  cases h with
  | word hname ends =>
      obtain ⟨c, more, htext, hfront⟩ := front?_word hname ends start line
      refine ⟨c, more, htext, ?_⟩
      have hcount : text.count '\n' = 0 := List.count_eq_zero.mpr fun hc =>
        absurd (isNameChar_of_isName hname hc) (by decide)
      rw [hfront, hcount, Nat.add_zero]
  | number hnumber ends =>
      obtain ⟨c, more, htext, hfront⟩ := front?_number hnumber ends start line
      refine ⟨c, more, htext, ?_⟩
      have hcount : text.count '\n' = 0 := List.count_eq_zero.mpr fun hc =>
        absurd (isNumberChar_of_isNumber hnumber hc) (by decide)
      rw [hfront, hcount, Nat.add_zero]
  | string hliteral => exact front?_literal (.inl rfl) hliteral rest start line
  | character hliteral => exact front?_literal (.inr rfl) hliteral rest start line
  | @mark c after hmark =>
      obtain ⟨hparts, hchars⟩ := punct_parts c after
      obtain ⟨hdouble, hsingle⟩ := hmark.unquoted
      have hfeed : c ≠ '\n' := by
        rintro rfl
        exact absurd hmark.solid (by decide)
      have hcount : (punct c after).1.count '\n' = 0 := by
        refine List.count_eq_zero.mpr fun hc => ?_
        rcases hchars _ hc with hc | hc
        · exact hfeed hc.symm
        · exact absurd hc (by decide)
      have hcomment : c = '/' → ¬after.head? = some '/' ∧ ¬after.head? = some '*' :=
        hmark.uncommented
      cases hpunct : (punct c after).1 with
      | nil => exact absurd hpunct (punct_ne_nil c after)
      | cons d more =>
          rw [hpunct, List.cons_append] at hparts
          obtain ⟨rfl, hafter⟩ := List.cons.inj hparts
          refine ⟨c, more, rfl, ?_⟩
          rw [← hpunct, ← hafter, hcount, Nat.add_zero, front?, if_neg hfeed,
            if_neg (by simp [hmark.solid]), if_neg (by simpa using hmark.unjoined),
            if_neg (by simpa using fun h => (hcomment h).1),
            if_neg (by simpa using fun h => (hcomment h).2),
            if_neg (by simpa using hmark.undirected), if_neg (by simp [hdouble, hsingle]),
            if_neg (by simp [hmark.unnamed]), if_neg (by simp [hmark.unnumbered])]

theorem Stands.kind_ne {kind : Kind} {text : List Char} (h : Stands start kind text rest) :
    kind ≠ .directive := by
  cases h <;> simp

variable {tokens : List Token}

/-- What a piece at the front of a text does to the scan. -/
theorem Piece.Formed.scan_eq {piece : Piece} (h : piece.Formed start rest) :
    scan start line count tokens (piece.source ++ rest) =
      match piece.lexeme? with
      | none =>
        scan (starts start piece) (line + piece.source.count '\n') count tokens rest
      | some lexeme =>
        if count < limit then
          scan (starts start piece) (line + piece.source.count '\n') (count + 1)
            (lexeme.onLine line :: tokens) rest
        else .error .tooMany := by
  cases piece with
  | blank c =>
      by_cases hfeed : c = '\n'
      · subst hfeed
        rw [source, List.singleton_append, scan_lineEnd]
        simp [lexeme?, starts]
      · have hfront : front? start line c rest = .ok (.gap line, rest) := by
          simp [front?, hfeed, show Text.isBlank c = true from h]
        rw [source, List.singleton_append, scan_front, hfront]
        simp [lexeme?, starts, hfeed, List.count_cons_of_ne hfeed]
  | joined =>
      rw [source, List.cons_append, List.singleton_append, scan_front]
      simp [front?, Text.isBlank, lexeme?, starts]
  | lineComment text =>
      obtain ⟨whole, hend⟩ := h
      have hskip : afterLine (('/' :: text) ++ rest) = rest :=
        afterLine_lineEnd (by simpa using whole) hend
      rw [List.cons_append] at hskip
      rw [source, List.cons_append, List.cons_append, scan_front]
      simp [front?, Text.isBlank, lexeme?, starts, hskip, List.count_eq_zero.mpr whole]
  | blockComment text =>
      have hafter := afterComment?_append h line rest
      rw [source, List.cons_append, List.cons_append, List.append_assoc, scan_front]
      simp [front?, Text.isBlank, lexeme?, starts, hafter]
  | directive parts =>
      obtain ⟨rfl, hparts, hend⟩ := h
      have hpart := hparts.directive?_eq line []
      rw [directive?_lineEnd hend] at hpart
      rw [source, List.cons_append, scan_front]
      simp [front?, Text.isBlank, lexeme?, starts, hpart, Lexeme.onLine]
  | token kind text =>
      obtain ⟨c, more, rfl, hfront⟩ := Stands.front?_eq h line
      have hkind : (kind = .directive) = False := eq_false (Stands.kind_ne h)
      rw [source, List.cons_append, scan_front, hfront]
      simp [lexeme?, starts, hkind, Lexeme.onLine]

/-- A piece is read as it is where the source of a text is written in a given way. -/
def Piece.Steps (write : List Char → List Char) (start : Bool) (rest : List Char) (piece : Piece) :
    Prop :=
  ∀ (line count : Nat) (tokens : List Token),
    scan start line count tokens (write (piece.source ++ rest)) =
      match piece.lexeme? with
      | none =>
        scan (starts start piece) (line + piece.source.count '\n') count tokens (write rest)
      | some lexeme =>
        if count < limit then
          scan (starts start piece) (line + piece.source.count '\n') (count + 1)
            (lexeme.onLine line :: tokens) (write rest)
        else .error .tooMany

/-- Pieces up to the end of a text give their tokens, if there is room for them and each is read as it
is. -/
theorem Cut.scan_write (write : List Char → List Char) (hnil : write [] = [])
    {pieces : List Piece} (h : Cut [] start pieces)
    (steps : ∀ piece ∈ pieces, ∀ start rest, piece.Formed start rest → piece.Steps write start rest)
    {before : List Char} (hline : line = 1 + before.count '\n') (hcount : count ≤ limit) :
    scan start line count tokens (write (pieces.flatMap Piece.source)) =
      if count + (placed before pieces).length ≤ limit then
        .ok (tokens.reverse ++ placed before pieces)
      else .error .tooMany := by
  induction h generalizing line count tokens before with
  | nil => simp [hnil, scan, placed, hcount]
  | @cons start piece pieces formed _ ih =>
      obtain ⟨hpiece, hpieces⟩ := List.forall_mem_cons.mp steps
      rw [List.append_nil] at formed
      have hnext : line + piece.source.count '\n' = 1 + (before ++ piece.source).count '\n' := by
        rw [hline, List.count_append, Nat.add_assoc]
      rw [List.flatMap_cons, hpiece start _ formed]
      cases hlexeme : piece.lexeme? with
      | none =>
          rw [placed_gap hlexeme]
          exact ih hpieces hnext hcount
      | some lexeme =>
          rw [placed_token hlexeme, ← hline, List.length_cons]
          by_cases hroom : count < limit
          · have hmore : count + 1 ≤ limit := hroom
            simp only [if_pos hroom]
            rw [ih hpieces hnext hmore, List.reverse_cons, List.append_assoc, List.singleton_append,
              Nat.add_assoc, Nat.add_comm 1]
          · simp only [if_neg hroom]
            rw [if_neg (by omega)]

/-- A text that can be cut is read as the tokens of its pieces. -/
theorem ofChars?_cut {pieces : List Piece} (h : Cut [] true pieces) :
    ofChars? (pieces.flatMap Piece.source) =
      if (placed [] pieces).length ≤ limit then .ok (placed [] pieces) else .error .tooMany := by
  have hline : 1 = 1 + ([] : List Char).count '\n' := rfl
  have hscan : ofChars? (pieces.flatMap Piece.source) = _ :=
    h.scan_write id rfl (fun _ _ _ _ formed _ _ _ => formed.scan_eq) hline (Nat.zero_le limit)
  rwa [Nat.zero_add] at hscan

/-! Every text begins with a piece, unless a comment or a literal is left open there. -/

/-- A comment or a literal that begins here is left open. -/
inductive Open (start : Bool) (line : Nat) : List Char → Fault → Prop where
  | comment {rest : List Char} : ¬['*', '/'] <:+: rest →
      Open start line ('/' :: '*' :: rest) (.openComment line)
  | directive {parts : List DirectivePart} {rest : List Char} : start = true →
      Directed ('/' :: '*' :: rest) parts → ¬['*', '/'] <:+: rest →
      Open start line ('#' :: (parts.flatMap DirectivePart.source ++ '/' :: '*' :: rest))
        (.openComment (line + (parts.flatMap DirectivePart.source).count '\n'))
  | literal {quote : Char} {rest : List Char} : quote = '"' ∨ quote = '\'' →
      (∀ body after, Quotable quote body → rest ≠ body ++ quote :: after) →
      Open start line (quote :: rest) (.openLiteral line)

theorem afterComment?_open {text : List Char} (h : ¬['*', '/'] <:+: text) (line : Nat) :
    afterComment? line text = none := by
  fun_induction afterComment? line text with
  | case1 => rfl
  | case2 _ rest => exact absurd (List.prefix_append ['*', '/'] rest).isInfix h
  | case3 line c rest _ ih => exact ih fun hrest => h (hrest.trans (List.suffix_cons c rest).isInfix)

theorem exists_comment {text : List Char} (h : ['*', '/'] <:+: text) :
    ∃ comment after, text = comment ++ '*' :: '/' :: after ∧ ¬['*', '/'] <:+: comment := by
  induction text with
  | nil => exact absurd (List.IsInfix.length_le h) (by decide)
  | cons c text ih =>
      by_cases hfront : ['*', '/'] <+: c :: text
      · obtain ⟨after, hafter⟩ := hfront
        exact ⟨[], after, hafter.symm, by decide⟩
      · obtain ⟨comment, after, rfl, hclosed⟩ :=
          ih ((List.infix_cons_iff.mp h).resolve_left hfront)
        refine ⟨c :: comment, after, rfl, fun hend => ?_⟩
        rcases List.infix_cons_iff.mp hend with hpair | hend
        · exact hfront (List.IsPrefix.trans hpair (List.prefix_append (c :: comment) _))
        · exact hclosed hend

theorem quotable_of_quoted? {quote : Char} {seen cs : List Char} {part : Part}
    (h : quoted? quote line seen cs = some part) :
    ∃ body, Quotable quote body ∧ cs = body ++ quote :: part.rest := by
  fun_induction quoted? quote line seen cs with
  | case1 | case2 => cases h
  | case3 _ _ c _ ih =>
      obtain ⟨body, hbody, rfl⟩ := ih h
      exact ⟨_, .escaped c hbody, rfl⟩
  | case4 => cases h; exact ⟨[], .nil, rfl⟩
  | case5 => cases h
  | case6 _ _ c rest hlast hescaped hc hfeed ih =>
      have hback : c ≠ '\\' := by
        rintro rfl
        cases rest with
        | nil => exact hlast rfl rfl
        | cons d rest => exact hescaped d rest rfl rfl
      obtain ⟨body, hbody, rfl⟩ := ih h
      exact ⟨_, .plain hc hback hfeed hbody, rfl⟩

theorem exists_lineQuoted (quote : Char) (text : List Char) :
    ∃ body after, text = body ++ after ∧ LineQuoted quote after body := by
  fun_induction directiveQuote quote 0 [] text with
  | case1 => exact ⟨[], [], rfl, .unclosed (by simp [LineEnd])⟩
  | case2 _ _ rest => exact ⟨[], '\n' :: rest, rfl, .unclosed (by simp [LineEnd])⟩
  | case3 _ _ _ ih =>
      obtain ⟨body, after, rfl, hbody⟩ := ih
      exact ⟨_, after, rfl, .escaped '\n' hbody⟩
  | case4 _ _ c _ _ ih =>
      obtain ⟨body, after, rfl, hbody⟩ := ih
      exact ⟨_, after, rfl, .escaped c hbody⟩
  | case5 _ _ rest => exact ⟨[quote], rest, rfl, .closed⟩
  | case6 _ _ c rest hfeed hjoined hescaped hc ih =>
      by_cases hback : c = '\\'
      · subst hback
        cases rest with
        | nil => exact ⟨['\\'], [], rfl, .last rfl⟩
        | cons d rest => exact absurd rfl (hescaped d rest rfl)
      · obtain ⟨body, after, rfl, hbody⟩ := ih
        exact ⟨_, after, rfl, .plain hc hback hfeed hbody⟩

theorem exists_line (text : List Char) :
    ∃ line after, text = line ++ after ∧ '\n' ∉ line ∧ LineEnd after := by
  refine ⟨text.takeWhile (· != '\n'), text.dropWhile (· != '\n'),
    (List.takeWhile_append_dropWhile).symm, fun hc => ?_, fun c hc => ?_⟩
  · simpa using List.all_eq_true.mp List.all_takeWhile _ hc
  · simpa using dropWhile_stops (· != '\n') text c hc

/-- A directive goes on with a part, if it goes on and leaves no comment open. -/
theorem exists_part {c : Char} {rest : List Char} (hfeed : c ≠ '\n') :
    (∃ part after, c :: rest = DirectivePart.source part ++ after ∧ part.Formed after) ∨
      ∃ after, c :: rest = '/' :: '*' :: after ∧ ¬['*', '/'] <:+: after := by
  by_cases hquote : c = '"' ∨ c = '\''
  · obtain ⟨body, after, rfl, hbody⟩ := exists_lineQuoted c rest
    exact .inl ⟨.quoted c body, after, rfl, hquote, hbody⟩
  by_cases hjoined : c = '\\' ∧ ∃ after, rest = '\n' :: after
  · obtain ⟨rfl, after, rfl⟩ := hjoined
    exact .inl ⟨.joined ['\n'], after, rfl, .inl rfl⟩
  by_cases hreturned : c = '\\' ∧ ∃ after, rest = '\r' :: '\n' :: after
  · obtain ⟨rfl, after, rfl⟩ := hreturned
    exact .inl ⟨.joined ['\r', '\n'], after, rfl, .inr rfl⟩
  by_cases hline : c = '/' ∧ ∃ after, rest = '/' :: after
  · obtain ⟨rfl, after, rfl⟩ := hline
    obtain ⟨comment, after, rfl, whole, hend⟩ := exists_line after
    exact .inl ⟨.lineComment comment, after, rfl, whole, hend⟩
  by_cases hblock : c = '/' ∧ ∃ after, rest = '*' :: after
  · obtain ⟨rfl, after, rfl⟩ := hblock
    by_cases hclosed : ['*', '/'] <:+: after
    · obtain ⟨comment, after, rfl, hcomment⟩ := exists_comment hclosed
      exact .inl ⟨.blockComment comment, after, by simp [DirectivePart.source], hcomment⟩
    · exact .inr ⟨after, rfl, hclosed⟩
  rw [not_or] at hquote
  refine .inl ⟨.char c, rest, rfl, hfeed, hquote.1, hquote.2, fun hc => ⟨fun h => ?_, ?_⟩,
    fun hc => ⟨fun h => ?_, fun h => ?_⟩⟩
  · exact hjoined ⟨hc, List.head?_eq_some_iff.mp h⟩
  · rintro ⟨after, rfl⟩
    exact hreturned ⟨hc, after, rfl⟩
  · exact hline ⟨hc, List.head?_eq_some_iff.mp h⟩
  · exact hblock ⟨hc, List.head?_eq_some_iff.mp h⟩

theorem DirectivePart.source_ne_nil (part : DirectivePart) : part.source ≠ [] := by
  cases part <;> simp [source]

theorem exists_directed (text : List Char) :
    ∃ parts after, text = parts.flatMap DirectivePart.source ++ after ∧ Directed after parts ∧
      (LineEnd after ∨ ∃ rest, after = '/' :: '*' :: rest ∧ ¬['*', '/'] <:+: rest) := by
  induction hlength : text.length using Nat.strongRecOn generalizing text with
  | ind length ih =>
      by_cases hend : LineEnd text
      · exact ⟨[], text, rfl, .nil, .inl hend⟩
      cases text with
      | nil => exact absurd (by simp [LineEnd]) hend
      | cons c rest =>
          have hfeed : c ≠ '\n' := by
            rintro rfl
            exact hend (by simp [LineEnd])
          rcases exists_part hfeed with ⟨part, after, hparts, formed⟩ | ⟨after, hopen⟩
          · have hsmaller : after.length < length := by
              have hsource := List.length_pos_of_ne_nil part.source_ne_nil
              rw [← hlength, hparts, List.length_append]
              omega
            obtain ⟨parts, last, rfl, hdirected, hlast⟩ := ih _ hsmaller after rfl
            refine ⟨part :: parts, last, ?_, .cons formed hdirected, hlast⟩
            rw [hparts, List.flatMap_cons, List.append_assoc]
          · exact ⟨[], c :: rest, rfl, .nil, .inr ⟨after, hopen⟩⟩

theorem startsNumber_takeWhile {c : Char} {rest : List Char} (h : startsNumber c rest = true) :
    startsNumber c (rest.takeWhile isNumberChar) = true := by
  cases rest with
  | nil => exact h
  | cons d rest =>
      by_cases hd : isNumberChar d = true
      · rw [List.takeWhile_cons_of_pos hd]
        exact h
      · have hdigit : d.isDigit = false := Bool.eq_false_iff.mpr fun hdigit =>
          hd (by simp [isNumberChar, Char.isAlphanum, hdigit])
        have hc : c.isDigit = true := by simpa [startsNumber, hdigit] using h
        simp [startsNumber, hc]

/-- A text begins with a piece, if it leaves nothing open. -/
theorem exists_piece (start : Bool) (line : Nat) (c : Char) (rest : List Char) :
    (∃ piece after, c :: rest = Piece.source piece ++ after ∧ piece.Formed start after) ∨
      ∃ fault, Open start line (c :: rest) fault := by
  by_cases hblank : Text.isBlank c = true
  · exact .inl ⟨.blank c, rest, rfl, hblank⟩
  by_cases hjoined : c = '\\' ∧ ∃ after, rest = '\n' :: after
  · obtain ⟨rfl, after, rfl⟩ := hjoined
    exact .inl ⟨.joined, after, rfl, trivial⟩
  by_cases hline : c = '/' ∧ ∃ after, rest = '/' :: after
  · obtain ⟨rfl, after, rfl⟩ := hline
    obtain ⟨comment, after, rfl, whole, hend⟩ := exists_line after
    exact .inl ⟨.lineComment comment, after, rfl, whole, hend⟩
  by_cases hblock : c = '/' ∧ ∃ after, rest = '*' :: after
  · obtain ⟨rfl, after, rfl⟩ := hblock
    by_cases hclosed : ['*', '/'] <:+: after
    · obtain ⟨comment, after, rfl, hcomment⟩ := exists_comment hclosed
      exact .inl ⟨.blockComment comment, after, by simp [Piece.source], hcomment⟩
    · exact .inr ⟨_, .comment hclosed⟩
  by_cases hhash : c = '#' ∧ start = true
  · obtain ⟨rfl, hstart⟩ := hhash
    obtain ⟨parts, after, rfl, hparts, hend | ⟨after, rfl, hopen⟩⟩ := exists_directed rest
    · exact .inl ⟨.directive parts, after, rfl, hstart, hparts, hend⟩
    · exact .inr ⟨_, .directive hstart hparts hopen⟩
  by_cases hquote : c = '"' ∨ c = '\''
  · by_cases hclosed : ∃ body after, Quotable c body ∧ rest = body ++ c :: after
    · obtain ⟨body, after, hbody, rfl⟩ := hclosed
      have hliteral : IsLiteral c (c :: (body ++ [c])) := ⟨body, hbody, rfl⟩
      refine .inl ?_
      rcases hquote with rfl | rfl
      · exact ⟨.token .string _, after, by simp [Piece.source], .string hliteral⟩
      · exact ⟨.token .character _, after, by simp [Piece.source], .character hliteral⟩
    · refine .inr ⟨_, .literal hquote fun body after hbody hrest => ?_⟩
      exact hclosed ⟨body, after, hbody, hrest⟩
  by_cases hstart : isNameStart c = true
  · have hname : isName (c :: rest.takeWhile isNameChar) = true := by
      rw [isName, hstart, Bool.true_and]
      exact List.all_takeWhile
    refine .inl ⟨.token .word (c :: rest.takeWhile isNameChar), rest.dropWhile isNameChar,
      by simp [Piece.source], .word hname (dropWhile_stops isNameChar rest)⟩
  by_cases hnumber : startsNumber c rest = true
  · have hinside : Lexeme.isNumber (c :: rest.takeWhile isNumberChar) = true := by
      rw [Lexeme.isNumber, startsNumber_takeWhile hnumber, Bool.true_and]
      exact List.all_takeWhile
    exact .inl ⟨.token .number (c :: rest.takeWhile isNumberChar), rest.dropWhile isNumberChar,
      by simp [Piece.source], .number hinside (dropWhile_stops isNumberChar rest)⟩
  rw [not_or] at hquote
  have hmark : BeginsMark start c rest :=
    { solid := by simpa using hblank
      unquoted := hquote
      unnamed := by simpa using hstart
      unnumbered := by simpa using hnumber
      unjoined := fun hc h => hjoined ⟨hc, List.head?_eq_some_iff.mp h⟩
      uncommented := fun hc => ⟨fun h => hline ⟨hc, List.head?_eq_some_iff.mp h⟩,
        fun h => hblock ⟨hc, List.head?_eq_some_iff.mp h⟩⟩
      undirected := fun hc => Bool.eq_false_iff.mpr fun h => hhash ⟨hc, h⟩ }
  exact .inl ⟨.token .punctuation (punct c rest).1, (punct c rest).2, (punct_parts c rest).1,
    .mark hmark⟩

theorem Open.scan_eq {text : List Char} {fault : Fault} (h : Open start line text fault) :
    scan start line count tokens text = .error fault := by
  cases h with
  | @comment rest hopen =>
      rw [scan_front]
      simp [front?, Text.isBlank, afterComment?_open hopen]
  | @directive parts rest hstart hparts hopen =>
      have hpart := hparts.directive?_eq line []
      rw [directive?] at hpart
      split at hpart
      · rename_i hafter
        rw [afterComment?_open hopen] at hafter
        cases hafter
      · rw [scan_front]
        simp [front?, Text.isBlank, hstart, hpart]
  | @literal quote rest hquote hopen =>
      have hnone : quoted? quote line [quote] rest = none := by
        refine Option.eq_none_iff_forall_not_mem.mpr fun part hpart => ?_
        obtain ⟨body, hbody, hrest⟩ := quotable_of_quoted? hpart
        exact hopen body part.rest hbody hrest
      rw [scan_front]
      rcases hquote with rfl | rfl
      · simp [front?, Text.isBlank, hnone]
      · simp [front?, Text.isBlank, hnone]

/-- What becomes of a text that follows `before`, with the tokens found there in reverse order: it is
cut to its end, or it has more tokens than a header may have, or something in it is left open. -/
inductive Outcome (before : List Char) (start : Bool) (tokens : List Token) (text : List Char) :
    Except Fault (List Token) → Prop where
  | read {pieces : List Piece} : text = pieces.flatMap Piece.source → Cut [] start pieces →
      tokens.length + (placed before pieces).length ≤ limit →
      Outcome before start tokens text (.ok (tokens.reverse ++ placed before pieces))
  | tooMany {pieces : List Piece} {rest : List Char} :
      text = pieces.flatMap Piece.source ++ rest → Cut rest start pieces →
      tokens.length + (placed before pieces).length = limit + 1 →
      Outcome before start tokens text (.error .tooMany)
  | leftOpen {pieces : List Piece} {rest : List Char} {fault : Fault} :
      text = pieces.flatMap Piece.source ++ rest → Cut rest start pieces →
      Open (pieces.foldl Piece.starts start)
        (1 + (before ++ pieces.flatMap Piece.source).count '\n') rest fault →
      Outcome before start tokens text (.error fault)

theorem placed_cons_reverse (before : List Char) (piece : Piece) (pieces : List Piece) :
    ((piece.lexeme?.map (·.onLine (1 + before.count '\n'))).toList ++ tokens).reverse ++
        placed (before ++ piece.source) pieces =
      tokens.reverse ++ placed before (piece :: pieces) := by
  rw [placed]
  cases piece.lexeme? <;> simp

theorem length_placed_cons (before : List Char) (piece : Piece) (pieces : List Piece) :
    ((piece.lexeme?.map (·.onLine (1 + before.count '\n'))).toList ++ tokens).length +
        (placed (before ++ piece.source) pieces).length =
      tokens.length + (placed before (piece :: pieces)).length := by
  rw [placed, List.length_append, List.length_append]
  omega

/-- The outcome of a text is that of what follows its first piece. -/
theorem Outcome.cons {before after : List Char} {piece : Piece} {start : Bool}
    {result : Except Fault (List Token)} (formed : piece.Formed start after)
    (h : Outcome (before ++ piece.source) (piece.starts start)
      ((piece.lexeme?.map (·.onLine (1 + before.count '\n'))).toList ++ tokens) after result) :
    Outcome before start tokens (piece.source ++ after) result := by
  cases h with
  | @read pieces htext hcut room =>
      rw [length_placed_cons] at room
      rw [placed_cons_reverse]
      refine .read (by rw [htext]; rfl) (.cons ?_ hcut) room
      rwa [List.append_nil, ← htext]
  | @tooMany pieces rest htext hcut excess =>
      rw [length_placed_cons] at excess
      refine .tooMany (by rw [htext, List.flatMap_cons, List.append_assoc]) (.cons ?_ hcut) excess
      rwa [← htext]
  | @leftOpen pieces rest fault htext hcut hopen =>
      rw [List.append_assoc] at hopen
      refine .leftOpen (by rw [htext, List.flatMap_cons, List.append_assoc]) (.cons ?_ hcut) hopen
      rwa [← htext]

theorem Piece.Formed.source_ne_nil {piece : Piece} (h : piece.Formed start rest) :
    piece.source ≠ [] := by
  cases piece with
  | token kind text =>
      obtain ⟨c, more, rfl, -⟩ := Stands.front?_eq h 0
      exact List.cons_ne_nil c more
  | _ => simp [source]

theorem scan_outcome (text : List Char) {before : List Char} (start : Bool)
    (hline : line = 1 + before.count '\n') (hcount : count = tokens.length)
    (room : tokens.length ≤ limit) :
    Outcome before start tokens text (scan start line count tokens text) := by
  induction hlength : text.length using Nat.strongRecOn
    generalizing text before start line count tokens with
  | ind length ih =>
      cases text with
      | nil =>
          have hscan : scan start line count tokens [] = .ok (tokens.reverse ++ placed before []) := by
            simp [scan, placed]
          rw [hscan]
          exact .read rfl .nil room
      | cons c rest =>
          rcases exists_piece start line c rest with ⟨piece, after, htext, formed⟩ | ⟨fault, hopen⟩
          · have hsmaller : after.length < length := by
              have hsource := List.length_pos_of_ne_nil formed.source_ne_nil
              rw [← hlength, htext, List.length_append]
              omega
            have hnext : line + piece.source.count '\n' =
                1 + (before ++ piece.source).count '\n' := by
              rw [hline, List.count_append, Nat.add_assoc]
            rw [htext, formed.scan_eq]
            cases hlexeme : piece.lexeme? with
            | none =>
                refine .cons formed ?_
                rw [hlexeme]
                exact ih _ hsmaller after _ hnext hcount room rfl
            | some lexeme =>
                by_cases hroom : count < limit
                · simp only [if_pos hroom]
                  refine .cons formed ?_
                  rw [hlexeme, ← hline]
                  have hone : tokens.length + 1 ≤ limit := by omega
                  exact ih _ hsmaller after _ hnext (by rw [hcount]; rfl) hone rfl
                · simp only [if_neg hroom]
                  have htoken : (placed before [piece]).length = 1 := by simp [placed, hlexeme]
                  have hpieces : piece.source ++ after = [piece].flatMap Piece.source ++ after := by
                    rw [List.flatMap_singleton]
                  exact .tooMany hpieces (.cons formed .nil) (by omega)
          · rw [hopen.scan_eq]
            refine .leftOpen rfl .nil ?_
            rwa [List.flatMap_nil, List.append_nil, ← hline]

theorem ofChars?_outcome (text : List Char) : Outcome [] true [] text (ofChars? text) :=
  scan_outcome text true rfl rfl (Nat.zero_le limit)

/-- No token stands on a line before the one where its pieces begin. -/
theorem line_of_placed {before : List Char} {pieces : List Piece} :
    ∀ token ∈ placed before pieces, 1 + before.count '\n' ≤ token.line := by
  induction pieces generalizing before with
  | nil => simp [placed]
  | cons piece pieces ih =>
      intro token hmem
      rcases List.mem_append.mp hmem with h | h
      · obtain ⟨lexeme, -, rfl⟩ := Option.map_eq_some_iff.mp (Option.mem_toList.mp h)
        exact Nat.le_refl _
      · have hlater := ih token h
        rw [List.count_append] at hlater
        omega

theorem placed_sorted (before : List Char) (pieces : List Piece) :
    (placed before pieces).Pairwise (·.line ≤ ·.line) := by
  induction pieces generalizing before with
  | nil => simp [placed]
  | cons piece pieces ih =>
      rw [placed, List.pairwise_append]
      refine ⟨by cases piece.lexeme? <;> simp, ih _, fun first hfirst later hlater => ?_⟩
      obtain ⟨lexeme, -, rfl⟩ := Option.map_eq_some_iff.mp (Option.mem_toList.mp hfirst)
      have hline := line_of_placed later hlater
      rw [List.count_append] at hline
      exact Nat.le_trans (Nat.le_add_right _ _) (by rwa [← Nat.add_assoc] at hline)

/-- Why a header has no tokens: its bytes are no text, or its text is cut up to a token too many or up
to a comment or a literal that is left open. -/
inductive Rejected (bytes : List UInt8) : Fault → Prop where
  | notUtf8 (fault : Text.Utf8.Fault) : (∀ text, Text.Utf8.encode text ≠ bytes) →
      Rejected bytes (.notUtf8 fault)
  | tooMany {pieces : List Piece} {rest : List Char} :
      Text.Utf8.encode (pieces.flatMap Piece.source ++ rest) = bytes → Cut rest true pieces →
      (placed [] pieces).length = limit + 1 → Rejected bytes .tooMany
  | leftOpen {pieces : List Piece} {rest : List Char} {fault : Fault} :
      Text.Utf8.encode (pieces.flatMap Piece.source ++ rest) = bytes → Cut rest true pieces →
      Open (pieces.foldl Piece.starts true) (1 + (pieces.flatMap Piece.source).count '\n') rest
        fault →
      Rejected bytes fault

/-- Nothing of a header is lost, invented or moved. Its tokens are those of the pieces that its text
consists of, each on the line where its piece begins, and no line comes after a later one. Without
tokens, it is rejected for one of three reasons. -/
theorem ofBytes?_cut (bytes : List UInt8) :
    match ofBytes? bytes with
    | .ok tokens => ∃ pieces, Text.Utf8.encode (pieces.flatMap Piece.source) = bytes ∧
        Cut [] true pieces ∧ tokens = placed [] pieces ∧ tokens.length ≤ limit ∧
        tokens.Pairwise (·.line ≤ ·.line)
    | .error fault => Rejected bytes fault := by
  rw [ofBytes?]
  cases hdecode : Text.Utf8.decode? bytes with
  | error fault =>
      refine .notUtf8 fault fun text htext => ?_
      rw [← htext, Text.Utf8.decode?_encode] at hdecode
      cases hdecode
  | ok text =>
      have hencode := Text.Utf8.encode_of_decode? hdecode
      have houtcome := ofChars?_outcome text
      simp only
      generalize ofChars? text = result at houtcome ⊢
      cases houtcome with
      | @read pieces htext hcut room =>
          rw [List.length_nil, Nat.zero_add] at room
          exact ⟨pieces, htext ▸ hencode, hcut, rfl, room, placed_sorted [] pieces⟩
      | @tooMany pieces rest htext hcut excess =>
          rw [List.length_nil, Nat.zero_add] at excess
          exact .tooMany (htext ▸ hencode) hcut excess
      | @leftOpen pieces rest fault htext hcut hopen =>
          exact .leftOpen (htext ▸ hencode) hcut hopen

end LibSurvey.Token
