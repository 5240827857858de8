import LibSurvey.Proofs.Text.Utf8
import LibSurvey.Proofs.Token.Lexeme

/-!
Lexemes of every kind but directives, printed with blanks and comments between them, are read back
as they are. Which comments stand between them and how many lines they take does not matter, except
that a `#` on a fresh line begins a directive. Directives themselves remain a separate obligation.
-/

namespace LibSurvey

def Token.lexeme (token : Token) : Lexeme :=
  ⟨token.kind, token.text⟩

namespace Lexeme

/-- What stands between the quotes of a literal: a backslash keeps any one character after it, and a
quote or line feed must not stand there without one. -/
inductive Quotable (quote : Char) : List Char → Prop where
  | nil : Quotable quote []
  | plain {c : Char} {rest : List Char} : c ≠ quote → c ≠ '\\' → c ≠ '\n' →
      Quotable quote rest → Quotable quote (c :: rest)
  | escaped (c : Char) {rest : List Char} :
      Quotable quote rest → Quotable quote ('\\' :: c :: rest)

def IsLiteral (quote : Char) (text : List Char) : Prop :=
  ∃ body, Quotable quote body ∧ text = quote :: (body ++ [quote])

/-- The marks of several characters. -/
def longMarks : List String :=
  ["...", "##", "<<", ">>", "->", "::"]

/-- A character that no other lexeme begins with. -/
def isMarkChar (c : Char) : Bool :=
  !Text.isBlank c && c ≠ '"' && c ≠ '\'' && !isNameStart c && !c.isDigit && c ≠ '\\'

/-- The lexemes of all kinds but directives. -/
inductive Sound : Lexeme → Prop where
  | word {text : String} : isName text.toList = true → Sound (.word text)
  | number {text : String} : isNumber text.toList = true → Sound (.number text)
  | string {text : String} : IsLiteral '"' text.toList → Sound ⟨.string, text⟩
  | character {text : String} : IsLiteral '\'' text.toList → Sound ⟨.character, text⟩
  | longMark {text : String} : text ∈ longMarks → Sound (.mark text)
  | mark {c : Char} : isMarkChar c = true → Sound (.mark (String.singleton c))

/-- A mark that would begin a directive on a fresh line. -/
def IsHash (lexeme : Lexeme) : Prop :=
  lexeme = .mark "#" ∨ lexeme = .mark "##"

/-- Blanks and closed comments in any order. A text that `breaks` has a line feed outside its block
comments. -/
inductive Filler : (breaks : Bool) → List Char → Prop where
  | nil : Filler false []
  | blank {breaks : Bool} {c : Char} {rest : List Char} : Text.isBlank c = true →
      Filler breaks rest → Filler (decide (c = '\n') || breaks) (c :: rest)
  | block {breaks : Bool} {comment rest : List Char} : ¬['*', '/'] <:+: comment →
      Filler breaks rest → Filler breaks ('/' :: '*' :: (comment ++ '*' :: '/' :: rest))
  | line {breaks : Bool} {comment rest : List Char} : '\n' ∉ comment →
      Filler breaks rest → Filler true ('/' :: '/' :: (comment ++ '\n' :: rest))

/-- What separates two lexemes: blanks and comments, a blank first. -/
def Separator (breaks : Bool) (text : List Char) : Prop :=
  Filler breaks text ∧ ∃ c ∈ text.head?, Text.isBlank c = true

/-- A text of lexemes in order with a separator after each but the last. No `#` stands first on a
line where the text is `fresh` or a separator breaks the line. -/
inductive Printed : (fresh : Bool) → List Lexeme → List Char → Prop where
  | nil {fresh : Bool} : Printed fresh [] []
  | last {fresh : Bool} {lexeme : Lexeme} : lexeme.Sound → (fresh = true → ¬lexeme.IsHash) →
      Printed fresh [lexeme] lexeme.text.toList
  | cons {fresh breaks : Bool} {lexeme : Lexeme} {lexemes : List Lexeme} {gap rest : List Char} :
      lexeme.Sound → (fresh = true → ¬lexeme.IsHash) → Separator breaks gap →
      Printed breaks lexemes rest →
      Printed fresh (lexeme :: lexemes) (lexeme.text.toList ++ (gap ++ rest))

/-- What follows a lexeme is a separator, if anything. -/
def Apart (rest : List Char) : Prop :=
  ∀ c ∈ rest.head?, Text.isBlank c = true

variable {rest : List Char}

/-- A character of a class without blanks does not follow a lexeme. -/
theorem Apart.outside (apart : Apart rest) {p : Char → Bool}
    (h : ∀ c, p c = true → Text.isBlank c = false) : ∀ c ∈ rest.head?, p c = false := by
  intro c hc
  refine Bool.eq_false_iff.mpr fun hp => ?_
  have hblank := apart c hc
  rw [h c hp] at hblank
  exact Bool.noConfusion hblank

theorem Apart.head?_ne (apart : Apart rest) {c : Char} (h : Text.isBlank c = false) :
    rest.head? ≠ some c := by
  intro hc
  have hblank := apart c hc
  rw [h] at hblank
  exact Bool.noConfusion hblank

theorem Separator.apart {breaks : Bool} {gap : List Char} (h : Separator breaks gap)
    (rest : List Char) : Apart (gap ++ rest) := by
  obtain ⟨-, c, hc, hblank⟩ := h
  cases gap with
  | nil => exact absurd hc (by simp)
  | cons d gap =>
      cases hc
      rintro e ⟨⟩
      exact hblank

theorem Sound.not_directive {lexeme : Lexeme} (sound : lexeme.Sound) :
    lexeme.kind ≠ .directive := by
  cases sound <;> simp [Lexeme.word, Lexeme.number, Lexeme.mark]

end Lexeme

namespace Token
open Lexeme (Apart Filler IsLiteral Printed Quotable Separator Sound isMarkChar longMarks)

variable {rest : List Char}

theorem lineAfter_add (line : Nat) (c : Char) (text : List Char) :
    lineAfter line c + text.count '\n' = line + (c :: text).count '\n' := by
  rw [lineAfter, List.count_cons]
  simp only [beq_iff_eq]
  split <;> omega

theorem quoted?_quotable {quote : Char} (hquote : quote ≠ '\\') {body : List Char}
    (h : Quotable quote body) (line : Nat) (seen rest : List Char) :
    quoted? quote line seen (body ++ quote :: rest) =
      some ⟨seen.reverse ++ (body ++ [quote]), line + body.count '\n', rest⟩ := by
  induction h generalizing line seen with
  | nil =>
      rw [List.nil_append, quoted?]
      · simp
      · exact fun h _ => hquote h
      · exact fun _ _ h _ => hquote h
  | @plain c body hc hback hfeed _ ih =>
      rw [List.cons_append, quoted?, if_neg hc, if_neg hfeed, ih, List.count_cons_of_ne hfeed]
      · simp
      · exact fun h _ => hback h
      · exact fun _ _ h _ => hback h
  | @escaped c body _ ih =>
      rw [List.cons_append, List.cons_append, quoted?, ih, lineAfter_add]
      simp

theorem front?_literal {quote : Char} (hquote : quote = '"' ∨ quote = '\'') {text : List Char}
    (h : IsLiteral quote text) (rest : List Char) (start : Bool) (line : Nat) :
    ∃ c more, text = c :: more ∧ front? start line c (more ++ rest) =
      .ok (.token (if quote = '"' then .string else .character) text
        (line + text.count '\n'), rest) := by
  obtain ⟨body, hbody, rfl⟩ := h
  have hnext := quoted?_quotable (by rcases hquote with rfl | rfl <;> decide) hbody line
    [quote] rest
  refine ⟨quote, body ++ [quote], rfl, ?_⟩
  have htext : body ++ [quote] ++ rest = body ++ quote :: rest := by simp
  rw [htext]
  rcases hquote with rfl | rfl
  · simp [front?, Text.isBlank, hnext]
  · simp [front?, Text.isBlank, hnext]

theorem punct_apart (c : Char) (apart : Apart rest) : punct c rest = ([c], rest) := by
  unfold punct
  split
  · exact absurd rfl (apart.head?_ne (c := '.') (by decide))
  · exact absurd rfl (apart.head?_ne (c := '#') (by decide))
  · exact absurd rfl (apart.head?_ne (c := '<') (by decide))
  · exact absurd rfl (apart.head?_ne (c := '>') (by decide))
  · exact absurd rfl (apart.head?_ne (c := '>') (by decide))
  · exact absurd rfl (apart.head?_ne (c := ':') (by decide))
  · rfl

theorem startsNumber_apart {c : Char} (hdigit : c.isDigit = false) (apart : Apart rest) :
    startsNumber c rest = false := by
  have hnone : (rest.head?.map Char.isDigit).getD false = false := by
    cases h : rest.head? with
    | none => rfl
    | some d =>
        refine apart.outside (p := Char.isDigit) (fun c hc => isBlank_of_isNumberChar ?_) d h
        simp [isNumberChar, Char.isAlphanum, hc]
  simp [startsNumber, hdigit, hnone]

theorem front?_mark {c : Char} (h : isMarkChar c = true) (apart : Apart rest) {start : Bool}
    (hash : start = true → c ≠ '#') (line : Nat) :
    front? start line c rest = .ok (.token .punctuation [c] line, rest) := by
  simp only [isMarkChar, Bool.and_eq_true, Bool.not_eq_true', decide_eq_true_eq] at h
  obtain ⟨⟨⟨⟨⟨hblank, hdouble⟩, hsingle⟩, hstart⟩, hdigit⟩, hback⟩ := h
  have hfeed : c ≠ '\n' := by rintro rfl; exact absurd hblank (by decide)
  have hline : rest.head? ≠ some '/' := apart.head?_ne (by decide)
  have hblock : rest.head? ≠ some '*' := apart.head?_ne (by decide)
  have hdirective : (decide (c = '#') && start) = false := by
    cases start with
    | false => simp
    | true => simpa using hash rfl
  simp [front?, hfeed, hblank, hback, hline, hblock, hdirective, hdouble, hsingle, hstart,
    startsNumber_apart hdigit apart, punct_apart c apart]

/-- A sound lexeme is read from the front of a text if a separator or nothing follows it. -/
theorem front?_sound {lexeme : Lexeme} (sound : lexeme.Sound) (apart : Apart rest) {start : Bool}
    (hash : start = true → ¬lexeme.IsHash) (line : Nat) :
    ∃ c more next, lexeme.text.toList = c :: more ∧
      front? start line c (more ++ rest) =
        .ok (.token lexeme.kind lexeme.text.toList next, rest) := by
  cases sound with
  | word hname =>
      obtain ⟨c, more, htext, hfront⟩ := front?_word hname
        (apart.outside fun c hc => isBlank_of_isNameChar hc) start line
      exact ⟨c, more, line, htext, hfront⟩
  | number hnumber =>
      obtain ⟨c, more, htext, hfront⟩ := front?_number hnumber
        (apart.outside fun c hc => isBlank_of_isNumberChar hc) start line
      exact ⟨c, more, line, htext, hfront⟩
  | string hliteral =>
      obtain ⟨c, more, htext, hfront⟩ := front?_literal (.inl rfl) hliteral rest start line
      exact ⟨c, more, _, htext, hfront⟩
  | character hliteral =>
      obtain ⟨c, more, htext, hfront⟩ := front?_literal (.inr rfl) hliteral rest start line
      exact ⟨c, more, _, htext, hfront⟩
  | longMark hmark =>
      simp only [longMarks, List.mem_cons, List.not_mem_nil, or_false] at hmark
      rcases hmark with rfl | rfl | rfl | rfl | rfl | rfl
      case inr.inl =>
        obtain rfl : start = false := Bool.eq_false_iff.mpr fun h => hash h (.inr rfl)
        exact ⟨'#', ['#'], line, rfl, rfl⟩
      all_goals
        refine ⟨_, _, line, rfl, ?_⟩
        rw [front?_plain (by decide) (by decide)]
        rfl
  | @mark c hmark =>
      refine ⟨c, [], line, by simp [Lexeme.mark], ?_⟩
      have htext : (Lexeme.mark (String.singleton c)).text.toList = [c] := by simp [Lexeme.mark]
      rw [List.nil_append, htext]
      refine front?_mark hmark apart (fun hfresh hc => hash hfresh (.inl ?_)) line
      rw [hc]
      rfl

variable (start : Bool) (line count : Nat) (tokens : List Token)

theorem scan_sound {lexeme : Lexeme} (sound : lexeme.Sound) (apart : Apart rest)
    (hash : start = true → ¬lexeme.IsHash) (room : count < limit) :
    ∃ next, scan start line count tokens (lexeme.text.toList ++ rest) =
      scan false next (count + 1) (lexeme.onLine line :: tokens) rest := by
  obtain ⟨c, more, next, htext, hfront⟩ := front?_sound sound apart hash line
  refine ⟨next, ?_⟩
  have hkind : (lexeme.kind = .directive) = False := eq_false sound.not_directive
  rw [htext, List.cons_append, scan_front, hfront]
  simp only [hkind, decide_false, String.ofList_toList, if_pos room]
  rfl

theorem afterComment?_append {comment : List Char} (closed : ¬['*', '/'] <:+: comment)
    (line : Nat) (rest : List Char) :
    afterComment? line (comment ++ '*' :: '/' :: rest) =
      some (line + comment.count '\n', rest) := by
  induction comment generalizing line with
  | nil => rw [List.nil_append, afterComment?]; rfl
  | cons c comment ih =>
      have hinner : ¬['*', '/'] <:+: comment :=
        fun h => closed (h.trans (List.suffix_cons c comment).isInfix)
      rw [List.cons_append, afterComment?, ih hinner, lineAfter_add]
      -- The first star before a slash is the one after the comment.
      rintro after rfl hafter
      cases comment with
      | nil => simp at hafter
      | cons d comment =>
          obtain ⟨rfl, -⟩ := List.cons.inj hafter
          exact closed (List.prefix_append ['*', '/'] comment).isInfix

theorem afterLine_append {comment : List Char} (h : '\n' ∉ comment) (rest : List Char) :
    afterLine (comment ++ '\n' :: rest) = '\n' :: rest := by
  refine Text.dropWhile_front (fun c hc => ?_) (by simp)
  simp only [bne_iff_ne, ne_eq]
  rintro rfl
  exact h hc

/-- Blanks and comments leave no token; the line is fresh after them if they break it. -/
theorem scan_filler {breaks : Bool} {gap : List Char} (h : Filler breaks gap) (rest : List Char) :
    ∃ next, scan start line count tokens (gap ++ rest) =
      scan (start || breaks) next count tokens rest := by
  induction h generalizing start line with
  | nil => exact ⟨line, by simp⟩
  | @blank breaks c gap hblank _ ih =>
      rw [List.cons_append]
      by_cases hfeed : c = '\n'
      · subst hfeed
        obtain ⟨next, hnext⟩ := ih true (line + 1)
        exact ⟨next, by rw [scan_lineEnd, hnext]; simp⟩
      · obtain ⟨next, hnext⟩ := ih start line
        have hfront : front? start line c (gap ++ rest) = .ok (.gap line, gap ++ rest) := by
          simp [front?, hfeed, hblank]
        exact ⟨next, by rw [scan_front, hfront]; simpa [hfeed] using hnext⟩
  | @block breaks comment gap closed _ ih =>
      have hafter := afterComment?_append closed line (gap ++ rest)
      obtain ⟨next, hnext⟩ := ih start (line + comment.count '\n')
      have hfront : front? start line '/' ('*' :: (comment ++ '*' :: '/' :: (gap ++ rest))) =
          .ok (.gap (line + comment.count '\n'), gap ++ rest) := by
        simp [front?, Text.isBlank, hafter]
      refine ⟨next, ?_⟩
      rw [← hnext]
      simp only [List.cons_append, List.append_assoc]
      rw [scan_front, hfront]
  | @line breaks comment gap whole _ ih =>
      obtain ⟨next, hnext⟩ := ih true (line + 1)
      have hfront : front? start line '/' ('/' :: (comment ++ '\n' :: (gap ++ rest))) =
          .ok (.gap line, '\n' :: (gap ++ rest)) := by
        have hskip : afterLine ('/' :: (comment ++ '\n' :: (gap ++ rest))) =
            '\n' :: (gap ++ rest) := by
          refine @afterLine_append ('/' :: comment) ?_ (gap ++ rest)
          simpa using whole
        simp [front?, Text.isBlank, hskip]
      refine ⟨next, ?_⟩
      simp only [List.cons_append, List.append_assoc]
      rw [scan_front, hfront]
      simp only
      rw [scan_lineEnd, hnext]
      simp

/-- A printed text is read as its lexemes, if there is room for all of them. -/
theorem scan_printed {fresh : Bool} {lexemes : List Lexeme} {text : List Char}
    (h : Printed fresh lexemes text) (room : count + lexemes.length ≤ limit) :
    ∃ found, scan fresh line count tokens text = .ok (tokens.reverse ++ found) ∧
      found.map lexeme = lexemes := by
  induction h generalizing line count tokens with
  | nil => exact ⟨[], by simp [scan]⟩
  | @last fresh lexeme sound hash =>
      rw [List.length_singleton] at room
      have apart : Apart [] := by simp [Apart]
      obtain ⟨next, hscan⟩ := scan_sound fresh line count tokens sound apart hash (by omega)
      rw [List.append_nil] at hscan
      exact ⟨[lexeme.onLine line], by rw [hscan]; simp [scan], rfl⟩
  | @cons fresh breaks lexeme lexemes gap rest sound hash separator _ ih =>
      rw [List.length_cons] at room
      obtain ⟨next, hlexeme⟩ :=
        scan_sound fresh line count tokens sound (separator.apart rest) hash (by omega)
      obtain ⟨after, hgap⟩ := scan_filler false next (count + 1) (lexeme.onLine line :: tokens)
        separator.1 rest
      obtain ⟨found, hfound, hmap⟩ := ih after (count + 1) (lexeme.onLine line :: tokens) (by omega)
      rw [Bool.false_or] at hgap
      refine ⟨lexeme.onLine line :: found, ?_, by rw [List.map_cons, hmap]; rfl⟩
      rw [hlexeme, hgap, hfound]
      simp

/-- Lexemes that are printed in any such way, at most as many as a header may have, are read back in
order from the stored text. -/
theorem ofBytes?_printed {lexemes : List Lexeme} {text : List Char}
    (printed : Printed true lexemes text) (room : lexemes.length ≤ limit) :
    ∃ tokens, ofBytes? (Text.Utf8.encode text) = .ok tokens ∧ tokens.map lexeme = lexemes := by
  obtain ⟨found, hscan, hmap⟩ := scan_printed 1 0 [] printed (by omega)
  refine ⟨found, ?_, hmap⟩
  rw [ofBytes?, Text.Utf8.decode?_encode]
  exact hscan

/-- A `#` after a comment of two lines, and a literal after a line comment. -/
theorem ofBytes?_printed_comments :
    ∃ tokens, ofBytes? (Text.Utf8.encode "a /*\n*/# .5 //b\n'\\''".toList) = .ok tokens ∧
      tokens.map lexeme = [.word "a", .mark "#", .number ".5", ⟨.character, "'\\''"⟩] := by
  have twoLines : Filler false ['/', '*', '\n', '*', '/'] :=
    @Filler.block false ['\n'] [] (by decide) .nil
  have note : Filler true ['/', '/', 'b', '\n'] := @Filler.line false ['b'] [] (by decide) .nil
  have afterWord : Separator false [' ', '/', '*', '\n', '*', '/'] :=
    ⟨@Filler.blank false ' ' _ (by decide) twoLines, ' ', rfl, by decide⟩
  have afterHash : Separator false [' '] :=
    ⟨@Filler.blank false ' ' _ (by decide) .nil, ' ', rfl, by decide⟩
  have afterNumber : Separator true [' ', '/', '/', 'b', '\n'] :=
    ⟨@Filler.blank true ' ' _ (by decide) note, ' ', rfl, by decide⟩
  have literal : IsLiteral '\'' "'\\''".toList := ⟨_, .escaped '\'' .nil, rfl⟩
  refine ofBytes?_printed ?_ (by decide)
  exact .cons (.word (by decide)) (by simp [Lexeme.IsHash, Lexeme.word, Lexeme.mark]) afterWord
    (.cons (.mark (c := '#') (by decide)) (by simp) afterHash
      (.cons (.number (by decide)) (by simp) afterNumber
        (.last (.character literal) (by simp [Lexeme.IsHash, Lexeme.mark]))))

end Token
end LibSurvey
