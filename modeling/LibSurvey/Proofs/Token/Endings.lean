import LibSurvey.Header.Declarations
import LibSurvey.Proofs.Text.Lines
import LibSurvey.Proofs.Token.Cut

/-!
Headers with a carriage return before each line feed. Blanks, comments and directives that go on after
a backslash are read alike; only a line that is continued between two tokens, in a literal or in what
a directive quotes is not.
-/

namespace LibSurvey.Token
open Lexeme (Gap)

/-- A text with a carriage return before each line feed. -/
def withReturns (text : List Char) : List Char :=
  text.flatMap fun c => if c = '\n' then ['\r', '\n'] else [c]

/-- A part of a directive that quotes no line feed and, where it joins two lines, has no carriage
return yet. -/
def DirectivePart.Plain : DirectivePart → Prop
  | .joined ending => ending = ['\n']
  | .quoted _ text => '\n' ∉ text
  | _ => True

/-- A piece that continues no line outside a directive, nor within what a directive quotes. -/
def Piece.Plain : Piece → Prop
  | .joined => False
  | .directive parts => ∀ part ∈ parts, part.Plain
  | .token _ text => '\n' ∉ text
  | _ => True

@[simp] theorem withReturns_nil : withReturns [] = [] := rfl

@[simp] theorem withReturns_feed (text : List Char) :
    withReturns ('\n' :: text) = '\r' :: '\n' :: withReturns text := rfl

theorem withReturns_cons {c : Char} (h : c ≠ '\n') (text : List Char) :
    withReturns (c :: text) = c :: withReturns text := by
  rw [withReturns, List.flatMap_cons, if_neg h]
  rfl

@[simp] theorem withReturns_append (a b : List Char) :
    withReturns (a ++ b) = withReturns a ++ withReturns b :=
  List.flatMap_append

theorem withReturns_line {text : List Char} (h : '\n' ∉ text) : withReturns text = text := by
  induction text with
  | nil => rfl
  | cons c text ih =>
      rw [List.mem_cons, not_or] at h
      rw [withReturns_cons (Ne.symm h.1), ih h.2]

@[simp] theorem count_withReturns (text : List Char) :
    (withReturns text).count '\n' = text.count '\n' := by
  induction text with
  | nil => rfl
  | cons c text ih =>
      by_cases hc : c = '\n'
      · subst hc
        simp [ih]
      · rw [withReturns_cons hc, List.count_cons_of_ne hc, List.count_cons_of_ne hc, ih]

/-- A text with carriage returns begins with one or as it did. -/
theorem head?_withReturns (text : List Char) :
    (withReturns text).head? = if text.head? = some '\n' then some '\r' else text.head? := by
  cases text with
  | nil => rfl
  | cons c text =>
      by_cases hc : c = '\n'
      · subst hc
        rfl
      · rw [withReturns_cons hc]
        simp [hc]

/-- What stops at the end of a line stops before the carriage return there. -/
theorem stops_withReturns {p : Char → Bool} (hreturn : p '\r' = false) {rest : List Char}
    (h : ∀ c ∈ rest.head?, p c = false) : ∀ c ∈ (withReturns rest).head?, p c = false := by
  intro c hc
  rw [head?_withReturns] at hc
  split at hc
  · cases hc
    exact hreturn
  · exact h c hc

theorem not_prefix_withReturns {rest : List Char} (h : rest.head? ≠ some '\n') :
    ¬['\r', '\n'] <+: withReturns rest := by
  cases rest with
  | nil => simp
  | cons c rest =>
      have hc : c ≠ '\n' := fun hc => h (by rw [hc]; rfl)
      rw [withReturns_cons hc]
      intro hpair
      obtain ⟨-, hfeed⟩ := List.cons_prefix_cons.mp hpair
      have hhead := head?_withReturns rest
      obtain ⟨more, hmore⟩ := hfeed
      rw [← hmore] at hhead
      split at hhead
      · cases hhead
      · rename_i hne
        exact hne hhead.symm

theorem closed_withReturns {text : List Char} (h : ¬['*', '/'] <:+: text) :
    ¬['*', '/'] <:+: withReturns text := by
  induction text with
  | nil => exact h
  | cons c text ih =>
      rw [List.infix_cons_iff, not_or] at h
      by_cases hc : c = '\n'
      · subst hc
        simpa [List.infix_cons_iff] using ih h.2
      · rw [withReturns_cons hc, List.infix_cons_iff, not_or]
        refine ⟨fun hpair => ?_, ih h.2⟩
        obtain ⟨rfl, hslash⟩ := List.cons_prefix_cons.mp hpair
        obtain ⟨more, hmore⟩ := hslash
        have hhead := head?_withReturns text
        rw [← hmore] at hhead
        split at hhead
        · cases hhead
        · obtain ⟨after, rfl⟩ := List.head?_eq_some_iff.mp hhead.symm
          exact h.1 (List.prefix_append ['*', '/'] after)

/-- The carriage return at the end of a line, if there is one, and what follows it. -/
structure Return (rest gap after : List Char) : Prop where
  parts : withReturns rest = gap ++ after
  gap : gap = [] ∨ gap = ['\r']
  lineEnd : LineEnd after

theorem exists_return {rest : List Char} (h : LineEnd rest) : ∃ gap after, Return rest gap after := by
  cases rest with
  | nil => exact ⟨[], [], rfl, .inl rfl, by simp [LineEnd]⟩
  | cons c rest =>
      obtain rfl : c = '\n' := h c rfl
      exact ⟨['\r'], '\n' :: withReturns rest, rfl, .inr rfl, by simp [LineEnd]⟩

variable {rest gap after : List Char}

theorem Return.blanks (h : Return rest gap after) : Gap gap := by
  rcases h.gap with rfl | rfl
  · exact Lexeme.gap_nil
  · simp [Gap, Text.isBlank]

theorem Return.whole (h : Return rest gap after) : '\n' ∉ gap :=
  fun hc => (h.blanks _ hc).2 rfl

/-- A quote that the end of the line leaves open takes in the carriage return. -/
theorem LineQuoted.returned {quote : Char} (hquote : quote = '"' ∨ quote = '\'')
    {text : List Char} (h : LineQuoted quote rest text) (whole : '\n' ∉ text) :
    LineQuoted quote (withReturns rest) text ∨
      LineEnd rest ∧ ∀ gap after, Return rest gap after → LineQuoted quote after (text ++ gap) := by
  induction h with
  | closed => exact .inl .closed
  | unclosed hend =>
      refine .inr ⟨hend, fun gap after hreturn => ?_⟩
      rcases hreturn.gap with rfl | rfl
      · exact .unclosed hreturn.lineEnd
      · have hreturned : '\r' ≠ quote := by rcases hquote with rfl | rfl <;> decide
        exact .plain hreturned (by decide) (by decide) (.unclosed hreturn.lineEnd)
  | plain hc hback hfeed _ ih =>
      rw [List.mem_cons, not_or] at whole
      rcases ih whole.2 with h | ⟨hend, h⟩
      · exact .inl (.plain hc hback hfeed h)
      · exact .inr ⟨hend, fun gap after hreturn => .plain hc hback hfeed (h gap after hreturn)⟩
  | escaped c _ ih =>
      simp only [List.mem_cons, not_or] at whole
      rcases ih whole.2.2 with h | ⟨hend, h⟩
      · exact .inl (.escaped c h)
      · exact .inr ⟨hend, fun gap after hreturn => .escaped c (h gap after hreturn)⟩
  | last hrest =>
      subst hrest
      exact .inl (.last rfl)

/-- With carriage returns a part of a directive is one with the same text; only the last part of the
line may end with a carriage return more. -/
theorem DirectivePart.Formed.returned {part : DirectivePart} (formed : part.Formed rest)
    (plain : part.Plain) :
    (∃ other : DirectivePart, other.Formed (withReturns rest) ∧
      other.source = withReturns part.source ∧ other.text = part.text) ∨
    LineEnd rest ∧ ∀ gap after, Return rest gap after → ∃ (other : DirectivePart) (extra : List Char),
      other.Formed after ∧ other.source = withReturns part.source ++ gap ∧
      other.text = part.text ++ extra ∧ Text.Blanks extra := by
  cases part with
  | char c =>
      obtain ⟨hfeed, hdouble, hsingle, hjoined, hcomment⟩ := formed
      refine .inl ⟨.char c, ⟨hfeed, hdouble, hsingle, fun hc => ⟨?_, ?_⟩, fun hc => ?_⟩, ?_, rfl⟩
      · rw [head?_withReturns]
        split
        · simp
        · exact (hjoined hc).1
      · exact not_prefix_withReturns (hjoined hc).1
      · rw [head?_withReturns]
        split
        · simp
        · exact hcomment hc
      · exact (withReturns_cons hfeed []).symm
  | joined ending =>
      obtain rfl : ending = ['\n'] := plain
      exact .inl ⟨.joined ['\r', '\n'], .inr rfl, rfl, rfl⟩
  | lineComment text =>
      obtain ⟨whole, hend⟩ := formed
      refine .inr ⟨hend, fun gap after hreturn =>
        ⟨.lineComment (text ++ gap), [], ⟨?_, ?_⟩, ?_, rfl, ?_⟩⟩
      · exact List.not_mem_append whole hreturn.whole
      · exact hreturn.lineEnd
      · rw [source, source, withReturns_cons (by decide), withReturns_cons (by decide),
          withReturns_line whole]
        rfl
      · simp [Text.Blanks]
  | blockComment text =>
      refine .inl ⟨.blockComment (withReturns text), closed_withReturns formed, ?_, rfl⟩
      rw [source, source, withReturns_cons (by decide), withReturns_cons (by decide),
        withReturns_append]
      rfl
  | quoted quote text =>
      obtain ⟨hquote, htext⟩ := formed
      have hfeed : quote ≠ '\n' := by rcases hquote with rfl | rfl <;> decide
      have whole : '\n' ∉ text := plain
      have hsource : withReturns (source (.quoted quote text)) = quote :: text := by
        rw [source, withReturns_cons hfeed, withReturns_line whole]
      rcases htext.returned hquote whole with h | ⟨hend, h⟩
      · exact .inl ⟨.quoted quote text, ⟨hquote, h⟩, hsource.symm, rfl⟩
      · refine .inr ⟨hend, fun gap after hreturn => ⟨.quoted quote (text ++ gap), gap,
          ⟨hquote, h gap after hreturn⟩, by rw [hsource]; rfl, ?_, fun c hc => ?_⟩⟩
        · have hgap : gap.filter (· ≠ '\n') = gap :=
            List.filter_eq_self.mpr fun c hc => by simpa using (hreturn.blanks c hc).2
          rw [DirectivePart.text, DirectivePart.text, List.filter_append, hgap]
          rfl
        · exact (hreturn.blanks c hc).1

theorem Directed.eq_nil_of_lineEnd {parts : List DirectivePart} (h : Directed rest parts)
    (hend : LineEnd (parts.flatMap DirectivePart.source ++ rest)) : parts = [] := by
  cases h with
  | nil => rfl
  | @cons part parts formed _ =>
      cases part with
      | char c => exact absurd (hend c rfl) formed.1
      | joined ending => exact absurd (hend '\\' rfl) (by decide)
      | lineComment text => exact absurd (hend '/' rfl) (by decide)
      | blockComment text => exact absurd (hend '/' rfl) (by decide)
      | quoted quote text =>
          have hfeed : quote = '\n' := hend quote rfl
          rcases formed.1 with rfl | rfl <;> exact absurd hfeed (by decide)

/-- A directive with carriage returns has the same text up to blanks at its end. -/
theorem Directed.directive?_returned {parts : List DirectivePart} (h : Directed rest parts)
    (plain : ∀ part ∈ parts, part.Plain) (hreturn : Return rest gap after) (line : Nat)
    (seen : List Char) :
    ∃ extra, Text.Blanks extra ∧
      directive? line seen (withReturns (parts.flatMap DirectivePart.source ++ rest)) =
        .ok ⟨(parts.flatMap DirectivePart.text ++ extra).reverse ++ seen,
          line + (parts.flatMap DirectivePart.source).count '\n', after⟩ := by
  induction h generalizing line seen with
  | nil =>
      refine ⟨gap, fun c hc => (hreturn.blanks c hc).1, ?_⟩
      rw [List.flatMap_nil, List.nil_append, hreturn.parts]
      rcases hreturn.gap with rfl | rfl
      · exact directive?_lineEnd hreturn.lineEnd line seen
      · have formed : (DirectivePart.char '\r').Formed after := by simp [DirectivePart.Formed]
        have hchar := formed.directive?_eq line seen
        rw [DirectivePart.source] at hchar
        rw [hchar, directive?_lineEnd hreturn.lineEnd]
        rfl
  | @cons part parts formed directed ih =>
      obtain ⟨hpart, hparts⟩ := List.forall_mem_cons.mp plain
      rw [List.flatMap_cons, List.append_assoc, withReturns_append]
      rcases formed.returned hpart with ⟨other, hother, hsource, htext⟩ | ⟨hend, hlast⟩
      · obtain ⟨extra, hextra, hdirective⟩ := ih hparts (line + other.source.count '\n')
          (other.text.reverse ++ seen)
        refine ⟨extra, hextra, ?_⟩
        rw [← hsource, hother.directive?_eq, hdirective, hsource, count_withReturns, htext]
        simp [Nat.add_assoc]
      · obtain rfl := directed.eq_nil_of_lineEnd hend
        obtain ⟨other, extra, hother, hsource, htext, hextra⟩ := hlast gap after hreturn
        refine ⟨extra, hextra, ?_⟩
        rw [List.flatMap_nil, List.nil_append, hreturn.parts, ← List.append_assoc, ← hsource,
          hother.directive?_eq, directive?_lineEnd hreturn.lineEnd, hsource, htext]
        simp [List.count_eq_zero.mpr hreturn.whole]

theorem startsNumber_withReturns (c : Char) (rest : List Char) :
    startsNumber c (withReturns rest) = startsNumber c rest := by
  rw [startsNumber, startsNumber, head?_withReturns]
  split
  · rename_i h
    rw [h]
    rfl
  · rfl

theorem cons_of_withReturns {d : Char} {text : List Char} (h : withReturns rest = d :: text)
    (hreturn : d ≠ '\r') : ∃ more, rest = d :: more ∧ withReturns more = text := by
  cases rest with
  | nil => cases h
  | cons c rest =>
      by_cases hc : c = '\n'
      · subst hc
        exact absurd (List.cons.inj h).1.symm hreturn
      · rw [withReturns_cons hc] at h
        obtain ⟨rfl, rfl⟩ := List.cons.inj h
        exact ⟨rest, rfl, rfl⟩

/-- No mark of several characters reaches over the end of a line. -/
theorem punct_withReturns (c : Char) (rest : List Char) :
    punct c (withReturns rest) = ((punct c rest).1, withReturns (punct c rest).2) := by
  rw [punct.eq_def c rest]
  split
  case h_7 hdots hhashes hless hgreater harrow hcolons =>
    unfold punct
    split
    · rename_i h
      obtain ⟨more, rfl, hmore⟩ := cons_of_withReturns h (by decide)
      obtain ⟨last, rfl, -⟩ := cons_of_withReturns hmore (by decide)
      exact (hdots last rfl rfl).elim
    · rename_i h
      obtain ⟨more, rfl, -⟩ := cons_of_withReturns h (by decide)
      exact (hhashes more rfl rfl).elim
    · rename_i h
      obtain ⟨more, rfl, -⟩ := cons_of_withReturns h (by decide)
      exact (hless more rfl rfl).elim
    · rename_i h
      obtain ⟨more, rfl, -⟩ := cons_of_withReturns h (by decide)
      exact (hgreater more rfl rfl).elim
    · rename_i h
      obtain ⟨more, rfl, -⟩ := cons_of_withReturns h (by decide)
      exact (harrow more rfl rfl).elim
    · rename_i h
      obtain ⟨more, rfl, -⟩ := cons_of_withReturns h (by decide)
      exact (hcolons more rfl rfl).elim
    · rfl
  case h_1 => rw [withReturns_cons (by decide), withReturns_cons (by decide)]; rfl
  all_goals rw [withReturns_cons (by decide)]; rfl

theorem BeginsMark.returned {start : Bool} {c : Char} (h : BeginsMark start c rest) :
    BeginsMark start c (withReturns rest) where
  solid := h.solid
  unquoted := h.unquoted
  unnamed := h.unnamed
  unnumbered := by rw [startsNumber_withReturns, h.unnumbered]
  unjoined := fun hc => by
    rw [head?_withReturns]
    split
    · simp
    · exact h.unjoined hc
  uncommented := fun hc => by
    rw [head?_withReturns]
    split
    · simp
    · exact h.uncommented hc
  undirected := h.undirected

theorem Stands.returned {start : Bool} {kind : Kind} {text : List Char}
    (h : Stands start kind text rest) : Stands start kind text (withReturns rest) := by
  cases h with
  | word hname ends => exact .word hname (stops_withReturns (by decide) ends)
  | number hnumber ends => exact .number hnumber (stops_withReturns (by decide) ends)
  | string hliteral => exact .string hliteral
  | character hliteral => exact .character hliteral
  | @mark c rest hmark =>
      have hreturned := Stands.mark hmark.returned
      rwa [punct_withReturns] at hreturned

/-- A piece that continues no line is read as before. -/
theorem Piece.Formed.steps_withReturns {start : Bool} {piece : Piece}
    (formed : piece.Formed start rest) (plain : piece.Plain) :
    piece.Steps withReturns start rest := by
  intro line count tokens
  rw [withReturns_append]
  cases piece with
  | blank c =>
      by_cases hc : c = '\n'
      · subst hc
        have hreturn : Gap ['\r'] := by simp [Gap, Text.isBlank]
        have hsource : withReturns (source (.blank '\n')) = ['\r'] ++ ['\n'] := rfl
        rw [hsource, List.append_assoc, scan_gap hreturn, List.singleton_append, scan_lineEnd]
        simp [lexeme?, starts, source]
      · have hblank : (Piece.blank c).Formed start (withReturns rest) := formed
        rw [source, withReturns_line (by simpa using Ne.symm hc)]
        exact hblank.scan_eq
  | joined => exact absurd plain id
  | lineComment text =>
      obtain ⟨whole, hend⟩ := formed
      obtain ⟨gap, after, hreturn⟩ := exists_return hend
      have hcomment : (Piece.lineComment (text ++ gap)).Formed start after :=
        ⟨List.not_mem_append whole hreturn.whole, hreturn.lineEnd⟩
      have hsource : withReturns (source (.lineComment text)) ++ gap =
          source (.lineComment (text ++ gap)) := by
        rw [source, withReturns_line (by simpa using whole)]
        rfl
      rw [hreturn.parts, ← List.append_assoc, hsource, hcomment.scan_eq]
      simp only [lexeme?, starts, scan_gap hreturn.blanks]
      simp [source, List.count_eq_zero.mpr whole, List.count_eq_zero.mpr hreturn.whole]
  | blockComment text =>
      have hcomment : (Piece.blockComment (withReturns text)).Formed start (withReturns rest) :=
        closed_withReturns formed
      have hsource : withReturns (source (.blockComment text)) =
          source (.blockComment (withReturns text)) := by
        rw [source, withReturns_cons (by decide), withReturns_cons (by decide), withReturns_append]
        rfl
      rw [hsource, hcomment.scan_eq, ← hsource, count_withReturns]
      rfl
  | directive parts =>
      obtain ⟨rfl, directed, hend⟩ := formed
      obtain ⟨gap, after, hreturn⟩ := exists_return hend
      obtain ⟨extra, hextra, hpart⟩ := directed.directive?_returned plain hreturn line []
      rw [withReturns_append] at hpart
      rw [source, withReturns_cons (by decide), List.cons_append, scan_front]
      simp only [lexeme?, starts, scan_gap hreturn.blanks, hreturn.parts] at hpart ⊢
      simp [front?, Text.isBlank, hpart, Lexeme.onLine, Text.trim_append_blanks _ hextra]
  | token kind text =>
      have hstands : (Piece.token kind text).Formed start (withReturns rest) :=
        Stands.returned formed
      rw [source, withReturns_line plain]
      exact hstands.scan_eq

/-- With carriage returns a text is read as the same tokens on the same lines. -/
theorem ofBytes?_returned {pieces : List Piece} (cut : Cut [] true pieces)
    (plain : ∀ piece ∈ pieces, piece.Plain) :
    ofBytes? (Text.Utf8.encode (withReturns (pieces.flatMap Piece.source))) =
      ofBytes? (Text.Utf8.encode (pieces.flatMap Piece.source)) := by
  have hline : 1 = 1 + ([] : List Char).count '\n' := rfl
  have hscan : ofChars? (withReturns (pieces.flatMap Piece.source)) = _ :=
    cut.scan_write withReturns rfl
      (fun piece hpiece _ _ formed => formed.steps_withReturns (plain piece hpiece)) hline
      (Nat.zero_le limit)
  rw [Nat.zero_add] at hscan
  rw [ofBytes?, ofBytes?, Text.Utf8.decode?_encode, Text.Utf8.decode?_encode]
  simp only
  rw [hscan, ofChars?_cut cut]
  rfl

end LibSurvey.Token

namespace LibSurvey.Declarations
open Token (Cut Directed DirectivePart Piece withReturns)

variable {annotations : Annotations} {text : List Char} {emissions : List Emission}

theorem exists_cut (accepted : ofBytes? annotations (Text.Utf8.encode text) = .ok emissions) :
    ∃ pieces, Cut [] true pieces ∧ pieces.flatMap Piece.source = text := by
  have houtcome := Token.ofChars?_outcome text
  rw [ofBytes?, Token.ofBytes?, Text.Utf8.decode?_encode] at accepted
  simp only at accepted
  generalize Token.ofChars? text = result at houtcome accepted
  cases houtcome with
  | read htext cut _ => exact ⟨_, cut, htext.symm⟩
  | tooMany => cases accepted
  | leftOpen => cases accepted

/-- An accepted text can be cut into pieces. If it continues lines only within directives, and there
not within quotes, it declares the same with carriage returns. -/
theorem ofBytes?_withReturns
    (accepted : ofBytes? annotations (Text.Utf8.encode text) = .ok emissions) :
    (∃ pieces, Cut [] true pieces ∧ pieces.flatMap Piece.source = text) ∧
      ∀ pieces, Cut [] true pieces → pieces.flatMap Piece.source = text →
        (∀ piece ∈ pieces, piece.Plain) →
        ofBytes? annotations (Text.Utf8.encode (withReturns text)) = .ok emissions := by
  refine ⟨exists_cut accepted, fun pieces cut htext plain => ?_⟩
  subst htext
  rw [ofBytes?, Token.ofBytes?_returned cut plain]
  exact accepted

theorem directed_chars {chars rest : List Char} {parts : List DirectivePart}
    (h : ∀ c ∈ chars, c ∉ ['\n', '"', '\'', '\\', '/']) (directed : Directed rest parts) :
    Directed rest (chars.map .char ++ parts) := by
  induction chars with
  | nil => exact directed
  | cons c chars ih =>
      obtain ⟨hc, hchars⟩ := List.forall_mem_cons.mp h
      simp only [List.mem_cons, List.not_mem_nil, or_false, not_or] at hc
      obtain ⟨hfeed, hdouble, hsingle, hback, hslash⟩ := hc
      exact .cons ⟨hfeed, hdouble, hsingle, fun h => absurd h hback, fun h => absurd h hslash⟩
        (ih hchars)

/-- A directive that goes on after a backslash, a line comment and a prototype. -/
theorem ofBytes?_withReturns_define :
    let pieces : List Piece :=
      [.directive ("define A ".toList.map .char ++ [.joined ['\n'], .char '1']), .blank '\n',
        .token .word "int".toList, .lineComment " b".toList, .blank '\n', .token .word "f".toList,
        .token .punctuation ['('], .token .punctuation [')'], .token .punctuation [';']]
    let text := "#define A \\\n1\nint// b\nf();".toList
    let emissions : List Emission := [.constant "A" "1", .function "f" ⟨"int", []⟩]
    ofBytes? ⟨[]⟩ (Text.Utf8.encode text) = .ok emissions ∧ Cut [] true pieces ∧
      pieces.flatMap Piece.source = text ∧ (∀ piece ∈ pieces, piece.Plain) ∧
      ofBytes? ⟨[]⟩ (Text.Utf8.encode (withReturns text)) = .ok emissions := by
  intro pieces text emissions
  have accepted : ofBytes? ⟨[]⟩ (Text.Utf8.encode text) = .ok emissions := by decide +kernel
  have feed (rest : List Char) : Token.LineEnd ('\n' :: rest) := by
    rintro c ⟨⟩
    rfl
  have directed : Directed "\nint// b\nf();".toList
      ("define A ".toList.map .char ++ [.joined ['\n'], .char '1']) := by
    have one : (DirectivePart.char '1').Formed "\nint// b\nf();".toList := by
      simp [DirectivePart.Formed]
    exact directed_chars (by simp) (.cons (.inl rfl) (.cons one .nil))
  have mark {c : Char} (hc : c ∈ ['(', ')', ';']) (rest : List Char) :
      Piece.Formed false rest (.token .punctuation [c]) := by
    simp only [List.mem_cons, List.not_mem_nil, or_false] at hc
    have begins : Token.BeginsMark false c rest := by
      rcases hc with rfl | rfl | rfl <;> exact .of_isMarkChar (by decide) (by decide)
    rcases hc with rfl | rfl | rfl <;> exact .mark begins
  have cut : Cut [] true pieces := by
    refine .cons ⟨rfl, directed, feed _⟩ (.cons rfl (.cons ?_ (.cons ?_ (.cons rfl (.cons ?_
      (.cons (mark (by decide) _) (.cons (mark (by decide) _) (.cons (mark (by decide) _) .nil))))))))
    · exact .word (by decide) (by rintro c ⟨⟩; rfl)
    · exact ⟨by decide, feed _⟩
    · exact .word (by decide) (by rintro c ⟨⟩; rfl)
  have htext : pieces.flatMap Piece.source = text := by decide
  have plain : ∀ piece ∈ pieces, piece.Plain := by
    simp only [pieces, List.forall_mem_cons, List.not_mem_nil, false_imp_iff, implies_true, and_true,
      Piece.Plain, true_and]
    exact ⟨by simp [DirectivePart.Plain], by decide⟩
  exact ⟨accepted, cut, htext, plain, (ofBytes?_withReturns accepted).2 pieces cut htext plain⟩

/-- A line continued between two tokens, in a literal and within the quotes of a directive. -/
theorem returns_misread :
    let spaced := "int \\\nf(void);\n".toList
    let quoted := "char *s = \"a\\\nb\";\nint f(void);\n".toList
    let defined := "#define A F(\"x\\\ny\")\nint f(void);\n".toList
    '\r' ∉ spaced ++ quoted ++ defined ∧
      ofBytes? ⟨[]⟩ (Text.Utf8.encode spaced) = .ok [.function "f" ⟨"int", []⟩] ∧
      ofBytes? ⟨[]⟩ (Text.Utf8.encode (withReturns spaced)) = .ok [] ∧
      ofBytes? ⟨[]⟩ (Text.Utf8.encode quoted) = .ok [.function "f" ⟨"int", []⟩] ∧
      ofBytes? ⟨[]⟩ (Text.Utf8.encode (withReturns quoted)) =
        .error (.tokens (.openLiteral 1)) ∧
      ofBytes? ⟨[]⟩ (Text.Utf8.encode defined) =
        .ok [.constant "A" "F(\"x\\y\")", .function "f" ⟨"int", []⟩] ∧
      ofBytes? ⟨[]⟩ (Text.Utf8.encode (withReturns defined)) =
        .error (.tokens (.openLiteral 2)) := by
  decide +kernel

end LibSurvey.Declarations
