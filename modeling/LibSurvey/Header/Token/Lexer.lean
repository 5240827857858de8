import LibSurvey.Header.Token
import LibSurvey.Text.Blank
import LibSurvey.Word

/-!
The tokens of a text. `front?` reads what stands at the front of a text and always leaves less of
it, which is the lemma that ends the loop. Comments, blanks and joined lines are gaps and leave no
token.
-/

namespace LibSurvey.Token

def afterLine (cs : List Char) : List Char :=
  cs.dropWhile (· != '\n')

/-- The line after a character that stands on a given line. -/
def lineAfter (line : Nat) (c : Char) : Nat :=
  if c = '\n' then line + 1 else line

/-- What follows a block comment already open, with its line. -/
def afterComment? (line : Nat) : List Char → Option (Nat × List Char)
  | [] => none
  | '*' :: '/' :: rest => some (line, rest)
  | c :: rest => afterComment? (lineAfter line c) rest

/-- A part of a text that was read: its characters, the line after it and what is left. -/
structure Part where
  text : List Char
  line : Nat
  rest : List Char

/-- The rest of a literal up to its closing quote; `seen` is what was read of it, reversed. -/
def quoted? (quote : Char) (line : Nat) (seen : List Char) : List Char → Option Part
  | [] => none
  | ['\\'] => none
  | '\\' :: c :: rest => quoted? quote (lineAfter line c) (c :: '\\' :: seen) rest
  | c :: rest =>
    if c = quote then some ⟨(c :: seen).reverse, line, rest⟩
    else if c = '\n' then none
    else quoted? quote line (c :: seen) rest

/-- The rest of a quoted part of a directive, which the end of the line ends too. Its text is given
reversed; a line feed after a backslash is left out. -/
def directiveQuote (quote : Char) (line : Nat) (seen : List Char) : List Char → Part
  | [] => ⟨seen, line, []⟩
  | '\n' :: rest => ⟨seen, line, '\n' :: rest⟩
  | '\\' :: '\n' :: rest => directiveQuote quote (line + 1) ('\\' :: seen) rest
  | '\\' :: c :: rest => directiveQuote quote line (c :: '\\' :: seen) rest
  | c :: rest =>
    if c = quote then ⟨c :: seen, line, rest⟩ else directiveQuote quote line (c :: seen) rest

theorem length_afterLine_le (cs : List Char) : (afterLine cs).length ≤ cs.length :=
  (List.dropWhile_suffix _).length_le

theorem length_afterComment {line : Nat} {cs : List Char} {found : Nat × List Char}
    (h : afterComment? line cs = some found) : found.2.length < cs.length := by
  fun_induction afterComment? line cs with
  | case1 => simp at h
  | case2 => cases h; simp only [List.length_cons]; omega
  | case3 _ _ _ _ ih => have := ih h; simp only [List.length_cons]; omega

theorem length_quoted {quote : Char} {line : Nat} {seen cs : List Char} {part : Part}
    (h : quoted? quote line seen cs = some part) : part.rest.length < cs.length := by
  fun_induction quoted? quote line seen cs with
  | case1 | case2 => simp at h
  | case3 _ _ _ _ ih => have := ih h; simp only [List.length_cons]; omega
  | case4 => cases h; simp
  | case5 => simp at h
  | case6 _ _ _ _ _ _ _ _ ih => have := ih h; simp only [List.length_cons]; omega

theorem length_directiveQuote_le (quote : Char) (line : Nat) (seen cs : List Char) :
    (directiveQuote quote line seen cs).rest.length ≤ cs.length := by
  fun_induction directiveQuote quote line seen cs with
  | case1 | case2 => simp
  | case3 _ _ _ ih | case4 _ _ _ _ _ ih => simp only [List.length_cons]; omega
  | case5 => simp
  | case6 _ _ _ _ _ _ _ ih => simp only [List.length_cons]; omega

/-- The rest of a logical directive line: joined lines and block comments become a space, a line
comment is dropped. The text is given reversed. -/
def directive? (line : Nat) (seen : List Char) : List Char → Except Fault Part
  | [] => .ok ⟨seen, line, []⟩
  | '\n' :: rest => .ok ⟨seen, line, '\n' :: rest⟩
  | '\\' :: '\n' :: rest => directive? (line + 1) (' ' :: seen) rest
  | '\\' :: '\r' :: '\n' :: rest => directive? (line + 1) (' ' :: seen) rest
  | '/' :: '/' :: rest => directive? line seen (afterLine rest)
  | '/' :: '*' :: rest =>
    match _h : afterComment? line rest with
    | some (line, after) => directive? line (' ' :: seen) after
    | none => .error (.openComment line)
  | c :: rest =>
    if c = '"' || c = '\'' then
      match _h : directiveQuote c line (c :: seen) rest with
      | ⟨text, next, after⟩ => directive? next text after
    else directive? line (c :: seen) rest
termination_by cs => cs.length
decreasing_by
  · simp only [List.length_cons]; omega
  · simp only [List.length_cons]; omega
  · have := length_afterLine_le rest; simp only [List.length_cons]; omega
  · have := length_afterComment _h; simp only [List.length_cons] at *; omega
  · have hq := length_directiveQuote_le c line (c :: seen) rest
    rw [_h] at hq
    simp only [List.length_cons] at hq ⊢; omega
  · simp

theorem length_directive_le {line : Nat} {seen cs : List Char} {part : Part}
    (h : directive? line seen cs = .ok part) : part.rest.length ≤ cs.length := by
  fun_induction directive? line seen cs with
  | case1 | case2 => cases h; simp
  | case3 _ _ _ ih | case4 _ _ _ ih => have := ih h; simp only [List.length_cons]; omega
  | case5 _ _ rest ih =>
    have := ih h
    have := length_afterLine_le rest
    simp only [List.length_cons]
    omega
  | case6 _ _ _ _ _ hc ih =>
    have := ih h
    have := length_afterComment hc
    simp only [List.length_cons] at *
    omega
  | case7 => simp at h
  | case8 line seen c rest _ _ _ _ _ _ _ _ _ hq ih =>
    have := ih h
    have hd := length_directiveQuote_le c line (c :: seen) rest
    rw [hq] at hd
    simp only [List.length_cons] at hd ⊢; omega
  | case9 _ _ _ _ _ _ _ _ _ _ ih => have := ih h; simp only [List.length_cons]; omega

/-- The longest mark of punctuation at the front of a text. -/
def punct (c : Char) (rest : List Char) : List Char × List Char :=
  match c, rest with
  | '.', '.' :: '.' :: rest => (['.', '.', '.'], rest)
  | '#', '#' :: rest => (['#', '#'], rest)
  | '<', '<' :: rest => (['<', '<'], rest)
  | '>', '>' :: rest => (['>', '>'], rest)
  | '-', '>' :: rest => (['-', '>'], rest)
  | ':', ':' :: rest => ([':', ':'], rest)
  | c, rest => ([c], rest)

def isNumberChar (c : Char) : Bool :=
  c.isAlphanum || c = '.' || c = '_'

/-- Whether a number starts here: at a digit, or at a dot before one. -/
def startsNumber (c : Char) (rest : List Char) : Bool :=
  c.isDigit || (c = '.' && (rest.head?.map Char.isDigit).getD false)

/-- What stands at the front of a text. The lines are those after it. -/
inductive Front where
  | lineEnd
  | gap (line : Nat)
  | token (kind : Kind) (text : List Char) (line : Nat)

/-- Reads the front of a text of at least one character; `lineStart` says that nothing but gaps
stands before it on its line, so that a `#` begins a directive. -/
def front? (lineStart : Bool) (line : Nat) (c : Char) (rest : List Char) :
    Except Fault (Front × List Char) :=
  if c = '\n' then .ok (.lineEnd, rest)
  else if Text.isBlank c then .ok (.gap line, rest)
  else if c = '\\' && rest.head? = some '\n' then .ok (.gap (line + 1), rest.tail)
  else if c = '/' && rest.head? = some '/' then .ok (.gap line, afterLine rest)
  else if c = '/' && rest.head? = some '*' then
    match afterComment? line rest.tail with
    | some (line, after) => .ok (.gap line, after)
    | none => .error (.openComment line)
  else if c = '#' && lineStart then
    match directive? line [] rest with
    | .ok part => .ok (.token .directive (Text.trim part.text.reverse) part.line, part.rest)
    | .error fault => .error fault
  else if c = '"' || c = '\'' then
    match quoted? c line [c] rest with
    | some part =>
      .ok (.token (if c = '"' then .string else .character) part.text part.line, part.rest)
    | none => .error (.openLiteral line)
  else if isNameStart c then
    .ok (.token .word (c :: rest.takeWhile isNameChar) line, rest.dropWhile isNameChar)
  else if startsNumber c rest then
    .ok (.token .number (c :: rest.takeWhile isNumberChar) line, rest.dropWhile isNumberChar)
  else
    .ok (.token .punctuation (punct c rest).1 line, (punct c rest).2)

theorem length_punct_le (c : Char) (rest : List Char) :
    (punct c rest).2.length ≤ rest.length := by
  unfold punct
  split <;> simp only [List.length_cons, Nat.le_refl] <;> omega

theorem length_front {lineStart : Bool} {line : Nat} {c : Char} {rest : List Char}
    {found : Front × List Char} (h : front? lineStart line c rest = .ok found) :
    found.2.length ≤ rest.length := by
  have htail : rest.tail.length ≤ rest.length := by simp
  revert h
  unfold front?
  repeat' refine iteInduction (motive := fun read : Except Fault (Front × List Char) =>
    read = .ok found → found.2.length ≤ rest.length) (fun _ => ?_) (fun _ => ?_)
  · rintro ⟨⟩
    exact Nat.le_refl _
  · rintro ⟨⟩
    exact Nat.le_refl _
  · rintro ⟨⟩
    exact htail
  · rintro ⟨⟩
    exact length_afterLine_le rest
  · cases hafter : afterComment? line rest.tail with
    | none => nofun
    | some after =>
      rintro ⟨⟩
      exact Nat.le_trans (Nat.le_of_lt (length_afterComment hafter)) htail
  · cases hpart : directive? line [] rest with
    | error fault => nofun
    | ok part =>
      rintro ⟨⟩
      exact length_directive_le hpart
  · cases hpart : quoted? c line [c] rest with
    | none => nofun
    | some part =>
      rintro ⟨⟩
      exact Nat.le_of_lt (length_quoted hpart)
  · rintro ⟨⟩
    exact (List.dropWhile_suffix _).length_le
  · rintro ⟨⟩
    exact (List.dropWhile_suffix _).length_le
  · rintro ⟨⟩
    exact length_punct_le c rest

/-- The tokens of what is left of a text; `tokens` are those before it, last first, and `count` is
their number. -/
def scan (lineStart : Bool) (line count : Nat) (tokens : List Token) :
    List Char → Except Fault (List Token)
  | [] => .ok tokens.reverse
  | c :: rest =>
    match h : front? lineStart line c rest with
    | .error fault => .error fault
    | .ok (.lineEnd, after) => scan true (line + 1) count tokens after
    | .ok (.gap line, after) => scan lineStart line count tokens after
    | .ok (.token kind text next, after) =>
      if count < limit then
        scan (kind = .directive) next (count + 1) (⟨kind, String.ofList text, line⟩ :: tokens) after
      else .error .tooMany
termination_by cs => cs.length
decreasing_by
  all_goals have := length_front h; simp only [List.length_cons] at *; omega

def ofChars? (text : List Char) : Except Fault (List Token) :=
  scan true 1 0 [] text

/-- The tokens of a header as it is stored. -/
def ofBytes? (bytes : List UInt8) : Except Fault (List Token) :=
  match Text.Utf8.decode? bytes with
  | .ok text => ofChars? text
  | .error fault => .error (.notUtf8 fault)

end LibSurvey.Token
