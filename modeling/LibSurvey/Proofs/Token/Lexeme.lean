import LibSurvey.Header.Token.Lexer
import LibSurvey.Proofs.Text.Front
import LibSurvey.Proofs.Word

/-!
Lexemes, which are tokens without their lines, and the texts of one line that they are written as.
Gaps may stand anywhere; a word or a number has to end before what follows it. Reading such a text
gives its lexemes again, or fails where there are more of them than a header may have.
-/

namespace LibSurvey

/-- A token without the line it stands on. -/
structure Lexeme where
  kind : Token.Kind
  text : String
deriving DecidableEq, Repr

namespace Lexeme

def onLine (line : Nat) (lexeme : Lexeme) : Token :=
  ⟨lexeme.kind, lexeme.text, line⟩

def word (text : String) : Lexeme :=
  ⟨.word, text⟩

def number (text : String) : Lexeme :=
  ⟨.number, text⟩

def mark (text : String) : Lexeme :=
  ⟨.punctuation, text⟩

/-- Marks that no character after them belongs to. -/
def marks : List String :=
  ["(", ")", "[", "]", "*", ",", ";", "..."]

def isNumber : List Char → Bool
  | [] => false
  | c :: rest => Token.startsNumber c rest && rest.all Token.isNumberChar

inductive Formed : Lexeme → Prop where
  | word {text : String} : isName text.toList = true → Formed (.word text)
  | number {text : String} : isNumber text.toList = true → Formed (.number text)
  | mark {text : String} : text ∈ marks → Formed (.mark text)

/-- What follows does not continue the lexeme. -/
def Ends (lexeme : Lexeme) (rest : List Char) : Prop :=
  match lexeme.kind with
  | .word => ∀ c ∈ rest.head?, isNameChar c = false
  | .number => ∀ c ∈ rest.head?, Token.isNumberChar c = false
  | _ => True

/-- Blanks within a line. -/
def Gap (text : List Char) : Prop :=
  ∀ c ∈ text, Text.isBlank c = true ∧ c ≠ '\n'

/-- A text within a line that is made of these lexemes in order. -/
inductive Written : List Lexeme → List Char → Prop where
  | nil {gap : List Char} : Gap gap → Written [] gap
  | cons {gap : List Char} {lexeme : Lexeme} {lexemes : List Lexeme} {rest : List Char} :
      Gap gap → lexeme.Formed → lexeme.Ends rest → Written lexemes rest →
      Written (lexeme :: lexemes) (gap ++ (lexeme.text.toList ++ rest))

/-- No word or number goes on here. -/
def Stops (rest : List Char) : Prop :=
  ∀ c ∈ rest.head?, Token.isNumberChar c = false

theorem isNumberChar_of_isNameChar {c : Char} (h : isNameChar c = true) :
    Token.isNumberChar c = true := by
  simp only [isNameChar, Bool.or_eq_true, decide_eq_true_eq] at h
  rcases h with h | h <;> simp [Token.isNumberChar, h]

/-- What ends a number ends a name. -/
theorem isNameChar_of_not_isNumberChar {c : Char} (h : Token.isNumberChar c = false) :
    isNameChar c = false :=
  Bool.eq_false_iff.mpr fun hname => by
    rw [isNumberChar_of_isNameChar hname] at h
    exact Bool.noConfusion h

theorem ends_of_stops {rest : List Char} (h : Stops rest) (lexeme : Lexeme) :
    lexeme.Ends rest := by
  unfold Ends
  split
  · exact fun c hc => isNameChar_of_not_isNumberChar (h c hc)
  · exact h
  · trivial

/-- Nothing that ends before the end of a text reaches into what stops it. -/
theorem ends_append {lexeme : Lexeme} {text rest : List Char} (ends : lexeme.Ends text)
    (h : Stops rest) : lexeme.Ends (text ++ rest) := by
  cases text with
  | nil => exact ends_of_stops h lexeme
  | cons c text => exact ends

theorem gap_append {a b : List Char} (ha : Gap a) (hb : Gap b) : Gap (a ++ b) := by
  intro c hc
  rcases List.mem_append.mp hc with h | h
  · exact ha c h
  · exact hb c h

theorem written_gap {lexemes : List Lexeme} {text gap : List Char} (hgap : Gap gap)
    (h : Written lexemes text) : Written lexemes (gap ++ text) := by
  cases h with
  | nil hrest => exact .nil (gap_append hgap hrest)
  | cons hbefore formed ends hrest =>
      rw [← List.append_assoc]
      exact .cons (gap_append hgap hbefore) formed ends hrest

theorem written_append {a b : List Lexeme} {x y : List Char} (hx : Written a x) (hy : Written b y)
    (stops : Stops y) : Written (a ++ b) (x ++ y) := by
  induction hx with
  | nil hgap => exact written_gap hgap hy
  | cons hgap formed ends _ ih =>
      rw [List.append_assoc, List.append_assoc]
      exact .cons hgap formed (ends_append ends stops) ih

theorem stops_cons {c : Char} (h : Token.isNumberChar c = false) (rest : List Char) :
    Stops (c :: rest) := by
  rintro d ⟨⟩
  exact h

theorem gap_nil : Gap [] := by
  simp [Gap]

theorem gap_space : Gap [' '] := by
  simp [Gap, Text.isBlank]

theorem stops_nil : Stops [] := by
  simp [Stops]

theorem written_nil : Written [] [] :=
  .nil gap_nil

theorem written_one {lexeme : Lexeme} {rest : List Char} {lexemes : List Lexeme}
    (formed : lexeme.Formed) (ends : lexeme.Ends rest) (h : Written lexemes rest) :
    Written (lexeme :: lexemes) (lexeme.text.toList ++ rest) :=
  .cons gap_nil formed ends h

theorem written_mark (text : String) (h : text ∈ marks) {rest : List Char}
    {lexemes : List Lexeme} (hrest : Written lexemes rest) :
    Written (.mark text :: lexemes) (text.toList ++ rest) :=
  written_one (.mark h) trivial hrest

end Lexeme

namespace Token
open Lexeme (Gap Written)

/-- A class of characters leaves out what begins anything but a word, a number or a mark. -/
theorem front?_plain {start : Bool} {line : Nat} {c : Char} {rest : List Char}
    (h : c ∉ ['\n', '\\', '/', '#', '"', '\'']) (blank : Text.isBlank c = false) :
    front? start line c rest =
      if isNameStart c then
        .ok (.token .word (c :: rest.takeWhile isNameChar) line, rest.dropWhile isNameChar)
      else if startsNumber c rest then
        .ok (.token .number (c :: rest.takeWhile isNumberChar) line, rest.dropWhile isNumberChar)
      else .ok (.token .punctuation (punct c rest).1 line, (punct c rest).2) := by
  simp only [List.mem_cons, List.not_mem_nil, or_false, not_or] at h
  obtain ⟨hfeed, hback, hslash, hhash, hdouble, hsingle⟩ := h
  simp [front?, hfeed, hback, hslash, hhash, hdouble, hsingle, blank]

theorem not_mem_of_class {p : Char → Bool} {c : Char} {chars : List Char} (h : p c = true)
    (hp : chars.any p = false) : c ∉ chars :=
  fun hc => List.any_eq_false.mp hp c hc h

theorem isBlank_of_isNumberChar {c : Char} (h : isNumberChar c = true) :
    Text.isBlank c = false := by
  simp only [isNumberChar, Bool.or_eq_true, decide_eq_true_eq] at h
  rcases h with (h | rfl) | rfl
  · exact isBlank_of_isNameChar (by simp [isNameChar, h])
  · decide
  · decide

theorem isNumberChar_of_startsNumber {c : Char} {rest : List Char}
    (h : startsNumber c rest = true) : isNumberChar c = true := by
  simp only [startsNumber, Bool.or_eq_true, Bool.and_eq_true, decide_eq_true_eq] at h
  rcases h with h | ⟨rfl, _⟩
  · simp [isNumberChar, Char.isAlphanum, h]
  · decide

theorem isNumberChar_of_isNumber {text : List Char} (h : Lexeme.isNumber text = true) {c : Char}
    (hc : c ∈ text) : isNumberChar c = true := by
  cases text with
  | nil => cases hc
  | cons d text =>
      rw [Lexeme.isNumber, Bool.and_eq_true, List.all_eq_true] at h
      rcases List.mem_cons.mp hc with rfl | hc
      · exact isNumberChar_of_startsNumber h.1
      · exact h.2 c hc

theorem front?_word {text rest : List Char} (hname : isName text = true)
    (ends : ∀ c ∈ rest.head?, isNameChar c = false) (start : Bool) (line : Nat) :
    ∃ c more, text = c :: more ∧
      front? start line c (more ++ rest) = .ok (.token .word text line, rest) := by
  cases text with
  | nil => exact absurd hname (by decide)
  | cons c more =>
      rw [isName, Bool.and_eq_true, List.all_eq_true] at hname
      refine ⟨c, more, rfl, ?_⟩
      rw [front?_plain (not_mem_of_class hname.1 rfl)
          (isBlank_of_isNameChar (isNameChar_of_isNameStart hname.1)), if_pos hname.1,
        Text.takeWhile_front hname.2 ends, Text.dropWhile_front hname.2 ends]

theorem not_isNameStart_of_startsNumber {c : Char} {rest : List Char}
    (h : startsNumber c rest = true) : isNameStart c = false := by
  refine Bool.eq_false_iff.mpr fun hstart => ?_
  have hdigit := not_isDigit_of_isNameStart hstart
  have hdot : c ≠ '.' := by rintro rfl; exact absurd hstart (by decide)
  simp [startsNumber, hdigit, hdot] at h

theorem startsNumber_append {c : Char} {more : List Char} (h : startsNumber c more = true)
    (rest : List Char) : startsNumber c (more ++ rest) = true := by
  cases more with
  | nil =>
      have hdigit : c.isDigit = true := by simpa [startsNumber] using h
      simp [startsNumber, hdigit]
  | cons d more => exact h

theorem front?_number {text rest : List Char} (hnumber : Lexeme.isNumber text = true)
    (ends : ∀ c ∈ rest.head?, isNumberChar c = false) (start : Bool) (line : Nat) :
    ∃ c more, text = c :: more ∧
      front? start line c (more ++ rest) = .ok (.token .number text line, rest) := by
  cases text with
  | nil => exact absurd hnumber (by decide)
  | cons c more =>
      rw [Lexeme.isNumber, Bool.and_eq_true, List.all_eq_true] at hnumber
      have hc := isNumberChar_of_startsNumber hnumber.1
      have hstart := not_isNameStart_of_startsNumber hnumber.1
      refine ⟨c, more, rfl, ?_⟩
      rw [front?_plain (not_mem_of_class hc rfl) (isBlank_of_isNumberChar hc),
        if_neg (by simp [hstart]), if_pos (startsNumber_append hnumber.1 rest),
        Text.takeWhile_front hnumber.2 ends, Text.dropWhile_front hnumber.2 ends]

/-- A lexeme that ends before what follows is read from the front. -/
theorem front?_lexeme {lexeme : Lexeme} (formed : lexeme.Formed) {rest : List Char}
    (ends : lexeme.Ends rest) (start : Bool) (line : Nat) :
    ∃ c more, lexeme.text.toList = c :: more ∧
      front? start line c (more ++ rest) =
        .ok (.token lexeme.kind lexeme.text.toList line, rest) := by
  cases formed with
  | word hname => exact front?_word hname ends start line
  | number hnumber => exact front?_number hnumber ends start line
  | mark hmark =>
      simp only [Lexeme.marks, List.mem_cons, List.not_mem_nil, or_false] at hmark
      rcases hmark with rfl | rfl | rfl | rfl | rfl | rfl | rfl | rfl
      all_goals
        refine ⟨_, _, rfl, ?_⟩
        rw [front?_plain (by decide) (by decide)]
        rfl

variable {start : Bool} {line count : Nat} {tokens : List Token}

/-- The scan after one front, whatever it left. -/
theorem scan_front {c : Char} {rest : List Char} :
    scan start line count tokens (c :: rest) =
      match front? start line c rest with
      | .error fault => .error fault
      | .ok (.lineEnd, after) => scan true (line + 1) count tokens after
      | .ok (.gap line, after) => scan start line count tokens after
      | .ok (.token kind text next, after) =>
        if count < limit then
          scan (kind = .directive) next (count + 1) (⟨kind, String.ofList text, line⟩ :: tokens) after
        else .error .tooMany := by
  rw [scan]
  split <;> simp only [*]

theorem scan_lineEnd (rest : List Char) :
    scan start line count tokens ('\n' :: rest) = scan true (line + 1) count tokens rest := by
  rw [scan_front]
  rfl

theorem scan_gap {gap : List Char} (h : Gap gap) (rest : List Char) :
    scan start line count tokens (gap ++ rest) = scan start line count tokens rest := by
  induction gap with
  | nil => rfl
  | cons c gap ih =>
      obtain ⟨hblank, hfeed⟩ := h c List.mem_cons_self
      have hfront : front? start line c (gap ++ rest) = .ok (.gap line, gap ++ rest) := by
        simp [front?, hfeed, hblank]
      rw [List.cons_append, scan_front, hfront]
      exact ih fun d hd => h d (List.mem_cons_of_mem c hd)

theorem scan_lexeme {lexeme : Lexeme} (formed : lexeme.Formed) {rest : List Char}
    (ends : lexeme.Ends rest) :
    scan start line count tokens (lexeme.text.toList ++ rest) =
      if count < limit then scan false line (count + 1) (lexeme.onLine line :: tokens) rest
      else .error .tooMany := by
  obtain ⟨c, more, htext, hfront⟩ := front?_lexeme formed ends start line
  have hkind : (lexeme.kind = .directive) = False := by
    cases formed <;> simp [Lexeme.word, Lexeme.number, Lexeme.mark]
  rw [htext, List.cons_append, scan_front, hfront]
  simp only [hkind, decide_false, String.ofList_toList]
  rfl

/-- The end of a line or of the whole text. -/
def LineEnd (rest : List Char) : Prop :=
  ∀ c ∈ rest.head?, c = '\n'

theorem stops_of_lineEnd {rest : List Char} (h : LineEnd rest) : Lexeme.Stops rest := by
  intro c hc
  rw [h c hc]
  decide

/-- A written line gives its lexemes as tokens on that line. -/
theorem scan_written {lexemes : List Lexeme} {text : List Char} (h : Written lexemes text)
    (room : count + lexemes.length ≤ limit) {rest : List Char} (hrest : LineEnd rest) :
    scan start line count tokens (text ++ rest) =
      scan (start && lexemes.isEmpty) line (count + lexemes.length)
        ((lexemes.map (·.onLine line)).reverse ++ tokens) rest := by
  induction h generalizing start count tokens with
  | nil hgap => simpa using scan_gap hgap rest
  | @cons _ _ lexemes _ hgap formed ends _ ih =>
      rw [List.length_cons, Nat.add_comm _ 1, ← Nat.add_assoc] at room
      have hone : count < limit := by omega
      rw [List.append_assoc, List.append_assoc, scan_gap hgap,
        scan_lexeme formed (Lexeme.ends_append ends (stops_of_lineEnd hrest)), if_pos hone, ih room]
      simp [Nat.add_assoc, Nat.add_comm 1]

/-- A line with too many lexemes fails. -/
theorem scan_written_tooMany {lexemes : List Lexeme} {text : List Char} (h : Written lexemes text)
    (room : count ≤ limit) (excess : limit < count + lexemes.length) {rest : List Char}
    (hrest : LineEnd rest) :
    scan start line count tokens (text ++ rest) = .error .tooMany := by
  induction h generalizing start count tokens with
  | nil hgap => simp at excess; omega
  | cons hgap formed ends _ ih =>
      rw [List.append_assoc, List.append_assoc, scan_gap hgap,
        scan_lexeme formed (Lexeme.ends_append ends (stops_of_lineEnd hrest))]
      split
      · refine ih (by omega) ?_
        simp only [List.length_cons] at excess
        omega
      · rfl

theorem ofChars?_tooMany {lexemes : List Lexeme} {text : List Char} (h : Written lexemes text)
    (excess : limit < lexemes.length) : ofChars? text = .error .tooMany := by
  have hscan : scan true 1 0 [] (text ++ []) = .error .tooMany :=
    scan_written_tooMany h (Nat.zero_le limit) (by omega) (by simp [LineEnd])
  rwa [List.append_nil] at hscan

/-- A line that is read from its start as these lexemes. -/
def Reads (line : List Char) (lexemes : List Lexeme) : Prop :=
  ∀ (number count : Nat) (tokens : List Token) (rest : List Char), LineEnd rest →
    count + lexemes.length ≤ limit → ∃ start,
      scan true number count tokens (line ++ rest) =
        scan start number (count + lexemes.length)
          ((lexemes.map (·.onLine number)).reverse ++ tokens) rest

theorem reads_written {lexemes : List Lexeme} {line : List Char} (h : Written lexemes line) :
    Reads line lexemes :=
  fun _ _ _ _ hrest room => ⟨_, scan_written h room hrest⟩

/-- The tokens of lines, the first of which has a given number. -/
def numbered (number : Nat) : List (List Lexeme) → List Token
  | [] => []
  | lexemes :: rest => lexemes.map (·.onLine number) ++ numbered (number + 1) rest

theorem scan_lines {lines : List (List Char)} {lexemes : List (List Lexeme)}
    (h : List.Forall₂ Reads lines lexemes) {number count : Nat} (tokens : List Token)
    (room : count + lexemes.flatten.length ≤ limit) :
    scan true number count tokens (['\n'].intercalate lines) =
      .ok (tokens.reverse ++ numbered number lexemes) := by
  induction h generalizing number count tokens with
  | nil => simp [scan, numbered]
  | @cons line first lines others hline hothers ih =>
      rw [List.flatten_cons, List.length_append, ← Nat.add_assoc] at room
      have hfirst : count + first.length ≤ limit := by omega
      cases lines with
      | nil =>
          cases hothers
          obtain ⟨start, hscan⟩ := hline number count tokens [] (by simp [LineEnd]) hfirst
          rw [List.append_nil] at hscan
          rw [List.intercalate_singleton, hscan]
          simp [scan, numbered]
      | cons next lines =>
          obtain ⟨start, hscan⟩ := hline number count tokens
            ('\n' :: ['\n'].intercalate (next :: lines)) (by simp [LineEnd]) hfirst
          rw [List.intercalate_cons_cons, List.append_assoc, List.singleton_append, hscan,
            scan_lineEnd, ih _ room, numbered]
          simp

/-- Lines that are read one by one are read together, if there is room for all of their lexemes. -/
theorem ofChars?_lines {lines : List (List Char)} {lexemes : List (List Lexeme)}
    (h : List.Forall₂ Reads lines lexemes) (room : lexemes.flatten.length ≤ limit) :
    ofChars? (['\n'].intercalate lines) = .ok (numbered 1 lexemes) := by
  rw [ofChars?, scan_lines h [] (by omega)]
  rfl

end Token
end LibSurvey
