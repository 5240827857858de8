import LibSurvey.Proofs.Agreement.Lines
import LibSurvey.Proofs.Line.Words
import LibSurvey.Proofs.Token.Directive

/-!
Headers of directives only. Where each `define` and each `include` is regular, it does not matter
whether such a header is read by its tokens or line by line.
-/

namespace LibSurvey

variable {annotations : Annotations}

namespace Directive

/-- What follows `include`: no target, or one between delimiters that match. -/
inductive Target : List Char → Prop where
  | other {text : List Char} : (∀ c ∈ text.head?, c ≠ '<' ∧ c ≠ '"') → Target text
  | angled {name tail : List Char} : Text.trim name ≠ [] →
      (∀ c ∈ name, c ∉ ['<', '>', '"']) → Target ('<' :: (name ++ '>' :: tail))
  | quoted {name tail : List Char} : Text.trim name ≠ [] →
      (∀ c ∈ name, c ∉ ['<', '>', '"']) → Target ('"' :: (name ++ '"' :: tail))

/-- What follows `define`: blanks, then a name, if there is one, that ends where a word does. -/
structure Definition (text : List Char) : Prop where
  apart : ∀ c ∈ text.head?, Text.isBlank c = true
  ends : isName ((Text.trimLeft text).takeWhile isNameChar) = true →
    ∀ c ∈ ((Text.trimLeft text).dropWhile isNameChar).head?, Text.isBlank c = true ∨ c = '('

/-- The text of a directive, without blanks around it, that is no malformed `define` or `include`. -/
structure Regular (text : List Char) : Prop where
  included : text.takeWhile Char.isAlpha = "include".toList →
    Target (Text.trim (text.dropWhile Char.isAlpha))
  defined : text.takeWhile Char.isAlpha = "define".toList →
    Definition (text.dropWhile Char.isAlpha)

theorem declares_directive (body : List Char) :
    Declarations.Declares annotations [⟨.directive, String.ofList (Text.trim body)⟩]
      (emission? body) := by
  intro number emissions
  have : emission? (Text.trim body) = emission? body := by
    simp only [emission?, Text.trim_trim]
  simp only [List.map_singleton, Declarations.State.run, List.foldl_cons, List.foldl_nil,
    Declarations.State.step, Declarations.State.settled, Declarations.State.stepOutside,
    Lexeme.onLine, ite_true, String.toList_ofList, this]
  cases emission? body <;> rfl

end Directive

namespace Line
open Directive (Target Definition Regular)

/-- Without the blanks around it, the text after `#` is what a keyword is looked for in. -/
theorem afterKeyword?_hash (keyword : String) (body : List Char) :
    afterKeyword? keyword ('#' :: Text.trimRight body) =
      after? keyword.toList (Text.trim body) := by
  have hhash : Text.trimLeft ('#' :: Text.trimRight body) = '#' :: Text.trimRight body := rfl
  rw [afterKeyword?, hhash]
  simp [after?, Text.trimLeft_trimRight]

/-- Any closing delimiter would end a name for a line, but only the matching one follows it here. -/
theorem delimited_name {name : List Char} {close : Char} (hclose : isDelimiter close = true)
    (free : ∀ c ∈ name, c ∉ ['<', '>', '"']) (tail : List Char) :
    (name ++ close :: tail).takeWhile (!isDelimiter ·) = name ∧
      (name ++ close :: tail).takeWhile (· != close) = name := by
  have hplain : ∀ c ∈ name, isDelimiter c = false := by
    intro c hc
    have := free c hc
    simp only [List.mem_cons, List.not_mem_nil, or_false, not_or] at this
    simp [isDelimiter, this]
  refine ⟨Text.takeWhile_front (by simpa using hplain) (by simp [hclose]),
    Text.takeWhile_front (fun c hc => bne_iff_ne.mpr ?_) (by simp)⟩
  rintro rfl
  rw [hplain c hc] at hclose
  exact Bool.noConfusion hclose

/-- What a line makes of the text after `include` and its blanks. -/
def includedAfter? (text : List Char) : Option Emission :=
  match text with
  | delimiter :: body =>
    if delimiter = '<' || delimiter = '"' then
      let name := body.takeWhile (!isDelimiter ·)
      if name.isEmpty || !body.any isDelimiter then none
      else some (.included (String.ofList (Text.trim name)))
    else none
  | [] => none

theorem includedAfter?_delimited {first close : Char} (hfirst : first = '<' ∨ first = '"')
    (hclose : isDelimiter close = true) {name : List Char} (hname : Text.trim name ≠ [])
    (free : ∀ c ∈ name, c ∉ ['<', '>', '"']) (tail : List Char) :
    includedAfter? (first :: (name ++ close :: tail)) =
      (Directive.target?.within close (name ++ close :: tail)).map .included := by
  obtain ⟨hline, htokens⟩ := delimited_name hclose free tail
  have hnil : name ≠ [] := by rintro rfl; exact hname rfl
  have hany : (name ++ close :: tail).any isDelimiter = true := by simp [hclose]
  have hcontains : (name ++ close :: tail).contains close = true := by simp
  have hopen : (first = '<' || first = '"') = true := by simpa using hfirst
  simp only [includedAfter?, Directive.target?.within, hline, htokens, hany, hcontains, hopen]
  simp [hnil, hname]

theorem includedAfter?_target {text : List Char} (target : Target text) :
    includedAfter? text = (Directive.target? text).map .included := by
  cases target with
  | other h =>
      cases text with
      | nil => rfl
      | cons c text =>
          obtain ⟨hangle, hquote⟩ := h c rfl
          have : Directive.target? (c :: text) = none := by
            rw [Directive.target?] <;> simp [hangle, hquote]
          simp [includedAfter?, hangle, hquote, this]
  | angled hname free => exact includedAfter?_delimited (.inl rfl) rfl hname free _
  | quoted hname free => exact includedAfter?_delimited (.inr rfl) rfl hname free _

theorem included?_target {text rest : List Char}
    (htext : Text.trim text = "include".toList ++ rest) (target : Target (Text.trim rest)) :
    included? ('#' :: Text.trimRight text) =
      (Directive.target? (Text.trim rest)).map .included := by
  have hrest : Text.trim rest = Text.trimLeft rest :=
    Text.trim_eq_trimLeft (Text.trimRight_suffix (Text.trimRight_trim text)
      (htext ▸ List.suffix_append _ rest))
  have hstart : included? ('#' :: Text.trimRight text) = includedAfter? (Text.trim rest) := by
    rw [included?, afterKeyword?_hash, htext, after?_append, hrest]
    rfl
  rw [hstart, includedAfter?_target target]

/-- A name is the same word for a line if it ends where a word does. -/
theorem word?_takeWhile {text : List Char} (hname : isName (text.takeWhile isNameChar) = true)
    (ends : ∀ c ∈ (text.dropWhile isNameChar).head?, Text.isBlank c = true ∨ c = '(') :
    word? text = some (text.takeWhile isNameChar, text.dropWhile isNameChar) := by
  have hstop : ∀ c ∈ (text.dropWhile isNameChar).head?, Text.isWordChar c = false := by
    intro c hc
    rcases ends c hc with h | rfl
    · exact isWordChar_of_isBlank h
    · decide
  have := word?_name hname hstop
  rwa [List.takeWhile_append_dropWhile] at this

theorem word?_eq_none {text : List Char} (h : isName (text.takeWhile isNameChar) = false) :
    word? text = none := by
  cases text with
  | nil => rfl
  | cons c text =>
      have hstart : Text.isWordStart c = false := by
        refine Bool.eq_false_iff.mpr fun hstart => ?_
        have hstart : isNameStart c = true := hstart
        have hchars : (text.takeWhile isNameChar).all isNameChar = true := List.all_takeWhile
        rw [List.takeWhile_cons, if_pos (isNameChar_of_isNameStart hstart), isName, hstart, hchars]
          at h
        exact Bool.noConfusion h
      rw [word?, hstart]
      rfl

/-- What a line makes of the text after `define` and its blanks. -/
def definedAfter? (text : List Char) : Option Emission := do
  let (name, rest) ← word? text
  match rest with
  | '(' :: inside =>
    match inside.dropWhile (· != ')') with
    | _ :: body =>
      some (.functionMacro (String.ofList name)
        ⟨Directive.paramNames (inside.takeWhile (· != ')')), String.ofList (Text.trim body)⟩)
    | [] => none
  | _ =>
    let value ← afterBlanks? rest
    if value.isEmpty || !isConstantName name then none
    else some (.constant (String.ofList name) (String.ofList (Text.trim value)))

theorem definedAfter?_definition {text : List Char} (right : Text.trimRight text = text)
    (ends : isName (text.takeWhile isNameChar) = true →
      ∀ c ∈ (text.dropWhile isNameChar).head?, Text.isBlank c = true ∨ c = '(') :
    definedAfter? text = Directive.definition? text := by
  cases hname : isName (text.takeWhile isNameChar) with
  | false => simp [definedAfter?, word?_eq_none hname, Directive.definition?, hname]
  | true =>
      have hword := word?_takeWhile hname (ends hname)
      have hafter : Text.trimRight (text.dropWhile isNameChar) = text.dropWhile isNameChar :=
        Text.trimRight_suffix right (List.dropWhile_suffix isNameChar)
      rw [definedAfter?, hword, Directive.definition?, hname]
      have hends := ends hname
      generalize text.dropWhile isNameChar = after at hafter hends
      cases after with
      | nil => rfl
      | cons c value =>
          by_cases hopen : c = '('
          · subst hopen
            rfl
          · have hblank : Text.isBlank c = true := (hends c rfl).resolve_right hopen
            have hleft : Text.trimLeft (c :: value) = Text.trimLeft value := by
              simp [Text.trimLeft, hblank]
            have htrim : Text.trim (c :: value) = Text.trimLeft value := by
              rw [Text.trim_eq_trimLeft hafter, hleft]
            have hagain : Text.trim (Text.trimLeft value) = Text.trimLeft value := by
              rw [← htrim, Text.trim_trim]
            simp [hopen, afterBlanks?, hblank, htrim, hagain]

theorem defined?_definition {text rest : List Char}
    (htext : Text.trim text = "define".toList ++ rest) (definition : Definition rest) :
    defined? ('#' :: Text.trimRight text) = Directive.definition? (Text.trimLeft rest) := by
  have hright : Text.trimRight (Text.trimLeft rest) = Text.trimLeft rest :=
    Text.trimRight_suffix (Text.trimRight_trim text)
      (htext ▸ (List.dropWhile_suffix Text.isBlank).trans (List.suffix_append _ rest))
  have hdefined : defined? ('#' :: Text.trimRight text) =
      (afterBlanks? rest).bind definedAfter? := by
    rw [defined?, afterKeyword?_hash, htext, after?_append]
    rfl
  rw [hdefined]
  cases rest with
  | nil => rfl
  | cons c rest =>
      have hblank : Text.isBlank c = true := definition.apart c rfl
      have hblanks : afterBlanks? (c :: rest) = some (Text.trimLeft (c :: rest)) := by
        simp [afterBlanks?, hblank, Text.trimLeft]
      rw [hblanks]
      exact definedAfter?_definition hright definition.ends

/-- A keyword that is only the front of a longer one is followed by a letter. -/
theorem longer_keyword {keyword text rest : List Char} (letters : keyword.all Char.isAlpha = true)
    (h : after? keyword text = some rest) (other : text.takeWhile Char.isAlpha ≠ keyword) :
    ∃ c more, rest = c :: more ∧ c.isAlpha = true ∧ Text.isBlank c = false := by
  rw [eq_append_of_after? h, List.takeWhile_append_of_pos (List.all_eq_true.mp letters)] at other
  cases rest with
  | nil => exact absurd (by simp) other
  | cons c more =>
      have hc : c.isAlpha = true := by
        refine Bool.eq_true_of_not_eq_false fun hc => other ?_
        rw [List.takeWhile_cons, hc, if_neg Bool.false_ne_true, List.append_nil]
      have hname : isNameChar c = true := by simp [isNameChar, Char.isAlphanum, hc]
      exact ⟨c, more, rfl, hc, isBlank_of_isNameChar hname⟩

theorem included?_other {body : List Char}
    (other : (Text.trim body).takeWhile Char.isAlpha ≠ "include".toList) :
    included? ('#' :: Text.trimRight body) = none := by
  rw [included?, afterKeyword?_hash]
  cases h : after? "include".toList (Text.trim body) with
  | none => rfl
  | some rest =>
      obtain ⟨c, more, rfl, hc, hblank⟩ := longer_keyword (by decide) h other
      have hleft : Text.trimLeft (c :: more) = c :: more := by simp [Text.trimLeft, hblank]
      have hangle : c ≠ '<' := by rintro rfl; exact absurd hc (by decide)
      have hquote : c ≠ '"' := by rintro rfl; exact absurd hc (by decide)
      simp [hleft, hangle, hquote]

theorem defined?_other {body : List Char}
    (other : (Text.trim body).takeWhile Char.isAlpha ≠ "define".toList) :
    defined? ('#' :: Text.trimRight body) = none := by
  rw [defined?, afterKeyword?_hash]
  cases h : after? "define".toList (Text.trim body) with
  | none => rfl
  | some rest =>
      obtain ⟨c, more, rfl, -, hblank⟩ := longer_keyword (by decide) h other
      simp [afterBlanks?, hblank]

/-- A regular directive says the same to a line as to its token. -/
theorem directive?_regular {body : List Char} (regular : Regular (Text.trim body)) :
    directive? ('#' :: Text.trimRight body) = Directive.emission? body := by
  have hparts {keyword : List Char} (h : (Text.trim body).takeWhile Char.isAlpha = keyword) :
      Text.trim body = keyword ++ (Text.trim body).dropWhile Char.isAlpha := by
    rw [← h, List.takeWhile_append_dropWhile]
  rw [directive?, Directive.emission?]
  by_cases hinclude : (Text.trim body).takeWhile Char.isAlpha = "include".toList
  · have hdefine : (Text.trim body).takeWhile Char.isAlpha ≠ "define".toList := by
      rw [hinclude]
      decide
    rw [included?_target (hparts hinclude) (regular.included hinclude), defined?_other hdefine]
    simp only [hinclude, String.ofList_toList]
    cases Directive.target? (Text.trim ((Text.trim body).dropWhile Char.isAlpha)) <;> rfl
  · rw [included?_other hinclude]
    by_cases hdefine : (Text.trim body).takeWhile Char.isAlpha = "define".toList
    · simp only [hdefine, String.ofList_toList]
      exact defined?_definition (hparts hdefine) (regular.defined hdefine)
    · have hneither : ∀ keyword : String, (Text.trim body).takeWhile Char.isAlpha ≠ keyword.toList →
          String.ofList ((Text.trim body).takeWhile Char.isAlpha) ≠ keyword := by
        rintro keyword h rfl
        exact h String.toList_ofList.symm
      rw [defined?_other hdefine]
      simp only
      split
      · rename_i h
        exact absurd h (hneither "include" hinclude)
      · rename_i h
        exact absurd h (hneither "define" hdefine)
      · rfl

end Line

/-- A line that is blank or holds one regular directive. -/
structure DirectiveLine (line : List Char) : Prop where
  plain : Text.PlainLine line
  directive : Text.trim line ≠ [] →
    ∃ body, Text.trimLeft line = '#' :: body ∧ Directive.Regular (Text.trim body)

namespace DirectiveLine

def lexemes (line : List Char) : List Lexeme :=
  if (Text.trim line).isEmpty then []
  else [⟨.directive, String.ofList (Text.trim (Text.trimLeft line).tail)⟩]

def found (line : List Char) : Option Emission :=
  if (Text.trim line).isEmpty then none else Directive.emission? (Text.trimLeft line).tail

theorem readAlike {line : List Char} (h : DirectiveLine line) :
    ReadAlike annotations line (lexemes line) (found line) := by
  have gap {text : List Char} (hblank : Text.Blanks text) (hpart : text <:+: line) :
      Lexeme.Gap text := fun c hc =>
    ⟨hblank c hc, fun hfeed => h.plain.whole (hpart.subset (hfeed ▸ hc))⟩
  by_cases hblank : Text.trim line = []
  · rw [lexemes, found, hblank]
    exact readAlike_gap (gap (Text.blanks_of_trim hblank) (List.infix_refl line))
  · obtain ⟨body, hleft, regular⟩ := h.directive hblank
    have hline : line.takeWhile Text.isBlank ++ '#' :: body = line := by
      rw [← hleft, Text.trimLeft, List.takeWhile_append_dropWhile]
    have hgap : Lexeme.Gap (line.takeWhile Text.isBlank) :=
      gap (List.all_eq_true.mp List.all_takeWhile) (List.takeWhile_prefix _).isInfix
    have hbody : body <:+: line :=
      ((List.suffix_cons '#' body).trans ⟨_, hline⟩).isInfix
    have htrim : Text.trim line = '#' :: Text.trimRight body := by
      rw [Text.trim, hleft, Text.trimRight_cons (by decide)]
    have hreads := Token.reads_directive hgap (h.plain.part hbody)
    rw [hline] at hreads
    rw [lexemes, found, hleft, htrim]
    refine ⟨hreads, Directive.declares_directive body, h.plain, fun hnil => ?_, fun _ emissions rest => ?_⟩
    · rw [htrim] at hnil
      cases hnil
    · have hdirective : Line.isDirective ('#' :: Text.trimRight body) = true := rfl
      rw [htrim, Line.scanFrom, if_pos hdirective, Line.directive?_regular regular]
      rfl

end DirectiveLine

/-- A header of regular directives declares the same by its tokens and line by line. -/
theorem Declarations.ofBytes?_directives {text : List Char}
    (regular : ∀ line ∈ Text.splitAt (· = '\n') text, DirectiveLine line)
    (room : ((Text.splitAt (· = '\n') text).filter fun line => !(Text.trim line).isEmpty).length ≤
      Token.limit) :
    ofBytes? annotations (Text.Utf8.encode text) = .ok (Line.scan annotations text) := by
  have hcount (lines : List (List Char)) :
      (lines.map fun line => (DirectiveLine.lexemes line).length).sum =
        (lines.filter fun line => !(Text.trim line).isEmpty).length := by
    induction lines with
    | nil => rfl
    | cons line lines ih =>
        rw [List.map_cons, List.sum_cons, ih, DirectiveLine.lexemes, List.filter_cons]
        cases (Text.trim line).isEmpty <;> simp [Nat.add_comm]
  have alike : ∀ line ∈ Text.splitAt (· = '\n') text, ReadAlike annotations (id line)
      (DirectiveLine.lexemes line) (DirectiveLine.found line) :=
    fun line hline => (regular line hline).readAlike
  obtain ⟨htokens, hlines⟩ := readAlike_lines alike (hcount _ ▸ room)
  rw [List.map_id, Text.intercalate_splitAt] at htokens hlines
  rw [htokens, hlines]

/-- An include, a macro with parameters and a constant. -/
theorem Declarations.ofBytes?_directives_pair :
    let text := "#include <a.h>\n#define F(a, b) (a+b)\n\t# define N 1\n".toList
    (∀ line ∈ Text.splitAt (· = '\n') text, DirectiveLine line) ∧
      ((Text.splitAt (· = '\n') text).filter fun line => !(Text.trim line).isEmpty).length ≤
        Token.limit ∧
      ofBytes? ⟨[]⟩ (Text.Utf8.encode text) = .ok (Line.scan ⟨[]⟩ text) ∧
      Line.scan ⟨[]⟩ text =
        [.included "a.h", .functionMacro "F" ⟨["a", "b"], "(a+b)"⟩, .constant "N" "1"] := by
  intro text
  have hlines : Text.splitAt (· = '\n') text =
      ["#include <a.h>".toList, "#define F(a, b) (a+b)".toList, "\t# define N 1".toList, []] := by
    decide
  have hincluded : DirectiveLine "#include <a.h>".toList := by
    refine ⟨⟨by decide, by decide, by decide, by decide⟩, fun _ =>
      ⟨"include <a.h>".toList, by decide, fun _ => ?_, fun h => absurd h (by decide)⟩⟩
    have target : Directive.Target ('<' :: ("a.h".toList ++ '>' :: [])) :=
      .angled (by decide) (by simp)
    exact target
  have hmacro : DirectiveLine "#define F(a, b) (a+b)".toList := by
    refine ⟨⟨by decide, by decide, by decide, by decide⟩, fun _ =>
      ⟨"define F(a, b) (a+b)".toList, by decide, fun h => absurd h (by decide), fun _ => ?_⟩⟩
    exact ⟨by rintro c ⟨⟩; rfl, fun _ c hc => by cases hc; exact .inr rfl⟩
  have hdefined : DirectiveLine "\t# define N 1".toList := by
    refine ⟨⟨by decide, by decide, by decide, by decide⟩, fun _ =>
      ⟨" define N 1".toList, by decide, fun h => absurd h (by decide), fun _ => ?_⟩⟩
    exact ⟨by rintro c ⟨⟩; rfl, fun _ c hc => by cases hc; exact .inl rfl⟩
  have hblank : DirectiveLine [] :=
    ⟨⟨by decide, by decide, by decide, by decide⟩, fun h => absurd rfl h⟩
  have regular : ∀ line ∈ Text.splitAt (· = '\n') text, DirectiveLine line := by
    rw [hlines]
    simpa using ⟨hincluded, hmacro, hdefined, hblank⟩
  have room : ((Text.splitAt (· = '\n') text).filter
      fun line => !(Text.trim line).isEmpty).length ≤ Token.limit := by
    rw [hlines]
    decide
  exact ⟨regular, room, ofBytes?_directives regular room, by decide +kernel⟩

end LibSurvey
