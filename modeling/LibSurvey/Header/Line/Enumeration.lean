import LibSurvey.Header.Emission
import LibSurvey.Header.Line.Word

/-!
Enumerations that stand on one line.
-/

namespace LibSurvey.Line

/-- What follows `enum`, itself after `typedef` or not. -/
def afterEnum? (line : List Char) : Option (List Char) :=
  let text := Text.trimLeft line
  let text := (do afterBlanks? (← after? "typedef".toList text)).getD text
  match after? "enum".toList text with
  | some rest =>
    if (rest.head?.map Text.isWordChar).getD false then none else some rest
  | none => none

/-- The text between the first braces after `enum`. -/
def enumBody? (line : List Char) : Option (List Char) := do
  let rest ← afterEnum? line
  match rest.dropWhile (· != '\x7b') with
  | _ :: body => if body.contains '\x7d' then some (body.takeWhile (· != '\x7d')) else none
  | [] => none

/-- One item of the body, with what follows its first equals sign. -/
def enumerator? (item : List Char) : Option Enumerator :=
  let name := Text.trim (item.takeWhile (· != '='))
  if isName name then
    some ⟨String.ofList name,
      match item.dropWhile (· != '=') with
      | _ :: value => some (String.ofList (Text.trim value))
      | [] => none⟩
  else none

def enumerators (body : List Char) : List Enumerator :=
  (Text.splitAt (· = ',') body).filterMap enumerator?

end LibSurvey.Line
