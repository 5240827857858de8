import LibSurvey.Header.Directive
import LibSurvey.Header.Line.Word

/-!
Directives read from a logical line, `#` included.
-/

namespace LibSurvey.Line

/-- What follows `#` and a keyword. -/
def afterKeyword? (keyword : String) (line : List Char) : Option (List Char) := do
  let text ← after? ['#'] (Text.trimLeft line)
  after? keyword.toList (Text.trimLeft text)

def isDelimiter (c : Char) : Bool :=
  c = '>' || c = '"'

/-- A name of one character or more between delimiters; any closing one ends it. -/
def included? (line : List Char) : Option Emission := do
  let text ← afterKeyword? "include" line
  match Text.trimLeft text with
  | delimiter :: body =>
    if delimiter = '<' || delimiter = '"' then
      let name := body.takeWhile (!isDelimiter ·)
      if name.isEmpty || !body.any isDelimiter then none
      else some (.included (String.ofList (Text.trim name)))
    else none
  | [] => none

def defined? (line : List Char) : Option Emission := do
  let text ← afterKeyword? "define" line
  let text ← afterBlanks? text
  let (name, rest) ← word? text
  match rest with
  | '(' :: inside =>
    match inside.dropWhile (· != ')') with
    | _ :: body =>
      some (.functionMacro (String.ofList name)
        ⟨Directive.paramNames (inside.takeWhile (· != ')')), String.ofList (Text.trim body)⟩)
    | [] => none
  | _ =>
    let value ← afterBlanks? rest
    if value.isEmpty || !isConstantName name then none
    else some (.constant (String.ofList name) (String.ofList (Text.trim value)))

def directive? (line : List Char) : Option Emission :=
  match included? line with
  | some emission => some emission
  | none => defined? line

end LibSurvey.Line
