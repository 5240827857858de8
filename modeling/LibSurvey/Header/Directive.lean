import LibSurvey.Header.Emission
import LibSurvey.Text.Blank

/-!
Directives: `include` and `define` mean something, all others do not. The text of a directive
starts after its `#`.
-/

namespace LibSurvey.Directive

/-- The name between the delimiters of an `include`, if it has one. -/
def target? (text : List Char) : Option String :=
  match text with
  | '<' :: body => within '>' body
  | '"' :: body => within '"' body
  | _ => none
where
  within (close : Char) (body : List Char) : Option String :=
    let name := Text.trim (body.takeWhile (· != close))
    if body.contains close && !name.isEmpty then some (String.ofList name) else none

/-- The names between the parentheses of a macro. -/
def paramNames (text : List Char) : List String :=
  (((Text.splitAt (· = ',') text).map Text.trim).filter (!·.isEmpty)).map String.ofList

/-- What a `define` says: parameters count only where the parenthesis follows the name at once. -/
def definition? (text : List Char) : Option Emission :=
  let name := text.takeWhile isNameChar
  if !isName name then none
  else match text.dropWhile isNameChar with
    | '(' :: rest =>
      match rest.dropWhile (· != ')') with
      | _ :: body =>
        some (.functionMacro (String.ofList name)
          ⟨paramNames (rest.takeWhile (· != ')')), String.ofList (Text.trim body)⟩)
      | [] => none
    | value =>
      let value := Text.trim value
      if value.isEmpty || !isConstantName name then none
      else some (.constant (String.ofList name) (String.ofList value))

def emission? (text : List Char) : Option Emission :=
  let text := Text.trim text
  let rest := text.dropWhile Char.isAlpha
  match String.ofList (text.takeWhile Char.isAlpha) with
  | "include" => (target? (Text.trim rest)).map .included
  | "define" => definition? (Text.trimLeft rest)
  | _ => none

end LibSurvey.Directive
