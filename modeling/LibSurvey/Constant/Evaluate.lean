import LibSurvey.Constant.Literal
import LibSurvey.Failure
import LibSurvey.Word
import Std.Data.TreeMap

/-!
Values of constant expressions: literals, names of constants, `|`, `&`, shifts, parentheses and
calls of macros with parameters. An expression stays text; each step finds the operator that binds
weakest and goes on with the texts on its sides. A bound on the steps below one another also bounds
macros that call themselves.
-/

namespace LibSurvey

/-- A macro with parameters, as written. -/
structure MacroDefinition where
  params : List String
  body : String
deriving DecidableEq, Repr

abbrev ConstantSet := Std.TreeMap String Int64
abbrev MacroSet := Std.TreeMap String MacroDefinition

namespace Expression

/-- How many steps may stand below the whole expression. -/
def maxDepth : Nat := 16

/-- The text up to the parenthesis that closes one already open, and the text after it; `depth`
counts the parentheses opened since, `seen` is the text so far, reversed. -/
def closing? (depth : Nat) (seen : List Char) : List Char → Option (List Char × List Char)
  | [] => none
  | '(' :: rest => closing? (depth + 1) ('(' :: seen) rest
  | ')' :: rest =>
    match depth with
    | 0 => some (seen.reverse, rest)
    | depth + 1 => closing? depth (')' :: seen) rest
  | c :: rest => closing? depth (c :: seen) rest

/-- What stands between parentheses that hold the whole text. -/
def enclosed? : List Char → Option (List Char)
  | '(' :: rest =>
    match closing? 0 [] rest with
    | some (inner, []) => some inner
    | _ => none
  | _ => none

/-- The pieces between the operators outside parentheses; `depth` goes below zero where more
parentheses close than open. Of a doubled operator neither half divides the text, commas apart. -/
def splitTopFrom (op : Char) (depth : Int) (current : List Char) (pieces : List (List Char)) :
    List Char → List (List Char)
  | [] => (current.reverse :: pieces).reverse
  | '(' :: rest => splitTopFrom op (depth + 1) ('(' :: current) pieces rest
  | ')' :: rest => splitTopFrom op (depth - 1) (')' :: current) pieces rest
  | c :: rest =>
    if c = op && depth = 0 then
      match rest with
      | d :: after =>
        if op != ',' && d = op then splitTopFrom op depth (d :: c :: current) pieces after
        else splitTopFrom op depth [] (current.reverse :: pieces) (d :: after)
      | [] => splitTopFrom op depth [] (current.reverse :: pieces) []
    else splitTopFrom op depth (c :: current) pieces rest

def splitTop (op : Char) (text : List Char) : List (List Char) :=
  splitTopFrom op 0 [] [] text

inductive Shift where
  | left
  | right
deriving DecidableEq, Repr

/-- A text divided at a shift operator. -/
structure ShiftSplit where
  left : List Char
  op : Shift
  right : List Char

/-- The last shift outside parentheses; `seen` is the text so far, reversed, and `found` the last
shift in it. -/
def lastShiftFrom (depth : Int) (seen : List Char) (found : Option ShiftSplit) :
    List Char → Option ShiftSplit
  | [] => found
  | [_] => found
  | '(' :: d :: rest => lastShiftFrom (depth + 1) ('(' :: seen) found (d :: rest)
  | ')' :: d :: rest => lastShiftFrom (depth - 1) (')' :: seen) found (d :: rest)
  | c :: d :: rest =>
    if c = '<' && d = '<' && depth = 0 then
      lastShiftFrom depth (d :: c :: seen) (some ⟨seen.reverse, .left, rest⟩) rest
    else if c = '>' && d = '>' && depth = 0 then
      lastShiftFrom depth (d :: c :: seen) (some ⟨seen.reverse, .right, rest⟩) rest
    else lastShiftFrom depth (c :: seen) found (d :: rest)

def lastShift? (text : List Char) : Option ShiftSplit :=
  lastShiftFrom 0 [] none text

/-- A call `NAME(arguments)` that is the whole text, as its name and the text of its arguments. -/
def splitCall? (text : List Char) : Option (List Char × List Char) :=
  let name := Text.trim (text.takeWhile (· != '('))
  match text.dropWhile (· != '(') with
  | _ :: rest =>
    if isName name then
      match closing? 0 [] rest with
      | some (arguments, []) => some (name, arguments)
      | _ => none
    else none
  | [] => none

/-- The texts before and after the first `##`. -/
def splitPaste? (seen : List Char) : List Char → Option (List Char × List Char)
  | '#' :: '#' :: rest => some (seen.reverse, rest)
  | c :: rest => splitPaste? (c :: seen) rest
  | [] => none

/-- The suffix that a macro of one parameter pastes to its argument. -/
def pasteSuffix? (definition : MacroDefinition) : Option (List Char) :=
  match definition.params, splitPaste? [] definition.body.toList with
  | [param], some (left, right) =>
    let suffix := Text.trim right
    if Text.trim left = param.toList && !suffix.isEmpty && suffix.all isNameChar then some suffix
    else none
  | _, _ => none

/-- The argument that stands for a word; no word stands for nothing. -/
def argumentFor (params : List String) (arguments : List (List Char)) (word : List Char) :
    List Char :=
  if word.isEmpty then []
  else ((params.zip arguments).lookup (String.ofList word)).getD word

/-- Replaces the names among the characters of a text; `word` is the name being read, reversed, and
`done` the text produced so far, reversed. -/
def substituteFrom (params : List String) (arguments : List (List Char)) (word done : List Char) :
    List Char → List Char
  | [] => ((argumentFor params arguments word.reverse).reverse ++ done).reverse
  | c :: rest =>
    if isNameStart c || (!word.isEmpty && isNameChar c) then
      substituteFrom params arguments (c :: word) done rest
    else
      substituteFrom params arguments []
        (c :: ((argumentFor params arguments word.reverse).reverse ++ done)) rest

/-- A macro's body with an argument in place of each parameter. -/
def substitute (body : List Char) (params : List String) (arguments : List (List Char)) :
    List Char :=
  substituteFrom params arguments [] [] body

/-- The arguments of a call; blank text between the parentheses is no argument. -/
def splitArguments (text : List Char) : List (List Char) :=
  match splitTop ',' text with
  | [only] => if (Text.trim only).isEmpty then [] else [Text.trim only]
  | several => several.map Text.trim

/-- The text that a call of a macro stands for. -/
def expandCall? (macros : MacroSet) (text : List Char) : Option (List Char) := do
  let (name, arguments) ← splitCall? text
  let definition ← macros[String.ofList name]?
  let arguments := splitArguments arguments
  match pasteSuffix? definition with
  | some suffix =>
    match arguments with
    | [argument] => some (argument ++ suffix)
    | _ => none
  | none =>
    if arguments.length = definition.params.length then
      some (substitute definition.body.toList definition.params arguments)
    else none

/-- A shift by an amount from 0 to 63; to the right it keeps the sign. -/
def shift? (op : Shift) (value amount : Int64) : Option Int64 :=
  if 0 ≤ amount && amount < 64 then
    some (match op with
      | .left => value <<< amount
      | .right => value >>> amount)
  else none

/-- The value of several operands under an operator, if each has one. -/
def fold? (op : Int64 → Int64 → Int64) : List (Option Int64) → Option Int64
  | [] => none
  | first :: rest => rest.foldl (fun sum value => do return op (← sum) (← value)) first

/-- The value of a text with so many steps left. -/
def value? (constants : ConstantSet) (macros : MacroSet) : Nat → List Char → Option Int64
  | 0, _ => none
  | steps + 1, text =>
    let text := Text.trim text
    if text.isEmpty then none
    else match enclosed? text with
    | some inner => value? constants macros steps inner
    | none =>
      match Literal.ofChars? text with
      | some value => some value
      | none =>
        let alternatives := splitTop '|' text
        let masks := splitTop '&' text
        if 1 < alternatives.length then
          fold? (· ||| ·) (alternatives.map fun part => value? constants macros steps part)
        else if 1 < masks.length then
          fold? (· &&& ·) (masks.map fun part => value? constants macros steps part)
        else match lastShift? text with
        | some split => do
          let value ← value? constants macros steps split.left
          let amount ← value? constants macros steps split.right
          shift? split.op value amount
        | none =>
          if isName text then constants[String.ofList text]?
          else match expandCall? macros text with
            | some expansion => value? constants macros steps expansion
            | none => none

/-- The value of an expression over what is known so far. -/
def evaluate (constants : ConstantSet) (macros : MacroSet) (expression : String) :
    Except Failure Int64 :=
  match value? constants macros (maxDepth + 1) expression.toList with
  | some value => .ok value
  | none => .error (.unresolvableExpression (String.ofList (Text.trim expression.toList)))

end Expression
end LibSurvey
