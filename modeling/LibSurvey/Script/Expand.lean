import LibSurvey.Script.Sum
import LibSurvey.Script.Syntax
import LibSurvey.Text.Blank

/-!
What the words of a script stand for: parameters are replaced, and what an unquoted parameter gives
is divided into fields at its blanks.
-/

namespace LibSurvey.Script

/-- A part of a pattern. -/
inductive PatternItem where
  | anything
  | anyChar
  | char (c : Char)
  /-- A character between two others, or none of these. -/
  | oneOf (ranges : List (Char × Char)) (negated : Bool)
deriving DecidableEq, Repr

/-- The ranges of a set in brackets. -/
def rangesOf : List Char → List (Char × Char)
  | first :: '-' :: last :: rest => (first, last) :: rangesOf rest
  | c :: rest => (c, c) :: rangesOf rest
  | [] => []

/-- The set in brackets that starts here, with the number of characters up to its end. -/
def bracketed? (text : List Char) : Option (PatternItem × Nat) :=
  let negated := text.head? = some '!'
  let inside := if negated then text.tail else text
  let set := inside.take 1 ++ (inside.drop 1).takeWhile (· != ']')
  if inside[set.length]? = some ']' then
    some (.oneOf (rangesOf set) negated, set.length + 1 + (if negated then 1 else 0))
  else none

/-- The parts of a pattern in which characters that may stand for others are marked; `skip` is how
many belong to a set that has been read. -/
def patternItems (skip : Nat) : List (Char × Bool) → List PatternItem
  | [] => []
  | (c, marked) :: rest =>
    match skip with
    | skip + 1 => patternItems skip rest
    | 0 =>
      if marked && c = '*' then .anything :: patternItems 0 rest
      else if marked && c = '?' then .anyChar :: patternItems 0 rest
      else if marked && c = '[' then
        match bracketed? (rest.map Prod.fst) with
        | some (item, size) => item :: patternItems size rest
        | none => .char c :: patternItems 0 rest
      else .char c :: patternItems 0 rest

/-- Whether a pattern matches a whole text. -/
def matchesItems : List PatternItem → List Char → Bool
  | [], text => text.isEmpty
  | .anything :: rest, [] => matchesItems rest []
  | .anything :: rest, c :: text =>
    matchesItems rest (c :: text) || matchesItems (.anything :: rest) text
  | _ :: _, [] => false
  | .anyChar :: rest, _ :: text => matchesItems rest text
  | .char c :: rest, d :: text => c = d && matchesItems rest text
  | .oneOf ranges negated :: rest, d :: text =>
    ((ranges.any fun (first, last) => first ≤ d && d ≤ last) != negated)
      && matchesItems rest text
termination_by pattern text => pattern.length + text.length

def matchesPattern (pattern : List (Char × Bool)) (text : List Char) : Bool :=
  matchesItems (patternItems 0 pattern) text

/-- The values that words refer to. -/
structure Scope where
  script : String
  args : List String
  bindings : List (String × String)
  status : Nat

namespace Scope

def arg (scope : Scope) (index : Nat) : String :=
  if index = 0 then scope.script else (scope.args[index - 1]?).getD ""

def lookup (scope : Scope) (name : String) : Option String :=
  match name with
  | "#" => some (toString scope.args.length)
  | "@" | "*" => some (" ".intercalate scope.args)
  | "?" => some (toString scope.status)
  | "$" => some "$$"
  | _ =>
    match name.toNat? with
    | some index => if index ≤ scope.args.length then some (scope.arg index) else none
    | none => scope.bindings.lookup name

/-- The name that an expression starts with. -/
def nameIn (expression : List Char) : List Char :=
  match expression with
  | c :: _ => if isNameStart c || c.isDigit then expression.takeWhile isNameChar else [c]
  | [] => []

/-- The first of some beginnings of a text that matches is dropped from it. -/
def dropStart (pattern : List Char) (text : List Char) (sizes : List Nat) : List Char :=
  match sizes.find? fun size => matchesPattern (pattern.map (·, true)) (text.take size) with
  | some size => text.drop size
  | none => text

def dropEnd (pattern : List Char) (text : List Char) (sizes : List Nat) : List Char :=
  match sizes.find? fun size => matchesPattern (pattern.map (·, true)) (text.drop size) with
  | some size => text.take size
  | none => text

/-- What an operator after a name makes of its value. -/
def modified (found : Option String) (operator : List Char) : List Char :=
  let text := (found.getD "").toList
  let sizes := List.range (text.length + 1)
  match operator with
  | ':' :: '-' :: other => if text.isEmpty then other else text
  | '-' :: other => if found.isNone then other else text
  | ':' :: '+' :: other => if text.isEmpty then [] else other
  | '+' :: other => if found.isNone then [] else other
  | '#' :: '#' :: pattern => dropStart pattern text sizes.reverse
  | '#' :: pattern => dropStart pattern text sizes
  | '%' :: '%' :: pattern => dropEnd pattern text sizes
  | '%' :: pattern => dropEnd pattern text sizes.reverse
  | _ => text

/-- The value of what stands behind a dollar sign. -/
def value (scope : Scope) (expression : String) : String :=
  match expression.toList with
  | '#' :: c :: rest => toString ((scope.lookup (String.ofList (c :: rest))).getD "").length
  | chars =>
    let name := nameIn chars
    String.ofList (modified (scope.lookup (String.ofList name)) (chars.drop name.length))

def number (scope : Scope) (name : String) : Int :=
  (((scope.lookup name).getD "").toInt?).getD 0

def assign (scope : Scope) (name value : String) : Scope :=
  { scope with bindings := (name, value) :: scope.bindings.filter (·.1 != name) }

end Scope

def sumText (scope : Scope) (expression : List Char) : String :=
  toString (sumValue scope.number expression)

/-- What a part stands for, before any division into fields. -/
def partText (scope : Scope) : Part → List Char
  | .text chars _ => chars
  | .param expression _ => (scope.value expression).toList
  | .command _ _ => []
  | .sum expression => (sumText scope expression).toList
  | .printed chars _ => chars

/-- The text of a word in one piece. -/
def oneText (scope : Scope) (word : Word) : String :=
  String.ofList (word.flatMap (partText scope))

/-- Fields being built: the finished ones, last first, and the open one. -/
structure Fields where
  done : List String
  current : Option String

namespace Fields

def add (fields : Fields) (text : String) : Fields :=
  { fields with current := some (fields.current.getD "" ++ text) }

def close (fields : Fields) : Fields :=
  ⟨fields.current.toList ++ fields.done, none⟩

/-- Adds texts, each but the first to a field of its own. -/
def addAll (fields : Fields) : List String → Fields
  | [] => fields
  | [text] => fields.add text
  | text :: rest => (fields.add text).close.addAll rest

def addUnquoted (fields : Fields) (chars : List Char) : Fields :=
  let words := (Text.words chars).map String.ofList
  let fields := if (chars.head?.map Text.isBlank).getD false then fields.close else fields
  let fields := fields.addAll words
  if (chars.getLast?.map Text.isBlank).getD false then fields.close else fields

end Fields

def isQuoted : Part → Bool
  | .text _ _ => true
  | .param _ quoted | .command _ quoted | .printed _ quoted => quoted
  | .sum _ => true

def fieldsOf (scope : Scope) (word : Word) : List String :=
  let fields := word.foldl (fun fields part =>
    if part = .param "@" true then fields.addAll scope.args
    else if isQuoted part then fields.add (String.ofList (partText scope part))
    else fields.addUnquoted (partText scope part)) (⟨[], none⟩ : Fields)
  fields.close.done.reverse

/-- A pattern of `case`, with the characters that stand for others marked. -/
def patternOf (scope : Scope) (word : Word) : List (Char × Bool) :=
  word.flatMap fun part =>
    match part with
    | .text chars quoted => chars.map (·, !quoted)
    | part => (partText scope part).map (·, !isQuoted part)

end LibSurvey.Script
