import LibSurvey.Script.Sum
import LibSurvey.Script.Syntax
import LibSurvey.Text.Blank

/-!
The lexemes of a script: words with their quotes resolved into parts, operators, and redirections
with the words or texts they need.
-/

namespace LibSurvey.Script

def specialParams : List Char :=
  ['#', '@', '*', '?', '$', '0', '1', '2', '3', '4', '5', '6', '7', '8', '9', '!', '-']

/-- The text up to the parenthesis that closes the one before it, and what follows; `quote` is the
quotation mark that the text stands behind, `depth` the number of parentheses open within it. -/
def closing (quote : Option Char) (depth : Nat) (seen : List Char) :
    List Char → Option (List Char × List Char)
  | [] => none
  | '\\' :: c :: rest => closing quote depth (c :: '\\' :: seen) rest
  | c :: rest =>
    match quote with
    | some mark => closing (if c = mark then none else quote) depth (c :: seen) rest
    | none =>
      if c = '\'' || c = '"' then closing (some c) depth (c :: seen) rest
      else if c = '(' then closing none (depth + 1) (c :: seen) rest
      else if c = ')' then
        match depth with
        | 0 => some (seen.reverse, rest)
        | depth + 1 => closing none depth (c :: seen) rest
      else closing none depth (c :: seen) rest

/-- A script in parentheses, or an expression in two pairs of them. -/
def commandPart (inside : List Char) (quoted : Bool) : Part :=
  match inside, inside.getLast? with
  | '(' :: expression, some ')' => .sum expression.dropLast
  | _, _ => .command inside quoted

/-- What a dollar sign starts, if it starts anything. -/
def dollarPart? (quoted : Bool) (text : List Char) : Option (Part × List Char) :=
  match text with
  | '(' :: rest =>
    (closing none 0 [] rest).map fun (inside, after) => (commandPart inside quoted, after)
  | '\x7b' :: rest =>
    match rest.dropWhile (· != '\x7d') with
    | _ :: after => some (.param (String.ofList (rest.takeWhile (· != '\x7d'))) quoted, after)
    | [] => none
  | c :: rest =>
    if specialParams.contains c then some (.param (String.singleton c) quoted, rest)
    else if isNameStart c then
      some (.param (String.ofList (c :: rest.takeWhile isNameChar)) quoted,
        rest.dropWhile isNameChar)
    else none
  | [] => none

/-- The older mark for a script whose output is wanted. -/
def isBackquote (c : Char) : Bool :=
  c.toNat = 0x60

/-- The script up to the closing mark, and what follows. -/
def backquoted (seen : List Char) : List Char → List Char × List Char
  | [] => (seen.reverse, [])
  | '\\' :: c :: rest =>
    if isBackquote c || c = '\\' || c = '$' then backquoted (c :: seen) rest
    else backquoted (c :: '\\' :: seen) rest
  | c :: rest => if isBackquote c then (seen.reverse, rest) else backquoted (c :: seen) rest

/-- Adds a text to the parts of a word, last first. -/
def addText (chars : List Char) (quoted : Bool) (parts : Word) : Word :=
  if chars.isEmpty then parts else .text chars.reverse quoted :: parts

/-- The parts of a text between double quotes, last first; `ends` is what ends it. -/
def doubleQuoted (ends : Char → Bool) :
    Nat → List Char → Word → List Char → Word × List Char
  | 0, seen, parts, rest => (addText seen true parts, rest)
  | _, seen, parts, [] => (addText seen true parts, [])
  | fuel + 1, seen, parts, '\\' :: c :: rest =>
    if c = '\n' then doubleQuoted ends fuel seen parts rest
    else if c = '$' || c = '\\' || c = '"' || isBackquote c then
      doubleQuoted ends fuel (c :: seen) parts rest
    else doubleQuoted ends fuel (c :: '\\' :: seen) parts rest
  | fuel + 1, seen, parts, '$' :: rest =>
    match dollarPart? true rest with
    | some (part, after) => doubleQuoted ends fuel [] (part :: addText seen true parts) after
    | none => doubleQuoted ends fuel ('$' :: seen) parts rest
  | fuel + 1, seen, parts, c :: rest =>
    if ends c then (addText seen true parts, rest)
    else if isBackquote c then
      let (script, after) := backquoted [] rest
      doubleQuoted ends fuel [] (.command script true :: addText seen true parts) after
    else doubleQuoted ends fuel (c :: seen) parts rest

def isMeta (c : Char) : Bool :=
  [' ', '\t', '\n', ';', '&', '|', '<', '>', '(', ')'].contains c

/-- A word from its first character on, with the text after it. -/
def word : Nat → List Char → Word → List Char → Word × List Char
  | 0, seen, parts, rest => ((addText seen false parts).reverse, rest)
  | _, seen, parts, [] => ((addText seen false parts).reverse, [])
  | fuel + 1, seen, parts, '\\' :: c :: rest =>
    if c = '\n' then word fuel seen parts rest
    else word fuel [] (.text [c] true :: addText seen false parts) rest
  | fuel + 1, seen, parts, '\'' :: rest =>
    let quoted := rest.takeWhile (· != '\'')
    word fuel [] (.text quoted true :: addText seen false parts) (rest.drop (quoted.length + 1))
  | fuel + 1, seen, parts, '"' :: rest =>
    let (inside, after) := doubleQuoted (· = '"') (rest.length + 1) [] [] rest
    let inside := if inside.isEmpty then [.text [] true] else inside
    word fuel [] (inside ++ addText seen false parts) after
  | fuel + 1, seen, parts, '$' :: rest =>
    match dollarPart? false rest with
    | some (part, after) => word fuel [] (part :: addText seen false parts) after
    | none => word fuel ('$' :: seen) parts rest
  | fuel + 1, seen, parts, c :: rest =>
    if isMeta c then ((addText seen false parts).reverse, c :: rest)
    else if isBackquote c then
      let (script, after) := backquoted [] rest
      word fuel [] (.command script false :: addText seen false parts) after
    else word fuel (c :: seen) parts rest

/-- The text of a word as it is written, quotes apart. -/
def plainText (word : Word) : List Char :=
  word.flatMap fun part =>
    match part with
    | .text chars _ => chars
    | .param expression _ => '$' :: expression.toList
    | _ => []

def hasQuotes (word : Word) : Bool :=
  word.any fun part =>
    match part with
    | .text _ quoted => quoted
    | _ => false

/-- The lines before one that is a given word, and the lines after it. -/
def untilLine (delimiter : List Char) (body : List Char) (lines : List (List Char)) :
    List Char × List (List Char) :=
  match lines with
  | [] => (body, [])
  | line :: rest =>
    if line = delimiter then (body, rest) else untilLine delimiter (body ++ line ++ ['\n']) rest

def joinLines (lines : List (List Char)) : List Char :=
  ['\n'].intercalate lines

/-- Takes the text that the lines after the current one hold, up to a delimiter; tabs at the start of
lines may not count. -/
def hereText (dropsTabs : Bool) (delimiter : Word) (rest : List Char) : Word × List Char :=
  let line := rest.takeWhile (· != '\n')
  let following := Text.splitAt (· = '\n') (rest.drop (line.length + 1))
  let shown := if dropsTabs then following.map (·.dropWhile (· = '\t')) else following
  let (body, left) := untilLine (plainText delimiter) [] shown
  let after := following.drop (following.length - left.length)
  let text : Word :=
    if hasQuotes delimiter then [.text body true]
    else (doubleQuoted (fun _ => false) (body.length + 1) [] [] body).1.reverse
  (text, line ++ '\n' :: joinLines after)

/-- A redirection after its stream and its first sign. -/
def redirection (source : Option Nat) (output : Bool) (rest : List Char) :
    Redirect × List Char :=
  match output, rest with
  | true, '&' :: c :: after =>
    (.join (source.getD 1) (c.toNat - '0'.toNat), after)
  | true, rest =>
    let keeps := rest.head? = some '>'
    let rest := if keeps then rest.tail else rest
    let (target, after) := word (rest.length + 1) [] [] (skipSpaces rest)
    (.toFile (source.getD 1) target keeps, after)
  | false, '&' :: _ :: after => (.join 0 0, after)
  | false, '<' :: after =>
    let dropsTabs := after.head? = some '-'
    let after := if dropsTabs then after.tail else after
    let (delimiter, after) := word (rest.length + 1) [] [] (skipSpaces after)
    let (text, after) := hereText dropsTabs delimiter after
    (.fromText text, after)
  | false, rest =>
    let (source, after) := word (rest.length + 1) [] [] (skipSpaces rest)
    (.fromFile source, after)

/-- The lexemes of a script; the fuel is its length. -/
def lexemes : Nat → Nat → List Lexeme → List Char → List Lexeme
  | 0, _, seen, _ => seen.reverse
  | _, _, seen, [] => seen.reverse
  | fuel + 1, line, seen, c :: rest =>
    if c = '\n' then lexemes fuel (line + 1) (.newline :: seen) rest
    else if c = ' ' || c = '\t' || c = '\r' then lexemes fuel line seen rest
    else if c = '#' then lexemes fuel line seen (rest.dropWhile (· != '\n'))
    else if c = '\\' && rest.head? = some '\n' then lexemes fuel (line + 1) seen rest.tail
    else if c = '<' || c = '>' then
      let (redirect, after) := redirection none (c = '>') rest
      lexemes fuel line (.redirect redirect :: seen) after
    else if c.isDigit && (rest.head? = some '<' || rest.head? = some '>') then
      let (redirect, after) :=
        redirection (some (c.toNat - '0'.toNat)) (rest.head? = some '>') rest.tail
      lexemes fuel line (.redirect redirect :: seen) after
    else if isMeta c then
      if rest.head? = some c && (c = ';' || c = '&' || c = '|') then
        lexemes fuel line (.operator (String.ofList [c, c]) :: seen) rest.tail
      else lexemes fuel line (.operator (String.singleton c) :: seen) rest
    else
      let (found, after) := word (rest.length + 2) [] [] (c :: rest)
      let passed := (c :: rest).length - after.length
      let newlines := ((c :: rest).take passed).count '\n'
      lexemes fuel (line + newlines) (.word found line :: seen) after

end LibSurvey.Script
