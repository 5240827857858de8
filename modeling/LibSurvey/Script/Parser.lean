import LibSurvey.Script.Lexer

/-!
The commands of a script. What cannot be read ends the script there.
-/

namespace LibSurvey.Script

/-- The word that a lexeme is, if it is written without quotes and parameters. -/
def keyword? : Lexeme → Option String
  | .word [.text chars false] _ => some (String.ofList chars)
  | _ => none

def isKeyword (lexeme : Lexeme) (text : String) : Bool :=
  keyword? lexeme = some text

def skipNewlines (lexemes : List Lexeme) : List Lexeme :=
  lexemes.dropWhile fun lexeme =>
    lexeme = .newline || lexeme = .operator ";" || lexeme = .operator "&"

/-- A name and value of the form `name=value`. -/
def assignment? (word : Word) : Option (String × Word) :=
  match word with
  | .text chars false :: rest =>
    let name := chars.takeWhile (· != '=')
    match chars.dropWhile (· != '=') with
    | _ :: value =>
      if isName name then some (String.ofList name, .text value false :: rest) else none
    | [] => none
  | _ => none

/-- Keywords that end a list of commands. -/
def closers : List String :=
  ["then", "else", "elif", "fi", "do", "done", "esac", "\x7d"]

/-- The words and redirections of a simple command. -/
def simpleParts (assignments : List (String × Word)) (words : List Word)
    (redirects : List Redirect) :
    List Lexeme → List (String × Word) × List Word × List Redirect × List Lexeme
  | .word word line :: rest =>
    match assignment? word, words with
    | some assigned, [] => simpleParts (assigned :: assignments) words redirects rest
    | _, _ =>
      if words.isEmpty && closers.any (isKeyword (.word word line)) then
        (assignments.reverse, [], redirects.reverse, .word word line :: rest)
      else simpleParts assignments (word :: words) redirects rest
  | .redirect redirect :: rest => simpleParts assignments words (redirect :: redirects) rest
  | rest => (assignments.reverse, words.reverse, redirects.reverse, rest)

def lineOf : List Lexeme → Nat
  | .word _ line :: _ => line
  | _ => 0

/-- The patterns of an arm of `case`, up to the closing parenthesis. -/
def patterns (seen : List Word) : List Lexeme → List Word × List Lexeme
  | .word word _ :: rest => patterns (word :: seen) rest
  | .operator ")" :: rest => (seen.reverse, rest)
  | .operator _ :: rest => patterns seen rest
  | rest => (seen.reverse, rest)

/-- The redirections that follow a compound command. -/
def redirectsAfter (body : Command) (found : List Redirect) : List Lexeme → Command × List Lexeme
  | .redirect redirect :: rest => redirectsAfter body (redirect :: found) rest
  | rest => (if found.isEmpty then body else .redirected body found.reverse, rest)

mutual

/-- Commands one after another, up to what closes them. -/
def parseList : Nat → List Lexeme → Command × List Lexeme
  | 0, rest => (.nothing, rest)
  | fuel + 1, lexemes =>
    match skipNewlines lexemes with
    | [] => (.nothing, [])
    | first :: rest =>
      if closers.any (isKeyword first) || first = .operator ")" || first = .operator ";;" then
        (.nothing, first :: rest)
      else
        let (command, after) := parseAndOr fuel (first :: rest)
        if after.length < (first :: rest).length then
          let (others, after) := parseList fuel after
          (.sequence command others, after)
        else (command, [])

/-- Pipelines joined by `&&` and `||`. -/
def parseAndOr : Nat → List Lexeme → Command × List Lexeme
  | 0, rest => (.nothing, rest)
  | fuel + 1, lexemes =>
    let (first, rest) := parsePipe fuel lexemes
    parseAndOrRest fuel first rest

def parseAndOrRest : Nat → Command → List Lexeme → Command × List Lexeme
  | 0, first, rest => (first, rest)
  | fuel + 1, first, .operator "&&" :: rest =>
    let (second, rest) := parsePipe fuel (skipNewlines rest)
    parseAndOrRest fuel (.both first second) rest
  | fuel + 1, first, .operator "||" :: rest =>
    let (second, rest) := parsePipe fuel (skipNewlines rest)
    parseAndOrRest fuel (.either first second) rest
  | _, first, rest => (first, rest)

def parsePipe : Nat → List Lexeme → Command × List Lexeme
  | 0, rest => (.nothing, rest)
  | fuel + 1, lexemes =>
    let (first, rest) := parseCommand fuel lexemes
    match rest with
    | .operator "|" :: rest =>
      let (second, rest) := parsePipe fuel (skipNewlines rest)
      (.pipe first second, rest)
    | rest => (first, rest)

def parseCommand : Nat → List Lexeme → Command × List Lexeme
  | 0, rest => (.nothing, rest)
  | fuel + 1, lexemes =>
    match lexemes with
    | [] => (.nothing, [])
    | first :: rest =>
      match keyword? first with
      | some "!" =>
        let (body, rest) := parseCommand fuel rest
        (.negate body, rest)
      | _ =>
        match parseCompound fuel first rest with
        | some (body, rest) => redirectsAfter body [] rest
        | none =>
          let (assignments, words, redirects, rest) := simpleParts [] [] [] (first :: rest)
          (.simple assignments words redirects (lineOf lexemes), rest)

/-- A command that is made of others, by its first lexeme. -/
def parseCompound : Nat → Lexeme → List Lexeme → Option (Command × List Lexeme)
  | 0, _, _ => none
  | fuel + 1, first, rest =>
    if first = .operator "(" then
      let (body, rest) := parseList fuel rest
      some (.apart body, rest.drop 1)
    else match keyword? first, rest with
      | some "\x7b", rest =>
        let (body, rest) := parseList fuel rest
        some (body, rest.drop 1)
      | some "if", rest => some (parseIf fuel rest)
      | some "case", .word subject _ :: rest =>
        let (arms, rest) := parseArms fuel ((skipNewlines rest).drop 1)
        some (.choose subject arms, rest)
      | some "while", rest => some (parseLoop fuel id rest)
      | some "until", rest => some (parseLoop fuel Command.negate rest)
      | some "for", .word name _ :: rest =>
        let (words, rest) := match skipNewlines rest with
          | next :: after =>
            if isKeyword next "in" then
              let (_, words, _, rest) := simpleParts [] [] [] after
              (words, rest)
            else ([[.param "@" true]], next :: after)
          | [] => ([], [])
        let (body, rest) := parseList fuel ((skipNewlines rest).drop 1)
        some (.each (String.ofList (plainText name)) words body, rest.drop 1)
      | _, _ => none

/-- What follows `while` or `until`. -/
def parseLoop : Nat → (Command → Command) → List Lexeme → Command × List Lexeme
  | 0, _, rest => (.nothing, rest)
  | fuel + 1, sense, lexemes =>
    let (condition, rest) := parseList fuel lexemes
    let (body, rest) := parseList fuel (rest.drop 1)
    (.loop (sense condition) body, rest.drop 1)

/-- What follows `if` or `elif`. -/
def parseIf : Nat → List Lexeme → Command × List Lexeme
  | 0, rest => (.nothing, rest)
  | fuel + 1, lexemes =>
    let (condition, rest) := parseList fuel lexemes
    let (yes, rest) := parseList fuel (rest.drop 1)
    match rest with
    | next :: rest =>
      if isKeyword next "elif" then
        let (no, rest) := parseIf fuel rest
        (.branch condition yes no, rest)
      else if isKeyword next "else" then
        let (no, rest) := parseList fuel rest
        (.branch condition yes no, rest.drop 1)
      else (.branch condition yes .nothing, rest)
    | [] => (.branch condition yes .nothing, [])

def parseArms : Nat → List Lexeme → List (List Word × Command) × List Lexeme
  | 0, rest => ([], rest)
  | fuel + 1, lexemes =>
    match skipNewlines lexemes with
    | [] => ([], [])
    | first :: rest =>
      if isKeyword first "esac" then ([], rest)
      else
        let (words, rest) := patterns [] (first :: rest)
        let (body, rest) := parseList fuel rest
        let rest := match rest with
          | .operator ";;" :: rest => rest
          | rest => rest
        let (others, rest) := parseArms fuel rest
        ((words, body) :: others, rest)

end

def parse (text : List Char) : Command :=
  let found := lexemes (text.length + 1) 1 [] text
  (parseList (8 * found.length + 8) found).1

end LibSurvey.Script
