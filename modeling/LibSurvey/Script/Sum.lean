import LibSurvey.Word

/-!
Expressions over integers in scripts: numbers and variables with the four operations, remainders and
parentheses. What is no expression counts as zero.
-/

namespace LibSurvey.Script

/-- The value of a number in decimal digits. -/
def decimalValue (digits : List Char) : Nat :=
  digits.foldl (fun value c => value * 10 + (c.toNat - '0'.toNat)) 0

def skipSpaces (text : List Char) : List Char :=
  text.dropWhile fun c => c = ' ' || c = '\t'

mutual

/-- A sum, and what follows it. -/
def sumFrom (valueOf : String → Int) : Nat → List Char → Int × List Char
  | 0, text => (0, text)
  | fuel + 1, text =>
    let (first, rest) := productFrom valueOf fuel text
    addTerms valueOf fuel first rest

def addTerms (valueOf : String → Int) : Nat → Int → List Char → Int × List Char
  | 0, total, text => (total, text)
  | fuel + 1, total, text =>
    match skipSpaces text with
    | '+' :: rest =>
      let (next, rest) := productFrom valueOf fuel rest
      addTerms valueOf fuel (total + next) rest
    | '-' :: rest =>
      let (next, rest) := productFrom valueOf fuel rest
      addTerms valueOf fuel (total - next) rest
    | rest => (total, rest)

def productFrom (valueOf : String → Int) : Nat → List Char → Int × List Char
  | 0, text => (0, text)
  | fuel + 1, text =>
    let (first, rest) := factorFrom valueOf fuel text
    addFactors valueOf fuel first rest

def addFactors (valueOf : String → Int) : Nat → Int → List Char → Int × List Char
  | 0, total, text => (total, text)
  | fuel + 1, total, text =>
    match skipSpaces text with
    | '*' :: rest =>
      let (next, rest) := factorFrom valueOf fuel rest
      addFactors valueOf fuel (total * next) rest
    | '/' :: rest =>
      let (next, rest) := factorFrom valueOf fuel rest
      addFactors valueOf fuel (total.tdiv next) rest
    | '%' :: rest =>
      let (next, rest) := factorFrom valueOf fuel rest
      addFactors valueOf fuel (total.tmod next) rest
    | rest => (total, rest)

def factorFrom (valueOf : String → Int) : Nat → List Char → Int × List Char
  | 0, text => (0, text)
  | fuel + 1, text =>
    match skipSpaces text with
    | '(' :: rest =>
      let (value, rest) := sumFrom valueOf fuel rest
      (value, (skipSpaces rest).drop 1)
    | '-' :: rest =>
      let (value, rest) := factorFrom valueOf fuel rest
      (-value, rest)
    | '$' :: c :: rest =>
      if isNameStart c then factorFrom valueOf fuel (c :: rest)
      else if c = '\x7b' then
        (valueOf (String.ofList (rest.takeWhile (· != '\x7d'))),
          (rest.dropWhile (· != '\x7d')).drop 1)
      else (valueOf (String.singleton c), rest)
    | c :: rest =>
      if c.isDigit then
        (decimalValue ((c :: rest).takeWhile Char.isDigit), (c :: rest).dropWhile Char.isDigit)
      else if isNameStart c then
        (valueOf (String.ofList ((c :: rest).takeWhile isNameChar)),
          (c :: rest).dropWhile isNameChar)
      else (0, c :: rest)
    | [] => (0, [])

end

/-- The value of an expression; each step of reading it takes a character or goes one level further
in, of which there are four. -/
def sumValue (valueOf : String → Int) (expression : List Char) : Int :=
  (sumFrom valueOf (4 * expression.length + 4) expression).1

end LibSurvey.Script
