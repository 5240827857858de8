import LibSurvey.OsError
import LibSurvey.Script.Format
import LibSurvey.Text.Blank
import LibSurvey.Text.Distinct

/-!
The programs that scripts call, as functions from arguments and standard input to what they leave.
-/

namespace LibSurvey.Script

/-- What a program leaves: its output, its error text and its status, the input it did not read and
the time it took. -/
structure Effect where
  output : List UInt8
  errors : List UInt8
  status : Nat
  input : List UInt8
  elapsedMs : Nat

/-- How files are read, by their names. -/
abbrev ReadFile : Type := String → Except OsError (List UInt8)

namespace Effect

/-- What a program leaves that has read all its input. -/
def write (output : List UInt8) : Effect :=
  ⟨output, [], 0, [], 0⟩

/-- What a program leaves that has not read any. -/
def say (input output : List UInt8) : Effect :=
  ⟨output, [], 0, input, 0⟩

def done (input : List UInt8) (status : Nat) : Effect :=
  ⟨[], [], status, input, 0⟩

def complain (input : List UInt8) (status : Nat) (text : String) : Effect :=
  ⟨[], bytesOf (text ++ "\n").toList, status, input, 0⟩

end Effect

/-- A time such as `5` or `0.25` in milliseconds. -/
def milliseconds (text : String) : Nat :=
  let chars := text.toList
  let whole := chars.takeWhile Char.isDigit
  let fraction := ((chars.drop (whole.length + 1)).takeWhile Char.isDigit ++ ['0', '0', '0']).take 3
  decimalValue whole * 1000 + decimalValue fraction

def byteRange (first last : Nat) : List UInt8 :=
  (List.range (last + 1 - first)).map fun k => UInt8.ofNat (first + k)

/-- The sets of `tr` that have names. -/
def namedSets : List (String × List UInt8) :=
  [("[:upper:]", byteRange 65 90), ("[:lower:]", byteRange 97 122), ("[:digit:]", byteRange 48 57),
    ("[:space:]", byteRange 9 13 ++ [32]), ("[:blank:]", [9, 32]),
    ("[:alpha:]", byteRange 65 90 ++ byteRange 97 122),
    ("[:alnum:]", byteRange 48 57 ++ byteRange 65 90 ++ byteRange 97 122)]

/-- Joins the ends of ranges such as `a-z`. -/
def withRanges : List UInt8 → List UInt8
  | first :: 45 :: last :: rest => byteRange first.toNat last.toNat ++ withRanges rest
  | byte :: rest => byte :: withRanges rest
  | [] => []

/-- The bytes that a set of `tr` stands for. -/
def byteSet (text : String) : List UInt8 :=
  (namedSets.lookup text).getD (withRanges (unescape (text.length + 1) [] text.toList).1)

/-- Keeps one of several equal bytes of a set that follow one another. -/
def squeeze (set : List UInt8) : List UInt8 → List UInt8
  | a :: b :: rest =>
    if a = b && set.contains a then squeeze set (b :: rest) else a :: squeeze set (b :: rest)
  | rest => rest

def translate (args : List String) (input : List UInt8) : Effect :=
  match args with
  | ["-d", set] =>
    let set := byteSet set
    Effect.write (input.filter (!set.contains ·))
  | ["-s", set] => Effect.write (squeeze (byteSet set) input)
  | [source, target] =>
    let source := byteSet source
    let target := byteSet target
    Effect.write (input.map fun b =>
      match source.idxOf? b with
      | some index => (target[index]?).getD (target.getLast?.getD b)
      | none => b)
  | _ => Effect.complain input 1 "tr: missing operand"

/-- Files one after another, a dash for the standard input, or that alone if none is named. -/
def concatenate (program : String) (read : ReadFile) (input : List UInt8) (names : List String) :
    Effect :=
  if names.isEmpty then Effect.write input
  else names.foldl (fun effect name =>
    if name = "-" then { effect with output := effect.output ++ effect.input, input := [] }
    else match read name with
      | .ok bytes => { effect with output := effect.output ++ bytes }
      | .error error =>
        { effect with
          errors := effect.errors ++ bytesOf s!"{program}: {name}: {error.description}\n".toList
          status := 1 }) (Effect.done input 0)

/-- A program that makes something of its input as a whole. -/
def filter (program : String) (read : ReadFile) (input : List UInt8) (names : List String)
    (make : List UInt8 → List UInt8) : Effect :=
  let effect := concatenate program read input names
  { effect with output := make effect.output }

def padLeft (width : Nat) (text : String) : String :=
  String.ofList (List.replicate (width - text.length) ' ') ++ text

def count (read : ReadFile) (args : List String) (input : List UInt8) : Effect :=
  let flags := args.takeWhile fun arg => arg.startsWith "-"
  let names := args.drop flags.length
  filter "wc" read input names fun bytes =>
    let lines := bytes.count 10
    let words := (Text.words (Text.Utf8.decodeLossy bytes)).length
    let shown := match flags with
      | ["-c"] => toString bytes.length
      | ["-l"] => toString lines
      | ["-w"] => toString words
      | _ =>
        let width := if names.isEmpty then 7 else (toString bytes.length).length
        " ".intercalate ([lines, words, bytes.length].map fun size => padLeft width (toString size))
    let names := if names.isEmpty then "" else " " ++ " ".intercalate names
    bytesOf (shown ++ names ++ "\n").toList

/-- The lines of some bytes, each with its end. -/
def linesOf (bytes : List UInt8) : List (List UInt8) :=
  (bytes.foldr (fun byte lines =>
    match lines with
    | line :: rest => if byte = 10 then [10] :: lines else (byte :: line) :: rest
    | [] => [[byte]]) ([] : List (List UInt8)))

/-- The size that flags such as `-n 3`, `-n3` or `-3` give, with the names after them. -/
def sizeFlag (letter : Char) (args : List String) : Option String × List String :=
  match args with
  | flag :: rest =>
    match flag.toList with
    | ['-', c] =>
      if c = letter then (rest.head?, rest.tail)
      else if c.isDigit && letter = 'n' then (some (String.singleton c), rest)
      else (none, args)
    | '-' :: c :: size =>
      if c = letter then (some (String.ofList size), rest)
      else if c.isDigit && letter = 'n' then (some (String.ofList (c :: size)), rest)
      else (none, args)
    | _ => (none, args)
  | [] => (none, args)

def head (read : ReadFile) (args : List String) (input : List UInt8) : Effect :=
  match sizeFlag 'c' args with
  | (some size, ["/dev/zero"]) => Effect.say input (List.replicate (size.toNat?.getD 0) 0)
  | (some size, []) =>
    let size := size.toNat?.getD 0
    Effect.say (input.drop size) (input.take size)
  | (some size, names) => filter "head" read input names (·.take (size.toNat?.getD 0))
  | (none, args) =>
    let (size, names) := sizeFlag 'n' args
    filter "head" read input names fun bytes =>
      ((linesOf bytes).take ((size.bind String.toNat?).getD 10)).flatten

/-- The last part of a list, or all from a place on if the size has a plus sign. -/
def lastPart {α : Type} (size : String) (items : List α) : List α :=
  match size.toList with
  | '+' :: digits => items.drop (decimalValue digits - 1)
  | digits => items.drop (items.length - decimalValue (digits.dropWhile (· = '-')))

def tail (read : ReadFile) (args : List String) (input : List UInt8) : Effect :=
  match sizeFlag 'c' args with
  | (some size, names) => filter "tail" read input names (lastPart size)
  | (none, args) =>
    let (size, names) := sizeFlag 'n' args
    filter "tail" read input names fun bytes => (lastPart (size.getD "10") (linesOf bytes)).flatten

/-- The numbers from one to another. -/
def sequence (first last : Int) : List UInt8 :=
  (List.range (last + 1 - first).toNat).flatMap fun (k : Nat) =>
    bytesOf (toString (first + Int.ofNat k) ++ "\n").toList

def numbersUpTo (args : List String) (input : List UInt8) : Effect :=
  match args.map fun arg => arg.toInt?.getD 0 with
  | [last] => Effect.say input (sequence 1 last)
  | [first, last] => Effect.say input (sequence first last)
  | _ => Effect.complain input 1 "seq: missing operand"

/-- The lines that contain a text; only what they are is shown, or whether there are any. -/
def search (read : ReadFile) (args : List String) (input : List UInt8) : Effect :=
  let flags := (args.takeWhile fun arg => arg.startsWith "-").flatMap (·.toList.drop 1)
  match args.dropWhile fun arg => arg.startsWith "-" with
  | [] => Effect.complain input 2 "usage: grep pattern [file ...]"
  | pattern :: names =>
    let effect := concatenate "grep" read input names
    let found := (linesOf effect.output).filter fun line =>
      Text.occursIn pattern.toList (Text.Utf8.decodeLossy line) != flags.contains 'v'
    let output :=
      if flags.contains 'q' then []
      else if flags.contains 'c' then bytesOf s!"{found.length}\n".toList
      else found.flatMap fun line => if line.getLast? = some 10 then line else line ++ [10]
    { effect with output, status := if found.isEmpty then 1 else effect.status }

/-- A path without its last part, as `dirname` shows it. -/
def directoryOf (path : String) : String :=
  match path.toList.reverse.dropWhile (· != '/') with
  | [] => "."
  | ['/'] => "/"
  | before => String.ofList (before.dropWhile (· = '/')).reverse

def baseOf (path suffix : String) : String :=
  let name := (path.toList.reverse.dropWhile (· = '/')).takeWhile (· != '/')
  let ending := suffix.toList.reverse
  String.ofList (if ending.isPrefixOf name && ending != name then name.drop ending.length
    else name).reverse

def compareNumbers (left right : String) (compare : Int → Int → Bool) : Bool :=
  match left.toInt?, right.toInt? with
  | some left, some right => compare left right
  | _, _ => false

def isDirectory (read : ReadFile) (name : String) : Bool :=
  match read name with
  | .error .isDirectory => true
  | _ => false

/-- The tests of `[`. -/
def holds (read : ReadFile) : List String → Bool
  | [] => false
  | [text] => !text.isEmpty
  | ["!", text] => text.isEmpty
  | ["-z", text] => text.isEmpty
  | ["-n", text] => !text.isEmpty
  | ["-f", name] | ["-r", name] | ["-x", name] => (read name).toOption.isSome
  | ["-s", name] => ((read name).toOption.map (!·.isEmpty)).getD false
  | ["-d", name] => isDirectory read name
  | ["-e", name] => (read name).toOption.isSome || isDirectory read name
  | [left, "=", right] => left = right
  | [left, "!=", right] => left != right
  | [left, "-eq", right] => compareNumbers left right (· == ·)
  | [left, "-ne", right] => compareNumbers left right (· != ·)
  | [left, "-lt", right] => compareNumbers left right (· < ·)
  | [left, "-le", right] => compareNumbers left right (· ≤ ·)
  | [left, "-gt", right] => compareNumbers left right (· > ·)
  | [left, "-ge", right] => compareNumbers left right (· ≥ ·)
  | "!" :: rest => !holds read rest
  | _ => false

def testStatus (read : ReadFile) (args : List String) : Nat :=
  if holds read args then 0 else 1

/-- The programs that are there without being files of the survey. -/
def program? (read : ReadFile) (name : String) (args : List String) (input : List UInt8) :
    Option Effect :=
  match name with
  | "true" => some (Effect.done input 0)
  | "false" => some (Effect.done input 1)
  | "echo" => some (Effect.say input (echoed args))
  | "printf" =>
    match args with
    | [] => some (Effect.complain input 2 "usage: printf format [arg ...]")
    | pattern :: args =>
      some (Effect.say input (formatted (args.length + 1) [] pattern.toList args))
  | "cat" => some (concatenate "cat" read input args)
  | "sleep" => some { Effect.done input 0 with elapsedMs := args.foldl (fun total arg => total + milliseconds arg) 0 }
  | "tr" => some (translate args input)
  | "wc" => some (count read args input)
  | "head" => some (head read args input)
  | "tail" => some (tail read args input)
  | "seq" => some (numbersUpTo args input)
  | "grep" => some (search read args input)
  | "basename" =>
    some (Effect.say input
      (bytesOf (baseOf (args.head?.getD "") ((args[1]?).getD "") ++ "\n").toList))
  | "dirname" =>
    some (Effect.say input (bytesOf (directoryOf (args.head?.getD "") ++ "\n").toList))
  | "test" => some (Effect.done input (testStatus read args))
  | "[" => some (Effect.done input (testStatus read args.dropLast))
  | _ => none

end LibSurvey.Script
