import LibSurvey.Script.Sum
import LibSurvey.Text.Utf8

/-!
What `echo` and `printf` write: texts with escapes and formats with arguments, as bytes.
-/

namespace LibSurvey.Script

def bytesOf (text : List Char) : List UInt8 :=
  Text.Utf8.encode text

def octalValue (digits : List Char) : Nat :=
  digits.foldl (fun value c => value * 8 + (c.toNat - '0'.toNat)) 0

def isOctal (c : Char) : Bool :=
  '0' ≤ c && c ≤ '7'

/-- The byte that up to three octal digits at the front give, and what follows them. -/
def octalByte (text : List Char) : UInt8 × List Char :=
  let digits := (text.take 3).takeWhile isOctal
  (UInt8.ofNat (octalValue digits), text.drop digits.length)

/-- The control characters that a letter behind a backslash stands for. -/
def controlEscapes : List (Char × UInt8) :=
  [('n', 10), ('t', 9), ('r', 13), ('a', 7), ('b', 8), ('f', 12), ('v', 11), ('\\', 92)]

/-- The bytes of a text with its escapes replaced, up to `\c`, and whether that was met; `seen` holds
the bytes so far, last first. -/
def unescape : Nat → List UInt8 → List Char → List UInt8 × Bool
  | 0, seen, _ => (seen.reverse, false)
  | _, seen, [] => (seen.reverse, false)
  | fuel + 1, seen, '\\' :: c :: rest =>
    match controlEscapes.lookup c with
    | some byte => unescape fuel (byte :: seen) rest
    | none =>
      if c = 'c' then (seen.reverse, true)
      else if isOctal c then
        let (byte, rest) := octalByte (if c = '0' then rest else c :: rest)
        unescape fuel (byte :: seen) rest
      else unescape fuel (92 :: seen) (c :: rest)
  | fuel + 1, seen, c :: rest => unescape fuel ((bytesOf [c]).reverse ++ seen) rest

/-- What `echo` writes. -/
def echoed (args : List String) : List UInt8 :=
  let (newline, args) := match args with
    | "-n" :: rest => (false, rest)
    | args => (true, args)
  let text := (" ".intercalate args).toList
  let (shown, cut) := unescape (text.length + 1) [] text
  if newline && !cut then shown ++ [10] else shown

/-- How a value is set out: whether on the left, what fills the space, how wide it is at least, and
how much of it is shown. -/
structure Layout where
  left : Bool
  zeros : Bool
  width : Nat
  precision : Option Nat

/-- The layout between a percent sign and a letter. -/
def layoutFrom (text : List Char) : Layout × List Char :=
  let isFlag (c : Char) : Bool := c = '-' || c = '0' || c = '+' || c = ' '
  let flags := text.takeWhile isFlag
  let text := text.dropWhile isFlag
  let width := decimalValue (text.takeWhile Char.isDigit)
  let (precision, text) : Option Nat × List Char := match text.dropWhile Char.isDigit with
    | '.' :: rest =>
      (some (decimalValue (rest.takeWhile Char.isDigit)), rest.dropWhile Char.isDigit)
    | rest => (none, rest)
  (⟨flags.contains '-', flags.contains '0', width, precision⟩, text)

def Layout.set (layout : Layout) (number : Bool) (bytes : List UInt8) : List UInt8 :=
  let space := layout.width - bytes.length
  if layout.left then bytes ++ List.replicate space 32
  else if layout.zeros && number then
    match bytes with
    | 45 :: digits => 45 :: (List.replicate space 48 ++ digits)
    | digits => List.replicate space 48 ++ digits
  else List.replicate space 32 ++ bytes

def hexDigits (value : Nat) : List Char :=
  Nat.toDigits 16 value

/-- What a letter of a format makes of an argument, if it is known. -/
def converted? (layout : Layout) (letter : Char) (arg : String) : Option (List UInt8) :=
  let number : Int := arg.toInt?.getD 0
  let cut (bytes : List UInt8) : List UInt8 :=
    (layout.precision.map fun size => bytes.take size).getD bytes
  match letter with
  | 's' => some (layout.set false (cut (bytesOf arg.toList)))
  | 'b' => some (layout.set false (cut (unescape (arg.length + 1) [] arg.toList).1))
  | 'c' => some (layout.set false ((bytesOf arg.toList).take 1))
  | 'd' | 'i' | 'u' => some (layout.set true (bytesOf (toString number).toList))
  | 'x' => some (layout.set true (bytesOf (hexDigits number.toNat)))
  | 'X' => some (layout.set true (bytesOf ((hexDigits number.toNat).map Char.toUpper)))
  | 'o' => some (layout.set true (bytesOf (Nat.toDigits 8 number.toNat)))
  | _ => none

/-- One use of a format: the bytes made, the arguments left and whether any was used. -/
def formatOnce : Nat → List UInt8 → List String → Bool → List Char →
    List UInt8 × List String × Bool
  | 0, seen, args, used, _ => (seen.reverse, args, used)
  | _, seen, args, used, [] => (seen.reverse, args, used)
  | fuel + 1, seen, args, used, '%' :: rest =>
    let (layout, after) := layoutFrom rest
    match after with
    | '%' :: after => formatOnce fuel (37 :: seen) args used after
    | letter :: after =>
      match converted? layout letter (args.head?.getD "") with
      | some bytes => formatOnce fuel (bytes.reverse ++ seen) args.tail true after
      | none => formatOnce fuel (37 :: seen) args used rest
    | [] => ((37 :: seen).reverse, args, used)
  | fuel + 1, seen, args, used, '\\' :: c :: rest =>
    match controlEscapes.lookup c with
    | some byte => formatOnce fuel (byte :: seen) args used rest
    | none =>
      if isOctal c then
        let (byte, rest) := octalByte (c :: rest)
        formatOnce fuel (byte :: seen) args used rest
      else formatOnce fuel (92 :: seen) args used (c :: rest)
  | fuel + 1, seen, args, used, c :: rest =>
    formatOnce fuel ((bytesOf [c]).reverse ++ seen) args used rest

/-- A format is used again as long as arguments are left. -/
def formatted : Nat → List UInt8 → List Char → List String → List UInt8
  | 0, seen, _, _ => seen
  | rounds + 1, seen, pattern, args =>
    let (bytes, left, used) := formatOnce (pattern.length + 1) [] args false pattern
    if used && !left.isEmpty then formatted rounds (seen ++ bytes) pattern left else seen ++ bytes

end LibSurvey.Script
