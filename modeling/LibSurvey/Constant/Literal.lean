import LibSurvey.Text.Blank

/-!
Integer literals. A literal has an optional sign, digits in base two, ten or sixteen and any number
of `u` and `l` at its end. Hexadecimal and binary digits give a pattern of 64 bits; a decimal value
has to fit.
-/

namespace LibSurvey.Literal

def digitValue (c : Char) : Nat :=
  if c.isDigit then c.toNat - '0'.toNat
  else if 'a' ≤ c && c ≤ 'z' then c.toNat - 'a'.toNat + 10
  else if 'A' ≤ c && c ≤ 'Z' then c.toNat - 'A'.toNat + 10
  else 36

def isDigitIn (radix : Nat) (c : Char) : Bool :=
  digitValue c < radix

def digitsValue (radix : Nat) (digits : List Char) : Nat :=
  digits.foldl (fun value c => value * radix + digitValue c) 0

/-- A magnitude that 64 bits hold, from one digit or more. -/
def magnitude? (radix : Nat) (digits : List Char) : Option Nat :=
  if digits.isEmpty || !digits.all (isDigitIn radix) then none
  else
    let value := digitsValue radix digits
    if value < UInt64.size then some value else none

def isSuffixChar (c : Char) : Bool :=
  c = 'u' || c = 'U' || c = 'l' || c = 'L'

/-- The sign of a literal and what follows it. -/
def splitSign (text : List Char) : Bool × List Char :=
  match text with
  | '-' :: rest => (true, Text.trimLeft rest)
  | '+' :: rest => (false, Text.trimLeft rest)
  | _ => (false, text)

/-- A pattern of 64 bits, or its negation. -/
def pattern? (radix : Nat) (negative : Bool) (digits : List Char) : Option Int64 :=
  (magnitude? radix digits).map fun value =>
    if negative then -Int64.ofNat value else Int64.ofNat value

/-- A decimal value in the range of 64 bits with a sign. -/
def decimal? (negative : Bool) (digits : List Char) : Option Int64 :=
  (magnitude? 10 digits).bind fun value =>
    let signed : Int := if negative then -(value : Int) else value
    if Int64.minValue.toInt ≤ signed && signed ≤ Int64.maxValue.toInt then some (Int64.ofInt signed) else none

/-- The value of digits without sign and suffix. -/
def unsuffixed? (negative : Bool) (digits : List Char) : Option Int64 :=
  match digits with
  | '0' :: 'x' :: rest | '0' :: 'X' :: rest => pattern? 16 negative rest
  | '0' :: 'b' :: rest | '0' :: 'B' :: rest => pattern? 2 negative rest
  | _ => decimal? negative digits

/-- The value of a text that is exactly one literal, blanks around it apart. -/
def ofChars? (text : List Char) : Option Int64 :=
  let (negative, body) := splitSign (Text.trim text)
  if (body.head?.map Char.isDigit).getD false then
    unsuffixed? negative (Text.dropLastWhile isSuffixChar body)
  else none

end LibSurvey.Literal
