/-!
Reading a symbol in the newer mangling: single letters, numbers to the base 62, identifiers and
hexadecimal values, at a place that moves on.
-/

namespace LibSurvey.Demangle.V0

inductive Fault where
  | invalid
  | tooDeep
deriving DecidableEq, Repr

def Fault.message : Fault → String
  | .invalid => "\x7binvalid syntax\x7d"
  | .tooDeep => "\x7brecursion limit reached\x7d"

def maxDepth : Nat := 500

def word : Nat := UInt64.size

/-- A place in a symbol and the number of productions that are open there. -/
structure Cursor where
  symbol : Array Char
  next : Nat
  depth : Nat

/-- An identifier: its ASCII characters and, if it has others, the insertions that make them. -/
structure Ident where
  ascii : List Char
  insertions : List Char
deriving DecidableEq, Repr

def Ident.isEmpty (ident : Ident) : Bool :=
  ident.ascii.isEmpty && ident.insertions.isEmpty

/-- What reading at a place gives: a value and the place after it. -/
abbrev Reading (α : Type) : Type := Cursor → Except Fault (α × Cursor)

namespace Cursor

def peek (cursor : Cursor) : Option Char :=
  cursor.symbol[cursor.next]?

def forward (cursor : Cursor) (count : Nat) : Cursor :=
  { cursor with next := cursor.next + count }

def push : Reading Unit := fun cursor =>
  if cursor.depth < maxDepth then .ok ((), { cursor with depth := cursor.depth + 1 })
  else .error .tooDeep

def letter : Reading Char := fun cursor =>
  match cursor.peek with
  | some c => .ok (c, cursor.forward 1)
  | none => .error .invalid

/-- Whether the given letter stands here; if so it is passed. -/
def eat (c : Char) (cursor : Cursor) : Bool × Cursor :=
  if cursor.peek = some c then (true, cursor.forward 1) else (false, cursor)

/-- The characters from here on that satisfy a test. -/
def span (p : Char → Bool) (cursor : Cursor) : List Char :=
  ((cursor.symbol.extract cursor.next cursor.symbol.size).toList).takeWhile p

def digit62? (c : Char) : Option Nat :=
  if c.isDigit then some (c.toNat - '0'.toNat)
  else if 'a' ≤ c && c ≤ 'z' then some (c.toNat - 'a'.toNat + 10)
  else if 'A' ≤ c && c ≤ 'Z' then some (c.toNat - 'A'.toNat + 36)
  else none

/-- A number to the base 62 that an underscore ends: none of its digits is zero, one digit zero is
one, and so on. -/
def integer62 : Reading Nat := fun cursor =>
  let digits := cursor.span fun c => (digit62? c).isSome
  let after := cursor.forward digits.length
  if after.peek ≠ some '_' then .error .invalid
  else
    let value := digits.foldl (fun value c => value * 62 + (digit62? c).getD 0) 0
    let value := if digits.isEmpty then 0 else value + 1
    if value < word then .ok (value, after.forward 1) else .error .invalid

/-- A number behind a tag, one more than what stands there, or zero without the tag. -/
def optional62 (tag : Char) : Reading Nat := fun cursor =>
  match cursor.eat tag with
  | (false, _) => .ok (0, cursor)
  | (true, after) =>
    match integer62 after with
    | .error fault => .error fault
    | .ok (value, after) => if value + 1 < word then .ok (value + 1, after) else .error .invalid

def disambiguator : Reading Nat :=
  optional62 's'

/-- A namespace: a capital stands for itself, a small letter for none worth showing. -/
def namespaceTag : Reading (Option Char) := fun cursor =>
  match cursor.peek with
  | some c =>
    if c.isUpper then .ok (some c, cursor.forward 1)
    else if c.isLower then .ok (none, cursor.forward 1)
    else .error .invalid
  | none => .error .invalid

/-- The place that a reference, whose tag was just read, goes back to. -/
def reference : Reading Cursor := fun cursor =>
  match integer62 cursor with
  | .error fault => .error fault
  | .ok (place, after) =>
    if cursor.next - 1 ≤ place then .error .invalid
    else if after.depth < maxDepth then
      .ok ({ after with next := place, depth := after.depth + 1 }, after)
    else .error .tooDeep

/-- Parts an identifier with insertions at its last underscore. -/
def splitInsertions (cs : List Char) : Ident :=
  let tail := (cs.reverse.takeWhile (· != '_')).reverse
  ⟨(cs.take (cs.length - tail.length)).dropLast, tail⟩

def ident : Reading Ident := fun cursor =>
  let (coded, cursor) := cursor.eat 'u'
  let digits := match cursor.span Char.isDigit with
    | '0' :: _ => ['0']
    | digits => digits
  if digits.isEmpty then .error .invalid
  else
    let length := digits.foldl (fun value c => value * 10 + (c.toNat - '0'.toNat)) 0
    let (_, start) := (cursor.forward digits.length).eat '_'
    let after := start.forward length
    if start.symbol.size < after.next then .error .invalid
    else
      let text := (start.symbol.extract start.next after.next).toList
      let found := if coded then splitInsertions text else ⟨text, []⟩
      if coded && found.insertions.isEmpty then .error .invalid else .ok (found, after)

def isNibble (c : Char) : Bool :=
  c.isDigit || ('a' ≤ c && c ≤ 'f')

/-- Hexadecimal digits that an underscore ends. -/
def nibbles : Reading (List Char) := fun cursor =>
  let digits := cursor.span isNibble
  let after := cursor.forward digits.length
  if after.peek = some '_' then .ok (digits, after.forward 1) else .error .invalid

end Cursor

def nibble (c : Char) : Nat :=
  if c.isDigit then c.toNat - '0'.toNat else c.toNat - 'a'.toNat + 10

/-- The number that hexadecimal digits are, if 64 bits hold it. -/
def uint? (digits : List Char) : Option Nat :=
  let significant := digits.dropWhile (· == '0')
  if 16 < significant.length then none
  else some (significant.foldl (fun value c => value * 16 + nibble c) 0)

/-- The bytes that pairs of hexadecimal digits are. -/
def bytes? : List Char → Option (List UInt8)
  | [] => some []
  | [_] => none
  | high :: low :: rest =>
    (bytes? rest).map ((nibble high * 16 + nibble low).toUInt8 :: ·)

end LibSurvey.Demangle.V0
