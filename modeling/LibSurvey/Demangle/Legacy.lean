import LibSurvey.Text.Visible

/-!
The older mangling of Rust names: `_ZN`, then each part of a path with its length before it, then
`E`. A part may hold escapes for characters that no symbol may contain, and the last part may be a
hash, which is no part of the name.
-/

namespace LibSurvey.Demangle.Legacy

/-- The number that decimal digits are. -/
def number (digits : List Char) : Nat :=
  digits.foldl (fun value c => value * 10 + (c.toNat - '0'.toNat)) 0

/-- The parts up to the closing letter, and what follows it. Lengths beyond 64 bits never fit, since
the part would have to be as long. -/
def parts? (cs : List Char) : Option (List (List Char) × List Char) :=
  match cs with
  | [] => none
  | 'E' :: rest => some ([], rest)
  | c :: rest =>
    let body := rest.dropWhile Char.isDigit
    let length := number (c :: rest.takeWhile Char.isDigit)
    if c.isDigit && length < body.length then
      (parts? (body.drop length)).map fun found => (body.take length :: found.1, found.2)
    else none
termination_by cs.length
decreasing_by
  have : (rest.dropWhile Char.isDigit).length ≤ rest.length :=
    (List.dropWhile_sublist _).length_le
  simp only [List.length_drop, List.length_cons]
  omega

/-- The text after the letters that open a mangled name. -/
def inner? (symbol : List Char) : Option (List Char) :=
  match symbol with
  | '_' :: 'Z' :: 'N' :: rest => some rest
  | 'Z' :: 'N' :: rest => some rest
  | '_' :: '_' :: 'Z' :: 'N' :: rest => some rest
  | _ => none

/-- Whether a part is a hash: the letter `h` and hexadecimal digits. -/
def isHash (part : List Char) : Bool :=
  match part with
  | 'h' :: digits => digits.all fun c =>
      c.isDigit || ('a' ≤ c && c ≤ 'f') || ('A' ≤ c && c ≤ 'F')
  | _ => false

/-- The value of lower-case hexadecimal digits. -/
def hexNumber? (digits : List Char) : Option Nat :=
  if digits.isEmpty || !digits.all (fun c => c.isDigit || ('a' ≤ c && c ≤ 'f')) then none
  else some (digits.foldl (fun value c =>
    value * 16 + (if c.isDigit then c.toNat - '0'.toNat else c.toNat - 'a'.toNat + 10)) 0)

/-- The character that an escape between dollar signs stands for. -/
def escaped? (escape : List Char) : Option Char :=
  match escape with
  | ['S', 'P'] => some '@'
  | ['B', 'P'] => some '*'
  | ['R', 'F'] => some '&'
  | ['L', 'T'] => some '<'
  | ['G', 'T'] => some '>'
  | ['L', 'P'] => some '('
  | ['R', 'P'] => some ')'
  | ['C'] => some ','
  | 'u' :: digits =>
    (hexNumber? digits).bind fun value =>
      if value.isValidChar && !Text.isControl (Char.ofNat value) then some (Char.ofNat value)
      else none
  | _ => none

/-- A part with its escapes and doubled points resolved. An escape that is not known ends that: what
is left stands as it is. -/
def resolve (cs : List Char) : List Char :=
  match cs with
  | [] => []
  | '.' :: '.' :: rest => ':' :: ':' :: resolve rest
  | '.' :: rest => '.' :: resolve rest
  | '$' :: rest =>
    match _h : rest.dropWhile (· != '$') with
    | [] => cs
    | _ :: after =>
      match escaped? (rest.takeWhile (· != '$')) with
      | some c => c :: resolve after
      | none => cs
  | c :: rest => c :: resolve rest
termination_by cs.length
decreasing_by
  · simp only [List.length_cons]; omega
  · simp_wf
  · have : (rest.dropWhile (· != '$')).length ≤ rest.length :=
      (List.dropWhile_sublist _).length_le
    simp only [_h, List.length_cons] at this
    simp only [List.length_cons]
    omega
  · simp_wf

def showPart (part : List Char) : List Char :=
  match part with
  | '_' :: '$' :: rest => resolve ('$' :: rest)
  | part => resolve part

/-- The parts that make up the name. -/
def shown (parts : List (List Char)) : List (List Char) :=
  match parts.getLast? with
  | some last => if isHash last then parts.dropLast else parts
  | none => parts

/-- The name that a symbol mangles, and what follows its closing letter. -/
def demangle? (symbol : List Char) : Option (String × List Char) :=
  match inner? symbol with
  | none => none
  | some inner =>
    if inner.any (fun c => 0x80 ≤ c.toNat) then none
    else (parts? inner).map fun found =>
      (String.ofList (List.intercalate [':', ':'] ((shown found.1).map showPart)), found.2)

end LibSurvey.Demangle.Legacy
