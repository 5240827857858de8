import LibSurvey.Demangle.Legacy
import LibSurvey.Demangle.V0.Printer

/-!
The names behind mangled symbols. A symbol may carry a suffix that a compiler appended after
mangling; one is dropped, any other that looks like part of a symbol stays behind the name.
-/

namespace LibSurvey.Demangle

namespace V0

/-- The text after the letters that open a mangled name; a path starts with a capital. -/
def inner? (symbol : List Char) : Option (List Char) :=
  let inner := match symbol with
    | '_' :: 'R' :: rest => some rest
    | 'R' :: rest => some rest
    | '_' :: '_' :: 'R' :: rest => some rest
    | _ => none
  match inner with
  | some (c :: rest) =>
    if c.isUpper && rest.all (fun c => c.toNat < 0x80) then some (c :: rest) else none
  | _ => none

/-- Every four calls enter a production, and those nest only so deep. -/
def fuel : Nat := 4 * (maxDepth + 2)

def start (symbol : Array Char) (visible : Bool) : Display :=
  ⟨some ⟨symbol, 0, 0⟩, visible, 0, [], maxShown⟩

/-- The place after the path at a place, if a path stands there. -/
def skipPath? (cursor : Cursor) : Option Cursor :=
  match Printing.path fuel false { start cursor.symbol false with cursor := some cursor } with
  | .ok _ display => display.cursor
  | .error _ _ => none

/-- The name that a path shows, cut off with a note where it gets too long. -/
def shown (symbol : Array Char) : String :=
  match Printing.path fuel true (start symbol true) with
  | .ok _ display => String.join display.pieces.reverse
  | .error _ display => String.join display.pieces.reverse ++ "\x7bsize limit reached\x7d"

/-- The name that a symbol mangles, and what follows its path and the path of the crate that it was
made for. -/
def demangle? (symbol : List Char) : Option (String × List Char) :=
  (inner? symbol).bind fun inner =>
    let inner := inner.toArray
    (skipPath? ⟨inner, 0, 0⟩).bind fun cursor =>
      let cursor? := match cursor.peek with
        | some c => if c.isUpper then skipPath? cursor else some cursor
        | none => some cursor
      cursor?.map fun cursor =>
        (shown inner, (inner.extract cursor.next inner.size).toList)

end V0

/-- What stands before the first `.llvm.`, if only what such a suffix consists of stands after
it. -/
def withoutSuffix (symbol before : List Char) : List Char → List Char
  | '.' :: 'l' :: 'l' :: 'v' :: 'm' :: '.' :: rest =>
    if rest.all (fun c => c.isDigit || ('A' ≤ c && c ≤ 'F') || c = '@') then before.reverse
    else symbol
  | c :: rest => withoutSuffix symbol (c :: before) rest
  | [] => symbol

/-- A suffix that may stay: nothing, or a point and printable characters. -/
def isKept (suffix : List Char) : Bool :=
  match suffix with
  | [] => true
  | c :: rest => c = '.' && rest.all fun c => 0x20 < c.toNat && c.toNat < 0x7f

end Demangle

/-- The name that a symbol mangles, if it follows one of the two manglings of Rust names. -/
def demangle? (symbol : String) : Option String :=
  let cs := symbol.toList
  let cs := Demangle.withoutSuffix cs [] cs
  match (Demangle.Legacy.demangle? cs).or (Demangle.V0.demangle? cs) with
  | some (name, suffix) =>
    if Demangle.isKept suffix then some (name ++ String.ofList suffix) else none
  | none => none

end LibSurvey
