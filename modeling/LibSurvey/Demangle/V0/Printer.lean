import LibSurvey.Demangle.Punycode
import LibSurvey.Demangle.V0.Cursor
import LibSurvey.Text.Utf8
import LibSurvey.Text.Visible

/-!
The name that a symbol in the newer mangling stands for. Reading and showing go together, because a
reference shows a part of the symbol again; when a part cannot be read, its fault is shown in its
place and all that would follow it as a question mark.
-/

namespace LibSurvey.Demangle.V0

/-- No name is shown beyond this many bytes. -/
def maxShown : Nat := 1000000

structure Display where
  /-- Where to read on, unless a fault was met. -/
  cursor : Option Cursor
  /-- Whether what is read is shown. -/
  visible : Bool
  /-- How many lifetimes are bound around the place. -/
  bound : Nat
  /-- The pieces shown so far, last first. -/
  pieces : List String
  /-- How many bytes may still be shown. -/
  room : Nat

/-- Why showing ends early: one production meets a fault, or there is no room left. -/
inductive Stop where
  | production
  | full
deriving DecidableEq, Repr

abbrev Printing (α : Type) : Type := EStateM Stop Display α

namespace Printing

def write (piece : String) : Printing Unit := do
  let display ← get
  if display.visible then
    if piece.utf8ByteSize ≤ display.room then
      set { display with
        pieces := piece :: display.pieces, room := display.room - piece.utf8ByteSize }
    else throw .full

/-- Shows a fault, after which nothing is read; the current production ends. -/
def fail {α : Type} (fault : Fault) : Printing α := do
  write fault.message
  modify fun display => { display with cursor := none }
  throw .production

def read {α : Type} (reading : Reading α) : Printing α := do
  match (← get).cursor with
  | none =>
    write "?"
    throw .production
  | some cursor =>
    match reading cursor with
    | .ok (value, after) =>
      modify fun display => { display with cursor := some after }
      pure value
    | .error fault => fail fault

def eat (c : Char) : Printing Bool := do
  match (← get).cursor with
  | none => pure false
  | some cursor =>
    let (found, after) := cursor.eat c
    modify fun display => { display with cursor := some after }
    pure found

/-- Runs a production to its end or its first fault. -/
def production (body : Printing Unit) : Printing Unit := fun display =>
  match body display with
  | .error .production display => .ok () display
  | result => result

def pop : Printing Unit :=
  modify fun display => { display with
    cursor := display.cursor.map fun cursor => { cursor with depth := cursor.depth - 1 } }

/-- Reads without showing. -/
def hidden (body : Printing Unit) : Printing Unit := do
  let visible := (← get).visible
  modify fun display => { display with visible := false }
  body
  modify fun display => { display with visible }

/-- Shows what a reference goes back to, then reads on behind it. What is not shown is not looked
up. -/
def reference (body : Printing Unit) : Printing Unit := production do
  let place ← read Cursor.reference
  if (← get).visible then
    let cursor := (← get).cursor
    modify fun display => { display with cursor := some place }
    body
    modify fun display => { display with cursor }

/-- Elements up to the closing letter or a fault; gives their number. An element takes a letter at
least, so `count` may be the size of the symbol. -/
def elements (count : Nat) (separator : String) (element : Printing Unit) (shown : Nat) :
    Printing Nat := do
  match count with
  | 0 => pure shown
  | count + 1 =>
    if (← get).cursor.isNone then pure shown
    else if ← eat 'E' then pure shown
    else
      if 0 < shown then write separator
      element
      elements count separator element (shown + 1)

/-- The number of characters in the symbol, which no list at the place exceeds. -/
def symbolSize : Printing Nat := do
  pure ((← get).cursor.elim 0 fun cursor => cursor.symbol.size)

def list (separator : String) (element : Printing Unit) : Printing Nat := do
  elements ((← symbolSize) + 1) separator element 0

/-- The further values of a choice, of which there are at most so many, up to the closing letter. A
fault in one is followed by another. -/
def choices (count : Nat) (value : Printing Unit) : Printing Unit := do
  match count with
  | 0 => pure ()
  | count + 1 =>
    if (← get).cursor.isNone then fail .invalid
    else if !(← eat 'E') then
      write " | "
      value
      choices count value

def showIdent (ident : Ident) : Printing Unit :=
  match Punycode.decode? ident.ascii ident.insertions with
  | some text => text.forM fun c => write c.toString
  | none =>
    if ident.insertions.isEmpty then write (String.ofList ident.ascii)
    else do
      write "punycode\x7b"
      if !ident.ascii.isEmpty then
        write (String.ofList ident.ascii)
        write "-"
      write (String.ofList ident.insertions)
      write "\x7d"

/-- The character as it stands in a literal with the given quote. -/
def escaped (quote c : Char) : String :=
  if (c = '\'' || c = '"') && c ≠ quote then c.toString
  else if c.toNat = 0 then "\\0"
  else if c = '\t' then "\\t"
  else if c = '\r' then "\\r"
  else if c = '\n' then "\\n"
  else if c = '\'' || c = '"' || c = '\\' then "\\" ++ c.toString
  else if Text.isVisible c then c.toString
  else "\\u\x7b" ++ String.ofList (Nat.toDigits 16 c.toNat) ++ "\x7d"

def showQuoted (quote : Char) (text : List Char) : Printing Unit := do
  write quote.toString
  text.forM fun c => write (escaped quote c)
  write quote.toString

/-- Shows a lifetime by how many binders out its own is; zero is one without a name. -/
def showLifetime (index : Nat) : Printing Unit := production do
  if (← get).visible then
    write "'"
    let bound := (← get).bound
    if index = 0 then write "_"
    else if bound < index then fail .invalid
    else if bound - index < 26 then write (Char.ofNat ('a'.toNat + (bound - index))).toString
    else
      write "_"
      write (toString (bound - index))

/-- What is bound in a trait: at most so many names, each with what it stands for. Gives whether a
bracket is open. -/
def bindings (count : Nat) (isOpen : Bool) (value : Printing Unit) : Printing Bool := do
  match count with
  | 0 => pure isOpen
  | count + 1 =>
    if ← eat 'p' then
      write (if isOpen then ", " else "<")
      showIdent (← read Cursor.ident)
      write " = "
      value
      bindings count true value
    else pure isOpen

/-- Shows that so many lifetimes are bound, and binds them. -/
def lifetimes (count : Nat) (first : Bool) : Printing Unit := do
  match count with
  | 0 => pure ()
  | count + 1 =>
    if !first then write ", "
    modify fun display => { display with bound := display.bound + 1 }
    showLifetime 1
    lifetimes count false

/-- Runs a body inside the binder that stands here, if one does. -/
def inBinder (body : Printing Unit) : Printing Unit := production do
  let count ← read (Cursor.optional62 'G')
  if !(← get).visible then body
  else
    if 0 < count then
      write "for<"
      lifetimes count true
      write "> "
    body
    modify fun display => { display with bound := display.bound - count }

def basicType? (tag : Char) : Option String :=
  match tag with
  | 'b' => some "bool"
  | 'c' => some "char"
  | 'e' => some "str"
  | 'u' => some "()"
  | 'a' => some "i8"
  | 's' => some "i16"
  | 'l' => some "i32"
  | 'x' => some "i64"
  | 'n' => some "i128"
  | 'i' => some "isize"
  | 'h' => some "u8"
  | 't' => some "u16"
  | 'm' => some "u32"
  | 'y' => some "u64"
  | 'o' => some "u128"
  | 'j' => some "usize"
  | 'f' => some "f32"
  | 'd' => some "f64"
  | 'z' => some "!"
  | 'p' => some "_"
  | 'v' => some "..."
  | _ => none

def showUint : Printing Unit := production do
  let digits ← read Cursor.nibbles
  match uint? digits with
  | some value => write (toString value)
  | none =>
    write "0x"
    write (String.ofList digits)

def showText : Printing Unit := production do
  let digits ← read Cursor.nibbles
  match (bytes? digits).bind fun bytes => (Text.Utf8.decode? bytes).toOption with
  | some text => showQuoted '"' text
  | none => fail .invalid

/-- A name of a calling convention, whose underscores stand for hyphens. -/
def showConvention (name : List Char) : Printing Unit := do
  write "extern \""
  write (String.ofList (name.map fun c => if c = '_' then '-' else c))
  write "\" "

/-- The path that the symbol holds in a namespace: nothing for an empty name in an unnamed one. -/
def showInNamespace (tag : Option Char) (disambiguator : Nat) (ident : Ident) : Printing Unit := do
  match tag with
  | some tag =>
    write "::\x7b"
    write (match tag with
      | 'C' => "closure"
      | 'S' => "shim"
      | tag => tag.toString)
    if !ident.isEmpty then
      write ":"
      showIdent ident
    write "#"
    write (toString disambiguator)
    write "\x7d"
  | none =>
    if !ident.isEmpty then
      write "::"
      showIdent ident

/-- The lifetime of a reference, if it is shown. -/
def borrowed : Printing Unit := do
  if ← eat 'L' then
    let index ← read Cursor.integer62
    if index ≠ 0 then
      showLifetime index
      write " "

/-- Braces around what is no plain value, where an expression needs them. -/
def braced (inValue : Bool) (body : Printing Unit) : Printing Unit := do
  if !inValue then write "\x7b"
  body
  if !inValue then write "\x7d"

mutual

/-- A path. In an expression its arguments stand behind a double colon. -/
def path (fuel : Nat) (inValue : Bool) : Printing Unit :=
  match fuel with
  | 0 => fail .tooDeep
  | fuel + 1 => production do
    read Cursor.push
    match ← read Cursor.letter with
    | 'C' =>
      let _ ← read Cursor.disambiguator
      showIdent (← read Cursor.ident)
    | 'N' =>
      let tag ← read Cursor.namespaceTag
      path fuel inValue
      if (← get).cursor.isNone then write "::"
      let disambiguator ← read Cursor.disambiguator
      showInNamespace tag disambiguator (← read Cursor.ident)
    | 'M' =>
      let _ ← read Cursor.disambiguator
      hidden (path fuel false)
      write "<"
      type fuel
      write ">"
    | 'X' =>
      let _ ← read Cursor.disambiguator
      hidden (path fuel false)
      write "<"
      type fuel
      write " as "
      path fuel false
      write ">"
    | 'Y' =>
      write "<"
      type fuel
      write " as "
      path fuel false
      write ">"
    | 'I' =>
      path fuel inValue
      if inValue then write "::"
      write "<"
      let _ ← list ", " (argument fuel)
      write ">"
    | 'B' => reference (path fuel inValue)
    | _ => fail .invalid
    pop

/-- An argument of a path: a lifetime, a constant or a type. -/
def argument (fuel : Nat) : Printing Unit :=
  match fuel with
  | 0 => fail .tooDeep
  | fuel + 1 => production do
    if ← eat 'L' then showLifetime (← read Cursor.integer62)
    else if ← eat 'K' then constant fuel false
    else type fuel

def type (fuel : Nat) : Printing Unit :=
  match fuel with
  | 0 => fail .tooDeep
  | fuel + 1 => production do
    let tag ← read Cursor.letter
    match basicType? tag with
    | some name => write name
    | none =>
      read Cursor.push
      match tag with
      | 'R' =>
        write "&"
        borrowed
        type fuel
      | 'Q' =>
        write "&"
        borrowed
        write "mut "
        type fuel
      | 'P' =>
        write "*const "
        type fuel
      | 'O' =>
        write "*mut "
        type fuel
      | 'A' =>
        write "["
        type fuel
        write "; "
        constant fuel true
        write "]"
      | 'S' =>
        write "["
        type fuel
        write "]"
      | 'T' =>
        write "("
        let count ← list ", " (type fuel)
        if count = 1 then write ","
        write ")"
      | 'F' => inBinder (function fuel)
      | 'D' =>
        write "dyn "
        inBinder do
          let _ ← list " + " (bounds fuel)
        if !(← eat 'L') then fail .invalid
        let index ← read Cursor.integer62
        if index ≠ 0 then
          write " + "
          showLifetime index
      | 'B' => reference (type fuel)
      | 'W' =>
        type fuel
        write " is "
        pattern fuel
      | 'w' =>
        write "#[splat] "
        type fuel
      | _ =>
        modify fun display => { display with
          cursor := display.cursor.map fun cursor => { cursor with next := cursor.next - 1 } }
        path fuel false
      pop

/-- A type of functions, behind its binder. -/
def function (fuel : Nat) : Printing Unit :=
  match fuel with
  | 0 => fail .tooDeep
  | fuel + 1 => production do
    let isUnsafe ← eat 'U'
    let convention ← (do
      if ← eat 'K' then
        if ← eat 'C' then pure (some ['C'])
        else
          let ident ← read Cursor.ident
          if ident.ascii.isEmpty || !ident.insertions.isEmpty then fail .invalid
          pure (some ident.ascii)
      else pure none : Printing (Option (List Char)))
    if isUnsafe then write "unsafe "
    match convention with
    | some name => showConvention name
    | none => pure ()
    write "fn("
    let _ ← list ", " (type fuel)
    write ")"
    if !(← eat 'u') then
      write " -> "
      type fuel

/-- A range or a choice of values. -/
def pattern (fuel : Nat) : Printing Unit :=
  match fuel with
  | 0 => fail .tooDeep
  | fuel + 1 => production do
    match ← read Cursor.letter with
    | 'R' =>
      constant fuel false
      write "..="
      constant fuel false
    | 'O' =>
      read Cursor.push
      let size ← symbolSize
      pattern fuel
      choices (size + 1) (pattern fuel)
      pop
    | 'N' => write "!null"
    | _ => fail .invalid

/-- A trait, whose arguments stay open for what is bound in it. Gives whether a bracket is open. -/
def openPath (fuel : Nat) : Printing Bool :=
  match fuel with
  | 0 => fail .tooDeep
  | fuel + 1 => do
    if ← eat 'B' then openReference fuel
    else if ← eat 'I' then
      path fuel false
      write "<"
      let _ ← list ", " (argument fuel)
      pure true
    else
      path fuel false
      pure false

/-- The same at the place that a reference goes back to. -/
def openReference (fuel : Nat) : Printing Bool :=
  match fuel with
  | 0 => fail .tooDeep
  | fuel + 1 => fun display =>
    match read Cursor.reference display with
    | .error .production display => .ok false display
    | .error .full display => .error .full display
    | .ok place display =>
      if display.visible then
        match openPath fuel { display with cursor := some place } with
        | .ok isOpen shown => .ok isOpen { shown with cursor := display.cursor }
        | .error stop shown => .error stop shown
      else .ok false display

/-- A trait and what is bound in it. -/
def bounds (fuel : Nat) : Printing Unit :=
  match fuel with
  | 0 => fail .tooDeep
  | fuel + 1 => production do
    let isOpen ← openPath fuel
    let isOpen ← bindings (← symbolSize) isOpen (do
      if ← eat 'K' then constant fuel false else type fuel)
    if isOpen then write ">"

/-- A constant. Outside an expression, all but a plain value stands in braces. -/
def constant (fuel : Nat) (inValue : Bool) : Printing Unit :=
  match fuel with
  | 0 => fail .tooDeep
  | fuel + 1 => production do
    let tag ← read Cursor.letter
    read Cursor.push
    match tag with
    | 'p' => write "_"
    | 'b' =>
      match uint? (← read Cursor.nibbles) with
      | some 0 => write "false"
      | some 1 => write "true"
      | _ => fail .invalid
    | 'c' =>
      match uint? (← read Cursor.nibbles) with
      | some code =>
        if code.isValidChar then showQuoted '\'' [Char.ofNat code] else fail .invalid
      | none => fail .invalid
    | 'B' => reference (constant fuel inValue)
    | 'e' => braced inValue do
      write "*"
      showText
    | 'R' =>
      if ← eat 'e' then showText
      else braced inValue do
        write "&"
        constant fuel true
    | 'Q' => braced inValue do
      write "&mut "
      constant fuel true
    | 'A' => braced inValue do
      write "["
      let _ ← list ", " (constant fuel true)
      write "]"
    | 'T' => braced inValue do
      write "("
      let count ← list ", " (constant fuel true)
      if count = 1 then write ","
      write ")"
    | 'V' => braced inValue do
      path fuel true
      match ← read Cursor.letter with
      | 'U' => pure ()
      | 'T' =>
        write "("
        let _ ← list ", " (constant fuel true)
        write ")"
      | 'S' =>
        write " \x7b "
        let _ ← list ", " (field fuel)
        write " \x7d"
      | _ => fail .invalid
    | tag =>
      if ['h', 't', 'm', 'y', 'o', 'j'].contains tag then showUint
      else if ['a', 's', 'l', 'x', 'n', 'i'].contains tag then
        if ← eat 'n' then write "-"
        showUint
      else fail .invalid
    pop

/-- A field of a constant and its value. -/
def field (fuel : Nat) : Printing Unit :=
  match fuel with
  | 0 => fail .tooDeep
  | fuel + 1 => production do
    let _ ← read Cursor.disambiguator
    showIdent (← read Cursor.ident)
    write ": "
    constant fuel true

end

end Printing
end LibSurvey.Demangle.V0
