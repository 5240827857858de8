/-!
Documents of nested lists and named fields, and their JSON text: indented by two spaces, fields in
the order given, and nothing escaped that need not be.
-/

namespace LibSurvey

inductive Document where
  | null
  | boolean (value : Bool)
  | integer (value : Int)
  | text (value : String)
  | list (items : List Document)
  | fields (items : List (String × Document))

namespace Document

def ofOption {α : Type} (encode : α → Document) : Option α → Document
  | some value => encode value
  | none => .null

def texts (values : List String) : Document :=
  .list (values.map .text)

/-- Four hexadecimal digits. -/
def hex4 (value : Nat) : List Char :=
  let digits := Nat.toDigits 16 value
  List.replicate (4 - digits.length) '0' ++ digits

/-- A character as it stands between quotes. -/
def escape (c : Char) : List Char :=
  if c = '"' then ['\\', '"']
  else if c = '\\' then ['\\', '\\']
  else if c = '\n' then ['\\', 'n']
  else if c = '\r' then ['\\', 'r']
  else if c = '\t' then ['\\', 't']
  else if c.toNat = 8 then ['\\', 'b']
  else if c.toNat = 12 then ['\\', 'f']
  else if c.toNat < 0x20 then '\\' :: 'u' :: hex4 c.toNat
  else [c]

def quoted (text : String) : String :=
  String.ofList ('"' :: text.toList.flatMap escape ++ ['"'])

def indent (level : Nat) : String :=
  String.ofList ('\n' :: List.replicate (2 * level) ' ')

mutual

def renderAt (level : Nat) : Document → String
  | .null => "null"
  | .boolean value => if value then "true" else "false"
  | .integer value => toString value
  | .text value => quoted value
  | .list [] => "[]"
  | .list (item :: rest) =>
    "[" ++ indent (level + 1) ++ renderAt (level + 1) item ++ renderItems (level + 1) rest ++
      indent level ++ "]"
  | .fields [] => "\x7b\x7d"
  | .fields ((name, value) :: rest) =>
    "\x7b" ++ indent (level + 1) ++ quoted name ++ ": " ++ renderAt (level + 1) value ++
      renderFields (level + 1) rest ++ indent level ++ "\x7d"

def renderItems (level : Nat) : List Document → String
  | [] => ""
  | item :: rest => "," ++ indent level ++ renderAt level item ++ renderItems level rest

def renderFields (level : Nat) : List (String × Document) → String
  | [] => ""
  | (name, value) :: rest =>
    "," ++ indent level ++ quoted name ++ ": " ++ renderAt level value ++ renderFields level rest

end

def render (document : Document) : String :=
  renderAt 0 document

end Document
end LibSurvey
