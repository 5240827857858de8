import LibSurvey.Demangle
import LibSurvey.Object.Basic
import LibSurvey.Text.Distinct

/-!
The functions that an object exports, by the names that its tables of symbols give, each once.
-/

namespace LibSurvey

inductive Language where
  | rust
  | cpp
  | c
deriving DecidableEq, Repr

namespace Language

/-- The name for readers. -/
def name : Language → String
  | .rust => "rust"
  | .cpp => "c++"
  | .c => "c"

/-- The name in documents. -/
def key : Language → String
  | .rust => "rust"
  | .cpp => "cpp"
  | .c => "c"

end Language

structure Export where
  raw : String
  demangled : Option String
  language : Language
deriving DecidableEq, Repr

namespace Export

def ofName (raw : String) : Export :=
  let demangled := demangle? raw
  let language :=
    if demangled.isSome || raw.startsWith "_R" then .rust
    else if raw.startsWith "_Z" then .cpp
    else .c
  ⟨raw, demangled, language⟩

/-- The name to show. -/
def display (symbol : Export) : String :=
  symbol.demangled.getD symbol.raw

end Export

namespace Object

/-- The name without the underscore that the format puts before every name. -/
def sourceName (underscored : Bool) (name : String) : String :=
  if underscored then
    match name.toList with
    | '_' :: rest => String.ofList rest
    | _ => name
  else name

namespace Symbol

/-- The name that a symbol exports a function under, if it does. -/
def exportedName? (underscored : Bool) (symbol : Symbol) : Option String :=
  if symbol.isFunction && symbol.isDefined && !symbol.isLocal then
    match symbol.name.map (sourceName underscored) with
    | some name => if name.isEmpty then none else some name
    | none => none
  else none

end Symbol

namespace File

/-- The table that names the exports: that of the dynamic linker, if there is one. -/
def exportTable (file : File) : List Symbol :=
  file.dynamic.getD file.symbols

def exportNames (file : File) : List String :=
  Text.distinct (file.exportTable.filterMap (Symbol.exportedName? file.underscored))

def exports (file : File) : List Export :=
  file.exportNames.map Export.ofName

end File
end Object
end LibSurvey
