import LibSurvey.Text.Blank

/-!
Paths as they are written: components, joining, the parent and the stem of the file name. A path
keeps its text; two paths name the same place when their components agree.
-/

namespace LibSurvey

structure Path where
  text : String
deriving DecidableEq, Inhabited, Repr

namespace Path

inductive Component where
  | root
  | here
  | up
  | name (text : String)
deriving DecidableEq, Repr

def isAbsolute (path : Path) : Bool :=
  path.text.toList.head? = some '/'

/-- The pieces between slashes. -/
def pieces (path : Path) : List String :=
  (Text.splitAt (· = '/') path.text.toList).map String.ofList

def componentOf (piece : String) : Option Component :=
  if piece.isEmpty || piece = "." then none
  else if piece = ".." then some .up
  else some (.name piece)

/-- Repeated slashes and dots say nothing, except a dot at the very start. -/
def components (path : Path) : List Component :=
  let body := path.pieces.filterMap componentOf
  if path.isAbsolute then .root :: body
  else if path.pieces.head? = some "." then .here :: body
  else body

/-- Whether two paths are written with the same components. -/
def same (a b : Path) : Bool :=
  a.components = b.components

/-- The paths of a list that are not the same as an earlier one, in order. -/
def distinct (paths : List Path) : List Path :=
  paths.foldl (fun kept path => if kept.any (·.same path) then kept else kept ++ [path]) []

/-- An absolute path replaces what it is joined to. -/
def join (base path : Path) : Path :=
  if path.isAbsolute then path
  else if base.text.isEmpty || base.text.toList.getLast? = some '/' then
    ⟨base.text ++ path.text⟩
  else ⟨base.text ++ "/" ++ path.text⟩

/-- Drops slashes and dots that say nothing from a reversed list of pieces, down to the first one. -/
def dropIdle : List String → List String
  | piece :: before =>
    if before.isEmpty then [piece]
    else if piece.isEmpty || piece = "." then dropIdle before
    else piece :: before
  | [] => []

/-- The path without its last component, if it has one that can be left out. -/
def parent? (path : Path) : Option Path :=
  match dropIdle path.pieces.reverse with
  | [] => none
  | [only] => if only.isEmpty then none else some ⟨""⟩
  | _ :: before =>
    match dropIdle before with
    | [""] => some ⟨"/"⟩
    | kept => some ⟨"/".intercalate kept.reverse⟩

def fileName? (path : Path) : Option String :=
  match path.components.getLast? with
  | some (.name text) => some text
  | _ => none

/-- A name up to its last dot; a dot at the start is part of the name. -/
def stemOf (name : List Char) : List Char :=
  match name.reverse.dropWhile (· != '.') with
  | _ :: before => if before.isEmpty then name else before.reverse
  | [] => name

def fileStem? (path : Path) : Option String :=
  path.fileName?.map fun name => String.ofList (stemOf name.toList)

end Path
end LibSurvey
