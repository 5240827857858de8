import LibSurvey.FileTree
import LibSurvey.LibraryName
import LibSurvey.Failure

/-!
The directories in which headers are searched, and the search for the header of a library.
-/

namespace LibSurvey

/-- Directories by where they come from: the caller, a package tool, or convention. -/
structure SearchPaths where
  extra : List Path
  tool : List Path
  system : List Path
deriving DecidableEq, Repr

namespace SearchPaths

/-- Every directory once, in search order. -/
def all (paths : SearchPaths) : List Path :=
  Path.distinct (paths.extra ++ paths.tool ++ paths.system)

/-- The directory that a token names after its `-I`, which may be empty. -/
def flagged? (token : List Char) : Option (List Char) :=
  match token with
  | '-' :: 'I' :: dir => some dir
  | _ => none

/-- The directories that tokens name, a flag and its directory in one token or in two. -/
def flaggedDirs : List (List Char) → List Path
  | [] => []
  | [token] =>
    match flagged? token with
    | some (c :: dir) => [⟨String.ofList (c :: dir)⟩]
    | _ => []
  | token :: next :: rest =>
    match flagged? token with
    | none => flaggedDirs (next :: rest)
    | some [] => ⟨String.ofList next⟩ :: flaggedDirs rest
    | some dir => ⟨String.ofList dir⟩ :: flaggedDirs (next :: rest)

/-- The include directories in a list of compiler flags, each once. -/
def ofFlags (text : String) : List Path :=
  Path.distinct (flaggedDirs (Text.words text.toList))

/-- The first candidate that exists, in the first directory that has it. -/
def mainHeader? (files : FileView) (library : String) (dirs : List Path) :
    Except Failure Path :=
  match (LibraryName.candidates library).findSome? fun candidate =>
      (dirs.map (·.join candidate)).find? files.isFile with
  | some found => .ok found
  | none => .error (.headerNotFound library)

end SearchPaths
end LibSurvey
