import LibSurvey.OsError
import LibSurvey.Path
import Std.Data.TreeMap

/-!
Files as a survey sees them. A `FileView` answers the three questions that a survey asks of a path;
a `FileTree` is a tree of files, directories and links that answers them.
-/

namespace LibSurvey

structure FileView where
  /-- The one name of the file or directory at a path, the same for every path to it. -/
  canonical? : Path → Option Path
  isFile : Path → Bool
  read : Path → Except OsError ByteArray

/-- The name under which a path is remembered: the canonical one if the path leads anywhere. -/
def FileView.identity (view : FileView) (path : Path) : Path :=
  (view.canonical? path).getD path

inductive Node where
  | file (content : ByteArray) (executable : Bool)
  | directory
  | link (target : Path)

/-- A tree by the places of its nodes, each place a list of names from the root, and the place that
relative paths start from. The root and that place are directories even if the tree does not list
them. -/
structure FileTree where
  here : List String
  nodes : Std.TreeMap String Node

namespace FileTree

/-- A place as an absolute path. -/
def placeText (place : List String) : String :=
  "/" ++ "/".intercalate place

def empty (here : List String) : FileTree :=
  ⟨here, ∅⟩

def node? (tree : FileTree) (place : List String) : Option Node :=
  match tree.nodes[placeText place]? with
  | some node => some node
  | none => if place.isPrefixOf tree.here then some .directory else none

def startOf (tree : FileTree) (path : Path) : List String :=
  if path.isAbsolute then [] else tree.here

/-- How many links may be followed on the way to one file. -/
def maxLinks : Nat := 40

/-- Goes from a directory along the pieces of a path, with so many links left to follow and a bound
on the number of pieces. -/
def follow (tree : FileTree) (links : Nat) :
    Nat → List String → List String → Except OsError (List String × Node)
  | 0, _, _ => .error .tooManyLinks
  | _, place, [] => .ok (place, (tree.node? place).getD .directory)
  | bound + 1, place, piece :: rest =>
    if piece.isEmpty || piece = "." then tree.follow links bound place rest
    else if piece = ".." then tree.follow links bound place.dropLast rest
    else if 255 < piece.utf8ByteSize then .error .nameTooLong
    else match tree.node? (place ++ [piece]) with
      | none => .error .notFound
      | some .directory => tree.follow links bound (place ++ [piece]) rest
      | some (.file content executable) =>
        if rest.isEmpty then .ok (place ++ [piece], .file content executable)
        else .error .notDirectory
      | some (.link target) =>
        match links with
        | 0 => .error .tooManyLinks
        | links + 1 =>
          tree.follow links bound (if target.isAbsolute then [] else place) (target.pieces ++ rest)

/-- The place that a path leads to and what is there. -/
def resolve (tree : FileTree) (path : Path) : Except OsError (List String × Node) :=
  if path.text.isEmpty then .error .notFound
  else tree.follow maxLinks (path.text.length + 65536) (tree.startOf path) path.pieces

def canonical? (tree : FileTree) (path : Path) : Option Path :=
  match tree.resolve path with
  | .ok (place, _) => some ⟨placeText place⟩
  | .error _ => none

def isFile (tree : FileTree) (path : Path) : Bool :=
  match tree.resolve path with
  | .ok (_, .file _ _) => true
  | _ => false

def isDirectory (tree : FileTree) (path : Path) : Bool :=
  match tree.resolve path with
  | .ok (_, .directory) => true
  | _ => false

def read (tree : FileTree) (path : Path) : Except OsError ByteArray :=
  match tree.resolve path with
  | .ok (_, .file content _) => .ok content
  | .ok _ => .error .isDirectory
  | .error error => .error error

def view (tree : FileTree) : FileView :=
  ⟨tree.canonical?, tree.isFile, tree.read⟩

/-- Makes every directory on the way to a place. -/
def addDirectories (tree : FileTree) (place : List String) : FileTree :=
  (List.range (place.length + 1)).foldl (fun tree count =>
    match tree.node? (place.take count) with
    | some _ => tree
    | none => { tree with nodes := tree.nodes.insert (placeText (place.take count)) .directory })
    tree

/-- The place that a path names, links in its directories followed as far as they lead. -/
def placeOf (tree : FileTree) (path : Path) : List String :=
  path.pieces.foldl (fun place piece =>
    if piece.isEmpty || piece = "." then place
    else if piece = ".." then place.dropLast
    else match tree.follow maxLinks 65536 place [piece] with
      | .ok (place, .directory) => place
      | _ => place ++ [piece]) (tree.startOf path)

/-- Puts a node at a path, with the directories on the way to it. -/
def insert (tree : FileTree) (path : Path) (node : Node) : FileTree :=
  let place := tree.placeOf path
  let tree := tree.addDirectories place.dropLast
  { tree with nodes := tree.nodes.insert (placeText place) node }

/-- Makes one directory in a directory that is there. -/
def makeDirectory (tree : FileTree) (path : Path) : Except OsError FileTree :=
  match tree.resolve path with
  | .ok _ => .error .exists
  | .error .notFound =>
    match tree.resolve (path.parent?.getD ⟨"."⟩) with
    | .ok (_, .directory) => .ok (tree.insert path .directory)
    | .ok _ => .error .notDirectory
    | .error error =>
      if (path.parent?.getD ⟨"."⟩).text.isEmpty then .ok (tree.insert path .directory)
      else .error error
  | .error error => .error error

/-- Makes a directory and all that lead to it, as far as they are not there. Every step up makes the
path shorter, so `left` may be its length. -/
def makeDirectories (tree : FileTree) (left : Nat) (path : Path) : Except OsError FileTree :=
  match left with
  | 0 => .error .notFound
  | left + 1 =>
    if path.text.isEmpty then .ok tree
    else match tree.makeDirectory path with
      | .ok tree => .ok tree
      | .error .notFound =>
        match path.parent? with
        | none => .error .notFound
        | some parent => (tree.makeDirectories left parent).bind (·.makeDirectory path)
      | .error error => if tree.isDirectory path then .ok tree else .error error

end FileTree
end LibSurvey
