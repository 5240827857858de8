import LibSurvey.Path
import LibSurvey.Text.Casing
import LibSurvey.Text.Distinct

/-!
The names that a library goes by: as a package, and as the header that includes all others.
-/

namespace LibSurvey.LibraryName

/-- Libraries whose header has a name of its own. -/
def headerAliases : List (String × String) :=
  [("sdl3", "SDL3/SDL.h"), ("SDL3", "SDL3/SDL.h"), ("sdl2", "SDL2/SDL.h"),
    ("SDL2", "SDL2/SDL.h"), ("GL", "GL/gl.h"), ("GLU", "GL/glu.h"), ("m", "math.h"),
    ("c", "stdlib.h"), ("pthread", "pthread.h")]

/-- Further package names of some libraries, in whatever case the library is written. -/
def packageAliases : List (String × List String) :=
  [("sdl3", ["sdl3-dev"]), ("sdl2", ["sdl2-dev"]), ("raylib", ["raylib5"])]

def upper (name : String) : String :=
  String.ofList (Text.upper name.toList)

def lower (name : String) : String :=
  String.ofList (Text.lower name.toList)

/-- The package names to try, in order. -/
def packages (library : String) : List String :=
  let aliases := packageAliases.filter fun (name, _) => Text.sameIgnoringCase name library
  Text.distinct ([library, upper library, lower library] ++ aliases.flatMap Prod.snd)

/-- The name of a library and, if it starts with `lib`, the rest of it. -/
def bases (library : String) : List String :=
  match library.toList with
  | 'l' :: 'i' :: 'b' :: c :: rest => [library, String.ofList (c :: rest)]
  | _ => [library]

/-- The headers that one spelling of a name may have. -/
def headersFor (name : String) : List String :=
  [s!"{name}.h", s!"{name}/{name}.h", s!"lib{name}.h", s!"{name}/lib{name}.h"]

/-- The headers to try by the usual patterns, in order. -/
def headers (library : String) : List Path :=
  let names := (bases library).flatMap fun base => Text.distinct [base, lower base, upper base]
  (Text.distinct (names.flatMap headersFor)).map Path.mk

/-- All headers to try, those with names of their own first. -/
def candidates (library : String) : List Path :=
  (headerAliases.filter (·.1 = library)).map (fun (_, header) => ⟨header⟩) ++ headers library

end LibSurvey.LibraryName
