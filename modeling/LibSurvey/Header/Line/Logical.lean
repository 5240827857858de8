import LibSurvey.Text.Blank

/-!
The logical lines of a header: comments are cut out, lines that end in a backslash are joined to the
next one, and blank lines are dropped.
-/

namespace LibSurvey.Line

/-- One line without its comments, reversed, and whether it ends inside a block comment. A block
comment leaves a space where it closes. -/
def uncomment (inBlock : Bool) (seen : List Char) : List Char → List Char × Bool
  | [] => (seen, inBlock)
  | '*' :: '/' :: rest =>
    if inBlock then uncomment false (' ' :: seen) rest
    else uncomment inBlock ('*' :: seen) ('/' :: rest)
  | '/' :: '*' :: rest =>
    if inBlock then uncomment inBlock seen ('*' :: rest) else uncomment true seen rest
  | '/' :: '/' :: rest =>
    if inBlock then uncomment inBlock seen ('/' :: rest) else (seen, inBlock)
  | c :: rest => uncomment inBlock (if inBlock then seen else c :: seen) rest

/-- The state between two lines: whether a block comment is open, the joined text before the next
line, and the logical lines so far, last first. -/
structure Joining where
  inBlock : Bool
  pending : List Char
  lines : List (List Char)

/-- Adds a logical line unless it is blank. -/
def Joining.finish (state : Joining) : Joining :=
  let line := Text.trim state.pending
  { state with
    pending := []
    lines := if line.isEmpty then state.lines else line :: state.lines }

def Joining.step (state : Joining) (raw : List Char) : Joining :=
  let (reversed, inBlock) := uncomment state.inBlock [] raw
  match reversed.dropWhile Text.isBlank with
  | '\\' :: before => { state with inBlock, pending := state.pending ++ before.reverse ++ [' '] }
  | trimmed => Joining.finish { state with inBlock, pending := state.pending ++ trimmed.reverse }

def logical (text : List Char) : List (List Char) :=
  ((Text.lines text).foldl Joining.step ⟨false, [], []⟩).finish.lines.reverse

end LibSurvey.Line
