/-!
Scripts of a shell, as far as tools for a survey are written in it: simple commands with
redirections, lists, pipelines, groups, and the compound commands `case`, `if`, `for` and `while`.
-/

namespace LibSurvey.Script

/-- A part of a word. Quoted parts are not divided into fields, and stand for themselves in
patterns. -/
inductive Part where
  | text (chars : List Char) (quoted : Bool)
  | param (expression : String) (quoted : Bool)
  /-- What a script prints stands for it. -/
  | command (script : List Char) (quoted : Bool)
  /-- The value of an expression over integers. -/
  | sum (expression : List Char)
  /-- What a script has printed. -/
  | printed (chars : List Char) (quoted : Bool)
deriving DecidableEq, Repr, Inhabited

abbrev Word := List Part

inductive Redirect where
  /-- Output of one stream joins another. -/
  | join (source target : Nat)
  | toFile (source : Nat) (target : Word) (keeps : Bool)
  | fromFile (source : Word)
  | fromText (text : Word)
deriving DecidableEq, Repr

inductive Command where
  | nothing
  | simple (assignments : List (String × Word)) (words : List Word) (redirects : List Redirect)
      (line : Nat)
  | sequence (first second : Command)
  | both (first second : Command)
  | either (first second : Command)
  | pipe (first second : Command)
  | negate (command : Command)
  | choose (subject : Word) (arms : List (List Word × Command))
  | branch (condition yes no : Command)
  | loop (condition body : Command)
  | each (name : String) (words : List Word) (body : Command)
  /-- A command that leaves no trace in the variables of the script. -/
  | apart (body : Command)
  | redirected (body : Command) (redirects : List Redirect)
deriving Inhabited

/-- What a script is made of before it is parsed. -/
inductive Lexeme where
  | word (word : Word) (line : Nat)
  | operator (text : String)
  | redirect (redirect : Redirect)
  | newline
deriving DecidableEq, Repr, Inhabited

end LibSurvey.Script
