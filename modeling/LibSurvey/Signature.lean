/-!
Signatures of C functions: a return type and parameters, all as texts of types, and the prototype
they are written as.
-/

namespace LibSurvey

structure Param where
  type : String
  name : Option String
deriving DecidableEq, Repr

def Param.render (param : Param) : String :=
  match param.name with
  | some name => param.type ++ " " ++ name
  | none => param.type

structure Signature where
  returnType : String
  params : List Param
deriving DecidableEq, Repr

namespace Signature

def renderParams (params : List Param) : String :=
  if params.isEmpty then "void" else ", ".intercalate (params.map Param.render)

/-- The prototype of a function with this signature, without a semicolon. -/
def render (signature : Signature) (name : String) : String :=
  signature.returnType ++ " " ++ name ++ "(" ++ renderParams signature.params ++ ")"

end Signature

/-- Whether a piece of a type stands without a space after the piece before it: a star, a closing
bracket and a comma do, so does what follows an opening bracket, and the parameters of a callback
follow its star. -/
def gluesTo (previous piece : String) : Bool :=
  ["*", ")", "]", "[", ","].contains piece || previous = "(" || previous = "[" ||
    (piece = "(" && (previous = ")" || previous = "*"))

/-- The pieces that follow a given one. -/
def renderAfter (previous : String) : List String → String
  | [] => ""
  | piece :: rest =>
    (if gluesTo previous piece then piece else " " ++ piece) ++ renderAfter piece rest

/-- The text of a type: its words apart, stars and brackets next to what they belong to. -/
def renderType : List String → String
  | [] => ""
  | piece :: rest => piece ++ renderAfter piece rest

end LibSurvey
