import LibSurvey.SignatureSet

/-!
What a header says, in the order it says it. An emission is only recognised here; it takes effect
when a session applies it, so a header that turns out to be unreadable leaves nothing behind.
-/

namespace LibSurvey

structure Enumerator where
  name : String
  value : Option String
deriving DecidableEq, Repr

inductive Emission where
  /-- The name of another header, without its delimiters. -/
  | included (name : String)
  /-- A definition without parameters, with the text of its value. -/
  | constant (name expression : String)
  | functionMacro (name : String) (definition : MacroDefinition)
  /-- The enumerators of one body. -/
  | enumeration (items : List Enumerator)
  | function (name : String) (signature : Signature)
deriving DecidableEq, Repr

end LibSurvey
