import LibSurvey.Signature
import Std.Data.TreeMap

/-!
Functions as a survey lists them: with the signature that is known, where it comes from, and whether
the object exports the function.
-/

namespace LibSurvey

inductive Provenance where
  | header
  | debugInfo
  /-- Only the name of the function is known. -/
  | symbolOnly
deriving DecidableEq, Repr

def Provenance.name : Provenance → String
  | .header => "header"
  | .debugInfo => "debug-info"
  | .symbolOnly => "symbol-only"

structure FoundFunction where
  signature : Option Signature
  provenance : Provenance
  exported : Bool
deriving DecidableEq, Repr

namespace FoundFunction

def typed (signature : Signature) (provenance : Provenance) : FoundFunction :=
  ⟨some signature, provenance, false⟩

def symbolOnly : FoundFunction :=
  ⟨none, .symbolOnly, true⟩

end FoundFunction

abbrev FoundFunctions := Std.TreeMap String FoundFunction

namespace FoundFunctions

/-- The functions with a signature, in the order of their names. -/
def typed (functions : FoundFunctions) : List (String × Signature) :=
  functions.toList.filterMap fun entry =>
    entry.2.signature.map fun signature => (entry.1, signature)

/-- The names of which nothing else is known, in order. -/
def symbolOnly (functions : FoundFunctions) : List String :=
  (functions.toList.filter (·.2.provenance = .symbolOnly)).map (·.1)

def hasTyped (functions : FoundFunctions) : Bool :=
  functions.toList.any (·.2.signature.isSome)

end FoundFunctions
end LibSurvey
