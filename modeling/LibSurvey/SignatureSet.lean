import LibSurvey.Constant.Evaluate
import LibSurvey.Signature

/-!
What the headers of one library declare: constants, macros and functions by name. The set only
grows; a constant or macro takes its last definition, a function keeps its first.
-/

namespace LibSurvey

abbrev FunctionSet := Std.TreeMap String Signature

structure SignatureSet where
  constants : ConstantSet
  macros : MacroSet
  functions : FunctionSet

namespace SignatureSet

def empty : SignatureSet :=
  ⟨∅, ∅, ∅⟩

instance : Inhabited SignatureSet := ⟨empty⟩

def defineConstant (set : SignatureSet) (name : String) (value : Int64) : SignatureSet :=
  { set with constants := set.constants.insert name value }

def defineMacro (set : SignatureSet) (name : String) (definition : MacroDefinition) :
    SignatureSet :=
  { set with macros := set.macros.insert name definition }

/-- A function that is already declared stays as it is. -/
def declareFunction (set : SignatureSet) (name : String) (signature : Signature) : SignatureSet :=
  { set with functions := set.functions.insertIfNew name signature }

def isEmpty (set : SignatureSet) : Bool :=
  set.constants.isEmpty && set.macros.isEmpty && set.functions.isEmpty

/-- The value of an expression over the constants and macros of the set. -/
def evaluate (set : SignatureSet) (expression : String) : Except Failure Int64 :=
  Expression.evaluate set.constants set.macros expression

end SignatureSet
end LibSurvey
