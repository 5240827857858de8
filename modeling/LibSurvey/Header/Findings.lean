import LibSurvey.Diagnostics
import LibSurvey.Header.Emission

/-!
What the emissions of headers amount to. They take effect in order, so that an expression sees
exactly what stands before it; one that has no value is left out with a diagnostic.
-/

namespace LibSurvey

structure Findings where
  signatures : SignatureSet
  diagnostics : Diagnostics

namespace Findings

def empty (diagnostics : Bool) : Findings :=
  ⟨.empty, .empty diagnostics⟩

def note (findings : Findings) (stage : Stage) (message : String) : Findings :=
  { findings with diagnostics := findings.diagnostics.record stage message }

/-- The value of the expression of a named constant. -/
def evaluate (findings : Findings) (name expression : String) : Option Int64 × Findings :=
  match findings.signatures.evaluate expression with
  | .ok value => (some value, findings)
  | .error failure => (none, findings.note .evaluate (name ++ ": " ++ failure.message))

def define (findings : Findings) (name : String) (value : Option Int64) : Findings :=
  match value with
  | some value => { findings with signatures := findings.signatures.defineConstant name value }
  | none => findings

/-- The value after a given one, unless there is none. -/
def successor? (value : Option Int64) : Option Int64 :=
  value.bind fun value => if value = Int64.maxValue then none else some (value + 1)

/-- Enumerators in order. `next` is the value of one without an expression: unknown where the one
before it is. -/
def enumerate (findings : Findings) (next : Option Int64) : List Enumerator → Findings
  | [] => findings
  | item :: rest =>
    match item.value with
    | some expression =>
      let (value, findings) := findings.evaluate item.name expression
      (findings.define item.name value).enumerate (successor? value) rest
    | none => (findings.define item.name next).enumerate (successor? next) rest

def applyOne (findings : Findings) (emission : Emission) : Findings :=
  match emission with
  | .included _ => findings
  | .constant name expression =>
    let (value, findings) := findings.evaluate name expression
    findings.define name value
  | .functionMacro name definition =>
    { findings with signatures := findings.signatures.defineMacro name definition }
  | .enumeration items => findings.enumerate (some 0) items
  | .function name signature =>
    { findings with signatures := findings.signatures.declareFunction name signature }

def apply (findings : Findings) (emissions : List Emission) : Findings :=
  emissions.foldl applyOne findings

end Findings

/-- The names of the headers that emissions include, in order. -/
def Emission.includes (emissions : List Emission) : List String :=
  emissions.filterMap fun emission =>
    match emission with
    | .included name => some name
    | _ => none

end LibSurvey
