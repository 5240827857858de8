import LibSurvey.Header.Line.Directive
import LibSurvey.Header.Line.Enumeration
import LibSurvey.Header.Line.Logical
import LibSurvey.Header.Line.Prototype
import LibSurvey.Text.Utf8

/-!
What a header declares, line by line. Nothing fails here: a line that is not understood is passed
over. A prototype may go on for a few lines until its parentheses close.
-/

namespace LibSurvey.Line

/-- How many lines may be joined to a prototype. -/
def maxJoined : Nat := 8

def isDirective (line : List Char) : Bool :=
  line.head? = some '#'

/-- How many more parentheses open than close. -/
def balance (line : List Char) : Int :=
  (line.count '(' : Int) - line.count ')'

/-- Joins lines, so many at most, while parentheses stay open. -/
def joinOpen (joined : List Char) : Nat → List (List Char) → List Char × List (List Char)
  | extra + 1, next :: rest =>
    if 0 < balance joined && !isDirective next then joinOpen (joined ++ ' ' :: next) extra rest
    else (joined, next :: rest)
  | _, rest => (joined, rest)

theorem length_joinOpen_le (joined : List Char) (extra : Nat) (rest : List (List Char)) :
    (joinOpen joined extra rest).2.length ≤ rest.length := by
  fun_induction joinOpen joined extra rest with
  | case1 _ _ _ _ _ ih => simp only [List.length_cons]; omega
  | case2 | case3 => simp

/-- What logical lines declare; `emissions` holds what those before them do, last first. -/
def scanFrom (annotations : Annotations) (emissions : List Emission) :
    List (List Char) → List Emission
  | [] => emissions.reverse
  | line :: rest =>
    if isDirective line then scanFrom annotations ((directive? line).toList ++ emissions) rest
    else match enumBody? line with
      | some body => scanFrom annotations (.enumeration (enumerators body) :: emissions) rest
      | none =>
        let found := (function? annotations (joinOpen line maxJoined rest).1).map
          fun (name, signature) => Emission.function name signature
        scanFrom annotations (found.toList ++ emissions) (joinOpen line maxJoined rest).2
termination_by lines => lines.length
decreasing_by
  · simp
  · simp
  · have := length_joinOpen_le line maxJoined rest
    simp only [List.length_cons]; omega

def scan (annotations : Annotations) (text : List Char) : List Emission :=
  scanFrom annotations [] (logical text)

end LibSurvey.Line
