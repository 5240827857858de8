import LibSurvey.Failure

/-!
Cancellation: a survey can be told to stop, and looks from time to time whether it has been. How far
it has come is counted in looks and in the milliseconds spent on tools.
-/

namespace LibSurvey

/-- The point from which a survey is cancelled, and stays so. -/
inductive Cancellation where
  | never
  | fromLook (count : Nat)
  | fromTime (milliseconds : Nat)
deriving DecidableEq, Repr

structure Course where
  looks : Nat
  elapsedMs : Nat
deriving DecidableEq, Repr

def Course.start : Course :=
  ⟨0, 0⟩

def Course.looked (course : Course) : Course :=
  { course with looks := course.looks + 1 }

def Course.after (course : Course) (milliseconds : Nat) : Course :=
  { course with elapsedMs := course.elapsedMs + milliseconds }

namespace Cancellation

/-- Whether a survey that has come so far finds itself cancelled. -/
def isSet (cancellation : Cancellation) (course : Course) : Bool :=
  match cancellation with
  | .never => false
  | .fromLook count => count ≤ course.looks
  | .fromTime milliseconds => milliseconds ≤ course.elapsedMs

end Cancellation
end LibSurvey
