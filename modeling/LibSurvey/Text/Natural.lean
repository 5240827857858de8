import LibSurvey.Text.Blank

/-!
Natural numbers of 64 bits as text.
-/

namespace LibSurvey.Text

def digitsValue (digits : List Char) : Nat :=
  digits.foldl (fun value c => value * 10 + (c.toNat - '0'.toNat)) 0

/-- The number that ASCII digits are, perhaps after a plus sign, if 64 bits hold it. -/
def natural? (text : List Char) : Option Nat :=
  let digits := match text with
    | '+' :: digits => digits
    | digits => digits
  if digits.isEmpty || !digits.all Char.isDigit then none
  else if digitsValue digits < UInt64.size then some (digitsValue digits)
  else none

end LibSurvey.Text
