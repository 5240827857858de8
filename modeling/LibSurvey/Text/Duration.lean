/-!
Spans of time in milliseconds, written in seconds from one second on and with no more decimals than
they need.
-/

namespace LibSurvey.Text

/-- Up to three decimals of a number of thousandths, without zeros at the end. -/
def thousandths (n : Nat) : String :=
  if n = 0 then ""
  else if n % 100 = 0 then s!".{n / 100}"
  else if n % 10 = 0 then s!".{n / 100}{n / 10 % 10}"
  else s!".{n / 100}{n / 10 % 10}{n % 10}"

def duration (milliseconds : Nat) : String :=
  if milliseconds = 0 then "0ns"
  else if milliseconds < 1000 then s!"{milliseconds}ms"
  else s!"{milliseconds / 1000}{thousandths (milliseconds % 1000)}s"

end LibSurvey.Text
