/-!
Punycode: text beyond ASCII as the ASCII characters of it and a sequence of insertions, each a step
in position and code point together.
-/

namespace LibSurvey.Demangle.Punycode

def maxLength : Nat := 128

/-- The value of a digit. -/
def digit? (c : Char) : Option Nat :=
  if 'a' ≤ c && c ≤ 'z' then some (c.toNat - 'a'.toNat)
  else if '0' ≤ c && c ≤ '9' then some (26 + (c.toNat - '0'.toNat))
  else none

def word : Nat := UInt64.size

/-- A step: digits from the least significant on, up to one below its threshold. `weight` is that of
the next digit and `k` its index times 36. -/
def delta? (bias value weight k : Nat) : List Char → Option (Nat × List Char)
  | [] => none
  | c :: rest =>
    match digit? c with
    | none => none
    | some d =>
      let threshold := min (max (k + 36 - bias) 1) 26
      let value := value + d * weight
      if word ≤ value then none
      else if d < threshold then some (value, rest)
      else if word ≤ weight * (36 - threshold) then none
      else delta? bias value (weight * (36 - threshold)) (k + 36) rest

/-- Takes a step down to the size that sets the bias; `fuel` bounds the divisions. -/
def shrink (fuel delta k : Nat) : Nat × Nat :=
  match fuel with
  | 0 => (delta, k)
  | fuel + 1 => if 455 < delta then shrink fuel (delta / 35) (k + 36) else (delta, k)

def adapt (delta damp length : Nat) : Nat :=
  let damped := delta / damp
  let (small, k) := shrink 64 (damped + damped / length) 0
  k + 36 * small / (small + 38)

/-- Makes the insertions that the digits describe, at most one for each of them. -/
def insertAll (fuel : Nat) (out : List Char) (position code bias damp : Nat)
    (digits : List Char) : Option (List Char) :=
  match fuel with
  | 0 => none
  | fuel + 1 =>
    match delta? bias 0 1 0 digits with
    | none => none
    | some (delta, rest) =>
      let length := out.length + 1
      let place := position + delta
      let code := code + place / length
      if maxLength < length || word ≤ place || !code.isValidChar then none
      else
        let at_ := place % length
        let out := out.take at_ ++ Char.ofNat code :: out.drop at_
        if rest.isEmpty then some out
        else insertAll fuel out (at_ + 1) code (adapt delta damp length) 2 rest

/-- The text made of ASCII characters and insertions; there has to be an insertion. -/
def decode? (ascii digits : List Char) : Option (List Char) :=
  if digits.isEmpty || maxLength < ascii.length then none
  else insertAll digits.length ascii 0 0x80 72 700 digits

end LibSurvey.Demangle.Punycode
