import LibSurvey.Text.CaseTable

/-!
The case of a text, letter by letter, with the letters whose other case is longer and with the sigma
that ends a word.
-/

namespace LibSurvey.Text

def inRanges (ranges : List (Nat × Nat)) (c : Char) : Bool :=
  ranges.any fun r => r.1 ≤ c.toNat && c.toNat ≤ r.2

/-- The image of a letter under a table of runs; a letter in no run is its own image. -/
def shiftCase (runs : List CaseRun) (c : Char) : Char :=
  match runs.find? fun (first, last, step, _) =>
      first ≤ c.toNat && c.toNat ≤ last && (c.toNat - first) % step = 0 with
  | some (first, _, _, image) => Char.ofNat (image + (c.toNat - first))
  | none => c

def upperChar (c : Char) : List Char :=
  match upperLong.lookup c.toNat with
  | some image => image.map Char.ofNat
  | none => [shiftCase upperRuns c]

def upper (cs : List Char) : List Char :=
  cs.flatMap upperChar

/-- Whether a letter with a case comes next, after characters that are passed over. -/
def casedNext (cs : List Char) : Bool :=
  match cs.dropWhile (inRanges caseIgnorableRanges) with
  | c :: _ => inRanges casedRanges c
  | [] => false

/-- A capital sigma after a cased letter and not before one ends a word and has a form of its own;
a dotted capital I keeps its dot. -/
def lowerChar (before : List Char) (c : Char) (after : List Char) : List Char :=
  if c = 'Σ' then if casedNext before && !casedNext after then ['ς'] else ['σ']
  else if c = 'İ' then ['i', '\u0307']
  else [shiftCase lowerRuns c]

/-- The lower case of what is left of a text; `before` holds the letters already seen, last first. -/
def lowerAfter (before : List Char) : List Char → List Char
  | [] => []
  | c :: rest => lowerChar before c rest ++ lowerAfter (c :: before) rest

def lower (cs : List Char) : List Char :=
  lowerAfter [] cs

/-- Equality up to the case of ASCII letters. -/
def sameIgnoringCase (a b : String) : Bool :=
  a.toList.map Char.toLower = b.toList.map Char.toLower

end LibSurvey.Text
