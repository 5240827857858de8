import LibSurvey.Text.Blank
import LibSurvey.Text.WordChar

/-!
Words and pieces of a line. A word may hold letters of any script after its first one; a piece is a
run of ASCII letters, digits and underscores or any other single character.
-/

namespace LibSurvey.Line

/-- The longest word at the front, and what follows it. -/
def word? (text : List Char) : Option (List Char × List Char) :=
  match text with
  | [] => none
  | c :: rest =>
    if Text.isWordStart c then
      some (c :: rest.takeWhile Text.isWordChar, rest.dropWhile Text.isWordChar)
    else none

theorem length_word {text : List Char} {found : List Char × List Char}
    (h : word? text = some found) : found.2.length < text.length := by
  unfold word? at h
  split at h
  · simp at h
  · split at h
    · cases h
      have : (List.dropWhile Text.isWordChar ‹_›).length ≤ _ :=
        (List.dropWhile_suffix (l := ‹List Char›) Text.isWordChar).length_le
      simp only [List.length_cons]; omega
    · simp at h

/-- The text after a given start, if it has that start. -/
def after? : List Char → List Char → Option (List Char)
  | [], text => some text
  | c :: start, d :: text => if c = d then after? start text else none
  | _ :: _, [] => none

/-- The text after one blank or more. -/
def afterBlanks? (text : List Char) : Option (List Char) :=
  match text with
  | c :: rest => if Text.isBlank c then some (Text.trimLeft rest) else none
  | [] => none

def isPieceChar (c : Char) : Bool :=
  c.isAlphanum || c = '_'

/-- Adds the run being read to the pieces before it, last first. -/
def endPiece (run : List Char) (pieces : List String) : List String :=
  if run.isEmpty then pieces else String.ofList run.reverse :: pieces

def piecesFrom (run : List Char) (pieces : List String) : List Char → List String
  | [] => (endPiece run pieces).reverse
  | c :: rest =>
    if isPieceChar c then piecesFrom (c :: run) pieces rest
    else if Text.isBlank c then piecesFrom [] (endPiece run pieces) rest
    else piecesFrom [] (String.singleton c :: endPiece run pieces) rest

def pieces (text : List Char) : List String :=
  piecesFrom [] [] text

end LibSurvey.Line
