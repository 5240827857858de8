/-!
Blanks: the characters with the white-space property, and the ways of cutting text at them. Text is
a list of characters here; nothing in this module depends on how a text is stored.
-/

namespace LibSurvey.Text

def isBlank (c : Char) : Bool :=
  (9 ≤ c.toNat && c.toNat ≤ 13) || c.toNat = 0x20 || c.toNat = 0x85 || c.toNat = 0xa0 ||
  c.toNat = 0x1680 || (0x2000 ≤ c.toNat && c.toNat ≤ 0x200a) || c.toNat = 0x2028 ||
  c.toNat = 0x2029 || c.toNat = 0x202f || c.toNat = 0x205f || c.toNat = 0x3000

def trimLeft (cs : List Char) : List Char :=
  cs.dropWhile isBlank

/-- Drops the longest end of characters that satisfy a test. -/
def dropLastWhile (p : Char → Bool) (cs : List Char) : List Char :=
  (cs.reverse.dropWhile p).reverse

def trimRight (cs : List Char) : List Char :=
  dropLastWhile isBlank cs

def trim (cs : List Char) : List Char :=
  trimRight (trimLeft cs)

/-- The pieces between characters that satisfy a test; `current` is the piece being read, reversed,
and `pieces` holds the finished ones, last first. -/
def splitAtWith (p : Char → Bool) (current : List Char) (pieces : List (List Char)) :
    List Char → List (List Char)
  | [] => (current.reverse :: pieces).reverse
  | c :: rest =>
    if p c then splitAtWith p [] (current.reverse :: pieces) rest
    else splitAtWith p (c :: current) pieces rest

/-- The pieces between separators: always one more than there are separators. -/
def splitAt (p : Char → Bool) (cs : List Char) : List (List Char) :=
  splitAtWith p [] [] cs

/-- The words of a text: its longest pieces without a blank. -/
def words (cs : List Char) : List (List Char) :=
  (splitAt isBlank cs).filter (!·.isEmpty)

/-- A line without the carriage return that stands before its end. -/
def dropReturn (line : List Char) : List Char :=
  if line.getLast? = some '\r' then line.dropLast else line

/-- The lines of a text. A line feed ends a line, so a text that ends in one has no empty last line;
a carriage return is dropped only before a line feed. -/
def lines (cs : List Char) : List (List Char) :=
  match (splitAt (· = '\n') cs).reverse with
  | [] => []
  | last :: before =>
    (before.map dropReturn).reverse ++ if last.isEmpty then [] else [last]

end LibSurvey.Text
