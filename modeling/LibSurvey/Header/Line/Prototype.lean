import LibSurvey.Header.Annotations
import LibSurvey.Header.Line.Word
import LibSurvey.Signature

/-!
Prototypes read from a line: `[extern] words name(parameters) [annotations];`. The first word that
stands before a parenthesis, with a word before it, is the name. All-caps words count as annotations
as long as a type remains without them.
-/

namespace LibSurvey.Line

/-- The parts of a prototype, as text. -/
structure Shape where
  head : List Char
  name : List Char
  params : List Char
deriving DecidableEq, Repr

def isGap (c : Char) : Bool :=
  Text.isBlank c || c = '*'

theorem length_dropWhile_le (p : Char → Bool) (text : List Char) :
    (text.dropWhile p).length ≤ text.length :=
  (List.dropWhile_suffix p).length_le

/-- The head of a prototype, its name and what follows the opening parenthesis; `seen` is the head
so far, reversed. -/
def headed? (seen text : List Char) : Option (List Char × List Char × List Char) :=
  match _h : word? text with
  | none => none
  | some (word, rest) =>
    match Text.trimLeft rest, seen.isEmpty with
    | '(' :: inside, false => some (seen.reverse, word, inside)
    | _, _ =>
      if (rest.takeWhile isGap).isEmpty then none
      else headed? ((rest.takeWhile isGap).reverse ++ word.reverse ++ seen) (rest.dropWhile isGap)
termination_by text.length
decreasing_by
  have hw : rest.length < text.length := length_word _h
  have hd : (rest.dropWhile isGap).length ≤ rest.length := length_dropWhile_le isGap rest
  omega

/-- The parameters up to the closing parenthesis, and what follows it. Parentheses in them may not
be nested; `inner` says that one is open. -/
def params? (inner : Bool) (seen : List Char) : List Char → Option (List Char × List Char)
  | [] => none
  | '(' :: rest => if inner then none else params? true ('(' :: seen) rest
  | ')' :: rest => if inner then params? false (')' :: seen) rest else some (seen.reverse, rest)
  | c :: rest => params? inner (c :: seen) rest

/-- Whether annotations and a semicolon follow. -/
def endsStatement (text : List Char) : Bool :=
  match _hb : Text.trimLeft text with
  | ';' :: _ => true
  | trimmed =>
    match _hw : word? trimmed with
    | none => false
    | some (_, '(' :: inside) =>
      match _hd : inside.dropWhile (· != ')') with
      | _ :: rest => endsStatement rest
      | [] => false
    | some (_, rest) => endsStatement rest
termination_by text.length
decreasing_by
  · have hb : trimmed.length ≤ text.length := by
      rw [← _hb]; exact length_dropWhile_le Text.isBlank text
    have hw : ('(' :: inside).length < trimmed.length := length_word _hw
    have hd := length_dropWhile_le (· != ')') inside
    rw [_hd] at hd
    simp only [List.length_cons] at hw hd
    omega
  · have hb : trimmed.length ≤ text.length := by
      rw [← _hb]; exact length_dropWhile_le Text.isBlank text
    have hw : rest.length < trimmed.length := length_word _hw
    omega

/-- The parts of a prototype that starts here. -/
def shapeHere? (text : List Char) : Option Shape := do
  let (head, name, inside) ← headed? [] text
  let (params, rest) ← params? false [] inside
  if endsStatement rest then some ⟨head, name, params⟩ else none

/-- The parts of a prototype. An `extern` before it is left out, unless it is needed as a word. -/
def shape? (line : List Char) : Option Shape :=
  let text := Text.trimLeft line
  let afterExtern := do afterBlanks? (← after? "extern".toList text)
  match afterExtern.bind shapeHere? with
  | some shape => some shape
  | none => shapeHere? text

/-- The pieces between the commas outside brackets; `depth` goes below zero where more brackets
close than open. -/
def splitCommasFrom (depth : Int) (current : List Char) (pieces : List (List Char)) :
    List Char → List (List Char)
  | [] => (current.reverse :: pieces).reverse
  | c :: rest =>
    if c = '(' || c = '[' then splitCommasFrom (depth + 1) (c :: current) pieces rest
    else if c = ')' || c = ']' then splitCommasFrom (depth - 1) (c :: current) pieces rest
    else if c = ',' && depth = 0 then
      splitCommasFrom depth [] (current.reverse :: pieces) rest
    else splitCommasFrom depth (c :: current) pieces rest

def mayName (piece : String) : Bool :=
  isName piece.toList && !isTypeKeyword piece

/-- A callback: its name is the first word after a parenthesis that may be one. -/
def callback (pieces : List String) : Param :=
  match (pieces.dropWhile (· != "(")).find? mayName with
  | some name => ⟨renderType (pieces.filter (· != name)), some name⟩
  | none => ⟨renderType pieces, none⟩

def hasTypeWord (pieces : List String) : Bool :=
  pieces.any fun piece => isName piece.toList && !isQualifier piece

/-- A parameter without parentheses, by its pieces. -/
def plainParam (pieces : List String) (decays : Bool) : Param :=
  let star := if decays then ["*"] else []
  match pieces.reverse with
  | last :: tag :: head =>
    if mayName last && !isTagKeyword tag && hasTypeWord (tag :: head) then
      ⟨renderType ((tag :: head).reverse ++ star), some last⟩
    else ⟨renderType (pieces ++ star), none⟩
  | _ => ⟨renderType (pieces ++ star), none⟩

/-- A parameter without blanks around it; what follows the first bracket is a size. -/
def param (annotations : Annotations) (text : List Char) : Param :=
  if text = ['.', '.', '.'] then ⟨"...", none⟩
  else
    let found := (pieces (text.takeWhile (· != '['))).filter (!annotations.isNoise ·)
    if found.contains "(" then callback found
    else plainParam found (text.contains '[')

def params (annotations : Annotations) (text : List Char) : List Param :=
  let text := Text.trim text
  if text.isEmpty || text = "void".toList then []
  else
    (((splitCommasFrom 0 [] [] text).map Text.trim).filter (!·.isEmpty)).map (param annotations)

/-- The words of the return type: all-caps words are left out unless nothing else remains. -/
def returnWords (annotations : Annotations) (head : List String) : List String :=
  let kept := head.filter fun word => word != "extern" && !annotations.isNoise word
  let plain := kept.filter (!isAllCaps ·)
  if plain.any (· != "*") then plain else kept

def mayNameFunction (annotations : Annotations) (name : String) : Bool :=
  !isTypeKeyword name && !isReserved name && !annotations.isNoise name

/-- The function that a line declares, if it declares one. -/
def function? (annotations : Annotations) (line : List Char) : Option (String × Signature) := do
  let shape ← shape? line
  let name := String.ofList shape.name
  let head := pieces shape.head
  let type := returnWords annotations head
  if mayNameFunction annotations name && !(head.head?.map isReserved).getD false &&
      type.any (· != "*") then
    some (name, ⟨renderType type, params annotations shape.params⟩)
  else none

end LibSurvey.Line
