/-!
Words of C: how an identifier is spelled, which words belong to types or statements, and which
spellings a library uses for its constants. All of these look at ASCII only.
-/

namespace LibSurvey

def isNameStart (c : Char) : Bool :=
  c.isAlpha || c = '_'

def isNameChar (c : Char) : Bool :=
  c.isAlphanum || c = '_'

def isName : List Char → Bool
  | [] => false
  | c :: rest => isNameStart c && rest.all isNameChar

/-- Upper-case letters, digits and underscores with at least one letter. -/
def isAllCaps (word : String) : Bool :=
  word.toList.any Char.isUpper &&
    word.toList.all fun c => c.isUpper || c.isDigit || c = '_'

/-- A definition without parameters counts as a constant only under such a name. -/
def isConstantName (name : List Char) : Bool :=
  match name with
  | [] => false
  | c :: rest => c.isUpper && rest.all isNameChar

/-- Words that are part of a type and never the name of a parameter. -/
def typeKeywords : List String :=
  ["void", "char", "short", "int", "long", "float", "double", "signed", "unsigned", "const",
    "volatile", "_Bool", "bool", "_Complex", "struct", "union", "enum", "__int64", "__int128"]

def isTypeKeyword (word : String) : Bool :=
  typeKeywords.contains word

/-- Words of statements, which neither start nor name a declaration. -/
def reservedWords : List String :=
  ["return", "if", "else", "while", "for", "do", "switch", "case", "goto", "sizeof", "typedef",
    "break"]

def isReserved (word : String) : Bool :=
  reservedWords.contains word

def isTagKeyword (word : String) : Bool :=
  word = "struct" || word = "union" || word = "enum"

def isQualifier (word : String) : Bool :=
  word = "const" || word = "volatile"

end LibSurvey
