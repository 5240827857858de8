import LibSurvey.Header.Annotations
import LibSurvey.Header.Token
import LibSurvey.Signature

/-!
Prototypes read from tokens: `[extern] type name(parameters) [annotations]`. Annotations are taken
out first, with their arguments; then the first parenthesis separates the name from the parameters.
-/

namespace LibSurvey.Prototype

open Token (Kind)

/-- The tokens up to the parenthesis that closes one already open, and the tokens after it; `depth`
counts the parentheses opened since, `seen` holds the tokens so far, last first. -/
def closing? (depth : Nat) (seen : List Token) : List Token → Option (List Token × List Token)
  | [] => none
  | token :: rest =>
    if token.isPunct "(" then closing? (depth + 1) (token :: seen) rest
    else if token.isPunct ")" then
      match depth with
      | 0 => some (seen.reverse, rest)
      | depth + 1 => closing? depth (token :: seen) rest
    else closing? depth (token :: seen) rest

theorem length_closing {depth : Nat} {seen tokens : List Token} {found : List Token × List Token}
    (h : closing? depth seen tokens = some found) : found.2.length < tokens.length := by
  fun_induction closing? depth seen tokens with
  | case1 => simp at h
  | case2 _ _ _ _ _ ih => have := ih h; simp only [List.length_cons]; omega
  | case3 => cases h; simp
  | case4 _ _ _ _ _ _ ih => have := ih h; simp only [List.length_cons]; omega
  | case5 _ _ _ _ _ _ ih => have := ih h; simp only [List.length_cons]; omega

/-- What follows a group in parentheses at the front; nothing follows one that never closes. -/
def afterGroup (tokens : List Token) : List Token :=
  match tokens with
  | [] => []
  | token :: rest =>
    if token.isPunct "(" then
      match closing? 0 [] rest with
      | some (_, after) => after
      | none => []
    else token :: rest

theorem length_afterGroup_le (tokens : List Token) :
    (afterGroup tokens).length ≤ tokens.length := by
  unfold afterGroup
  split
  · simp
  · split
    · split
      · have := length_closing ‹_›
        simp only [List.length_cons] at this ⊢; omega
      · simp
    · simp

/-- What follows the language of an `extern`. -/
def afterLanguage : List Token → List Token
  | [] => []
  | token :: rest => if token.kind = .string then rest else token :: rest

theorem length_afterLanguage_le (tokens : List Token) :
    (afterLanguage tokens).length ≤ tokens.length := by
  unfold afterLanguage
  repeat' split
  all_goals simp

/-- A statement without its annotations, their arguments and `extern`. -/
def stripNoise (annotations : Annotations) : List Token → List Token
  | [] => []
  | token :: rest =>
    if token.isWord "extern" then stripNoise annotations (afterLanguage rest)
    else if token.kind = .word && annotations.isNoise token.text then
      stripNoise annotations (afterGroup rest)
    else token :: stripNoise annotations rest
termination_by tokens => tokens.length
decreasing_by
  · have := length_afterLanguage_le rest; simp only [List.length_cons]; omega
  · have := length_afterGroup_le rest; simp only [List.length_cons]; omega
  · simp

/-- Whether tokens are words, each with or without arguments. -/
def areAnnotations : List Token → Bool
  | [] => true
  | token :: rest =>
    token.kind = .word &&
      match rest with
      | [] => true
      | next :: inside =>
        if next.isPunct "(" then
          match _h : closing? 0 [] inside with
          | some (_, after) => areAnnotations after
          | none => false
        else areAnnotations (next :: inside)
termination_by tokens => tokens.length
decreasing_by
  · have := length_closing _h; simp only [List.length_cons] at *; omega
  · simp

/-- The pieces between the commas outside brackets; `depth` goes below zero where more brackets
close than open. -/
def splitCommasFrom (depth : Int) (current : List Token) (pieces : List (List Token)) :
    List Token → List (List Token)
  | [] => (current.reverse :: pieces).reverse
  | token :: rest =>
    if token.isPunct "(" || token.isPunct "[" then
      splitCommasFrom (depth + 1) (token :: current) pieces rest
    else if token.isPunct ")" || token.isPunct "]" then
      splitCommasFrom (depth - 1) (token :: current) pieces rest
    else if token.isPunct "," && depth = 0 then
      splitCommasFrom depth [] (current.reverse :: pieces) rest
    else splitCommasFrom depth (token :: current) pieces rest

def splitCommas (tokens : List Token) : List (List Token) :=
  splitCommasFrom 0 [] [] tokens

def typeText (tokens : List Token) : String :=
  renderType (tokens.map Token.text)

/-- Whether a token may be the name of a parameter. -/
def mayName (token : Token) : Bool :=
  token.kind = .word && !isTypeKeyword token.text

/-- Whether some word says more about a type than a qualifier does. -/
def hasTypeWord (tokens : List Token) : Bool :=
  tokens.any fun token => token.kind = .word && !isQualifier token.text

/-- A callback: its name is the last word in the first group that may be one. `before` ends with
the parenthesis that opens the group, and `after` starts with the one that closes it. -/
def callback (before : List String) (inside : List Token) (after : List String) : Param :=
  let texts := List.map Token.text
  let last := inside.reverse.takeWhile (!mayName ·)
  match inside.reverse.dropWhile (!mayName ·) with
  | name :: first =>
    ⟨renderType (before ++ texts first.reverse ++ texts last.reverse ++ after), some name.text⟩
  | [] => ⟨renderType (before ++ texts inside ++ after), none⟩

/-- Drops array sizes from the end of a parameter, given last token first; says whether there were
any. -/
def dropSizes (reversed : List Token) : List Token × Bool :=
  match reversed with
  | [] => ([], false)
  | token :: before =>
    if token.isPunct "]" then
      match _h : before.dropWhile (!·.isPunct "[") with
      | _ :: type => ((dropSizes type).1, true)
      | [] => (reversed, false)
    else (reversed, false)
termination_by reversed.length
decreasing_by
  have : (before.dropWhile (!·.isPunct "[")).length ≤ before.length :=
    (List.dropWhile_suffix _).length_le
  rw [_h] at this
  simp only [List.length_cons] at this ⊢; omega

/-- A parameter without parentheses: the last word is its name if it may be one and a type remains
without it. An array becomes a pointer. -/
def plainParam (tokens : List Token) : Param :=
  let (reversed, decays) := dropSizes tokens.reverse
  let star := if decays then ["*"] else []
  match reversed with
  | last :: tag :: head =>
    if mayName last && !isTagKeyword tag.text && hasTypeWord (tag :: head) then
      ⟨renderType (((tag :: head).reverse.map (·.text)) ++ star), some last.text⟩
    else ⟨renderType ((reversed.reverse.map (·.text)) ++ star), none⟩
  | _ => ⟨renderType ((reversed.reverse.map (·.text)) ++ star), none⟩

def param (tokens : List Token) : Param :=
  match tokens.span (!·.isPunct "(") with
  | (before, _ :: rest) =>
    let before := before.map (·.text) ++ ["("]
    match closing? 0 [] rest with
    | some (inside, after) => callback before inside (")" :: after.map (·.text))
    | none => callback before rest []
  | (_, []) =>
    match tokens with
    | [only] => if only.isPunct "..." then ⟨"...", none⟩ else plainParam tokens
    | _ => plainParam tokens

def isVoid : List Token → Bool
  | [only] => only.isWord "void"
  | _ => false

def params (tokens : List Token) : List Param :=
  if tokens.isEmpty || isVoid tokens then []
  else ((splitCommas tokens).filter (!·.isEmpty)).map param

/-- Whether tokens are a type: words, none of them reserved, and stars, with one word or more. -/
def isReturnType (tokens : List Token) : Bool :=
  tokens.any (·.kind = .word) &&
    tokens.all fun token =>
      (token.kind = .word && !isReserved token.text) || token.isPunct "*"

def mayNameFunction (token : Token) : Bool :=
  token.kind = .word && !isTypeKeyword token.text && !isReserved token.text

/-- The function that a statement without annotations declares. -/
def ofWords? (words : List Token) : Option (String × Signature) :=
  match words.head? with
  | none => none
  | some first =>
    if first.isWord "typedef" || words.any (·.isPunct "=") then none
    else match words.span (!·.isPunct "(") with
      | (before, _ :: rest) =>
        match before.reverse, closing? 0 [] rest with
        | name :: type, some (inside, after) =>
          if mayNameFunction name && areAnnotations after && isReturnType type.reverse then
            some (name.text, ⟨typeText type.reverse, params inside⟩)
          else none
        | _, _ => none
      | (_, []) => none

/-- The function that a statement declares, if it declares one. -/
def ofStatement? (annotations : Annotations) (statement : List Token) :
    Option (String × Signature) :=
  ofWords? (stripNoise annotations statement)

end LibSurvey.Prototype
