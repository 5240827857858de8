import LibSurvey.Header.Directive
import LibSurvey.Header.Prototype
import LibSurvey.Header.Token.Lexer

/-!
What the tokens of a header declare. The tokens go one by one through a state that holds the
statement being read, so two headers one after the other declare what they declare apart wherever
the first leaves nothing pending. Braces are kept apart: those of `extern "C"` are passed over, those
of an enumeration give its items, and all others are skipped.
-/

namespace LibSurvey.Declarations

/-- Braces being read: the line where they open, the braces open inside them, and their tokens, last
first. -/
structure Braces where
  line : Nat
  depth : Nat
  tokens : List Token

/-- The state between two tokens. `pending` and `emissions` are kept last first; `bodied` says that
the pending statement has had braces, and `blocks` counts the open `extern "C"` blocks. -/
structure State where
  pending : List Token
  bodied : Bool
  blocks : Nat
  braces : Option Braces
  emissions : List Emission

def State.start : State :=
  ⟨[], false, 0, none, []⟩

/-- The same state with nothing pending. -/
def State.clear (state : State) : State :=
  { state with pending := [], bodied := false }

def State.emit (state : State) (emission : Option Emission) : State :=
  match emission with
  | some emission => { state with emissions := emission :: state.emissions }
  | none => state

def isExternC (statement : List Token) : Bool :=
  match statement with
  | [first, language] => first.isWord "extern" && language.kind = .string
  | _ => false

/-- One item of an enumeration; what starts with no word is none. -/
def enumerator? (tokens : List Token) : Option Enumerator :=
  match tokens with
  | [] => none
  | name :: rest =>
    if name.kind = .word then
      match rest with
      | equals :: value =>
        if equals.isPunct "=" then
          some ⟨name.text, some (" ".intercalate (value.map (·.text)))⟩
        else some ⟨name.text, none⟩
      | [] => some ⟨name.text, none⟩
    else none

def enumerators (body : List Token) : List Enumerator :=
  (Prototype.splitCommas body).filterMap enumerator?

/-- A semicolon ends a statement, which may be a prototype if it has no braces. -/
def State.endStatement (annotations : Annotations) (state : State) : State :=
  if state.bodied then state.clear
  else
    (state.emit ((Prototype.ofStatement? annotations state.pending.reverse).map
      fun (name, signature) => .function name signature)).clear

/-- Braces end: those of a function end its statement, others belong to it. -/
def State.endBraces (state : State) (body : List Token) : State :=
  let state := { state with braces := none }
  if state.pending.any (·.isPunct "(") then state.clear
  else
    let found := if state.pending.any (·.isWord "enum") then
      some (.enumeration (enumerators body)) else none
    { state.emit found with bodied := true }

/-- A token between braces; directives there mean nothing. -/
def State.stepInside (state : State) (braces : Braces) (token : Token) : State :=
  let deeper (depth : Nat) : State :=
    { state with braces := some { braces with depth, tokens := token :: braces.tokens } }
  if token.kind = .directive then state
  else if token.isPunct "\x7b" then deeper (braces.depth + 1)
  else if token.isPunct "\x7d" then
    match braces.depth with
    | 0 => state.endBraces braces.tokens.reverse
    | depth + 1 => deeper depth
  else deeper braces.depth

/-- A token outside braces, or one that opens or ends them. -/
def State.stepOutside (annotations : Annotations) (state : State) (token : Token) : State :=
  if token.kind = .directive then state.emit (Directive.emission? token.text.toList)
  else if token.isPunct ";" then state.endStatement annotations
  else if token.isPunct "\x7b" then
    if isExternC state.pending.reverse then
      { state with pending := [], blocks := state.blocks + 1 }
    else { state with braces := some ⟨token.line, 0, []⟩ }
  else if token.isPunct "\x7d" then
    { state.clear with
      blocks := if state.pending.isEmpty then state.blocks - 1 else state.blocks }
  else { state with pending := token :: state.pending }

def State.step (annotations : Annotations) (state : State) (token : Token) : State :=
  match state.braces with
  | some braces => state.stepInside braces token
  | none => state.stepOutside annotations token

/-- Braces that never close, by the line where they open. -/
structure OpenBraces where
  line : Nat
deriving DecidableEq, Repr

def OpenBraces.message (fault : OpenBraces) : String :=
  s!"unbalanced braces from line {fault.line}"

/-- Each token is one step, so the limit on the tokens of a header bounds its steps as well. -/
def State.run (annotations : Annotations) (state : State) (tokens : List Token) : State :=
  tokens.foldl (State.step annotations) state

def State.finish (state : State) : Except OpenBraces (List Emission) :=
  match state.braces with
  | some braces => .error ⟨braces.line⟩
  | none => .ok state.emissions.reverse

def ofTokens? (annotations : Annotations) (tokens : List Token) :
    Except OpenBraces (List Emission) :=
  (State.start.run annotations tokens).finish

/-- Why a header could not be read. -/
inductive Fault where
  | tokens (fault : Token.Fault)
  | braces (fault : OpenBraces)
deriving DecidableEq, Repr

def Fault.message : Fault → String
  | .tokens fault => fault.message
  | .braces fault => fault.message

/-- What a header declares, from its bytes. -/
def ofBytes? (annotations : Annotations) (bytes : List UInt8) : Except Fault (List Emission) :=
  match Token.ofBytes? bytes with
  | .error fault => .error (.tokens fault)
  | .ok tokens =>
    match ofTokens? annotations tokens with
    | .error fault => .error (.braces fault)
    | .ok emissions => .ok emissions

end LibSurvey.Declarations
