import LibSurvey.Text.Utf8

/-!
Tokens of a header. A directive is one token, the text of its logical line without the `#`; all
other tokens stand for themselves.
-/

namespace LibSurvey

inductive Token.Kind where
  | word
  | number
  | string
  | character
  | punctuation
  | directive
deriving DecidableEq, Repr

structure Token where
  kind : Token.Kind
  text : String
  line : Nat
deriving DecidableEq, Repr

namespace Token

def isPunct (token : Token) (text : String) : Bool :=
  token.kind = .punctuation && token.text = text

def isWord (token : Token) (text : String) : Bool :=
  token.kind = .word && token.text = text

theorem kind_of_isPunct {token : Token} {text : String} (h : token.isPunct text = true) :
    token.kind = .punctuation := by
  simp only [isPunct, Bool.and_eq_true, decide_eq_true_eq] at h
  exact h.1

theorem kind_of_isWord {token : Token} {text : String} (h : token.isWord text = true) :
    token.kind = .word := by
  simp only [isWord, Bool.and_eq_true, decide_eq_true_eq] at h
  exact h.1

theorem isPunct_ne {token : Token} {a b : String} (h : token.isPunct a = true) (ne : a ≠ b) :
    token.isPunct b = false := by
  simp only [isPunct, Bool.and_eq_true, decide_eq_true_eq] at h
  simp [isPunct, h.2, ne]

/-- Why a header has no tokens. -/
inductive Fault where
  | notUtf8 (fault : Text.Utf8.Fault)
  | openComment (line : Nat)
  | openLiteral (line : Nat)
  | tooMany
deriving DecidableEq, Repr

/-- How many tokens a header may have. -/
def limit : Nat := 1000000

def Fault.message : Fault → String
  | .notUtf8 fault => s!"invalid UTF-8: {fault.message}"
  | .openComment line => s!"unterminated block comment starting on line {line}"
  | .openLiteral line => s!"unterminated literal starting on line {line}"
  | .tooMany => s!"more than {limit} tokens"

end Token
end LibSurvey
