import LibSurvey.Proofs.Constant.Tree

/-!
One step of the evaluator. What a text is to it is decided by the text alone, in the order in which the
alternatives are tried; the value is then put together from the values of the texts in it.
-/

namespace LibSurvey.Expression

def Bitwise.onWords : Bitwise → Int64 → Int64 → Int64
  | .or => (· ||| ·)
  | .and => (· &&& ·)

/-- What a text is to the evaluator, before anything is looked up. -/
inductive Form where
  | blank
  | group (inner : List Char)
  | literal (value : Int64)
  | bitwise (op : Bitwise) (operands : List (List Char))
  | shift (split : ShiftSplit)
  | name (text : List Char)
  /-- All else; only a call of a macro can have a value. -/
  | call (text : List Char)

/-- The alternatives in the order in which they are tried. -/
def form (text : List Char) : Form :=
  let text := Text.trim text
  if text.isEmpty then .blank
  else match enclosed? text with
  | some inner => .group inner
  | none =>
    match Literal.ofChars? text with
    | some value => .literal value
    | none =>
      if 1 < (splitTop '|' text).length then .bitwise .or (splitTop '|' text)
      else if 1 < (splitTop '&' text).length then .bitwise .and (splitTop '&' text)
      else match lastShift? text with
      | some split => .shift split
      | none => if isName text then .name text else .call text

/-- The value of a form, from the values of the texts in it. -/
def Form.value? (constants : ConstantSet) (macros : MacroSet) (part : List Char → Option Int64) :
    Form → Option Int64
  | .blank => none
  | .group inner => part inner
  | .literal value => some value
  | .bitwise op operands => fold? op.onWords (operands.map part)
  | .shift split => do
    let value ← part split.left
    let amount ← part split.right
    shift? split.op value amount
  | .name text => constants[String.ofList text]?
  | .call text => (expandCall? macros text).bind part

theorem value?_zero (constants : ConstantSet) (macros : MacroSet) (text : List Char) :
    value? constants macros 0 text = none := rfl

/-- One step of the evaluator. -/
theorem value?_succ (constants : ConstantSet) (macros : MacroSet) (steps : Nat) (text : List Char) :
    value? constants macros (steps + 1) text =
      (form text).value? constants macros (value? constants macros steps) := by
  rw [Expression.value?, form]
  generalize Text.trim text = text
  cases text.isEmpty with
  | true => rfl
  | false =>
      cases enclosed? text with
      | some inner => rfl
      | none =>
          cases Literal.ofChars? text with
          | some value => rfl
          | none =>
              simp only [Bool.false_eq_true, ite_false]
              split
              · rfl
              · split
                · rfl
                · cases lastShift? text with
                  | some split => rfl
                  | none =>
                      cases isName text with
                      | true => rfl
                      | false =>
                          simp only [Bool.false_eq_true, ite_false, Form.value?]
                          cases expandCall? macros text <;> rfl

end LibSurvey.Expression
