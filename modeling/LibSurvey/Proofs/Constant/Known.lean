import LibSurvey.Proofs.Constant.Meaning

/-!
Evaluation where more is known. Constants and macros are looked up only after it is decided what a text
is to the evaluator. So no alternative is taken because a lookup failed, and a value that is found stays
the value when further constants and macros are known.
-/

namespace LibSurvey.Expression

variable {constants moreConstants : ConstantSet} {macros moreMacros : MacroSet}

/-- All that a map binds is bound alike in another. -/
def Extends {α : Type} (more fewer : Std.TreeMap String α) : Prop :=
  ∀ (name : String) (value : α), fewer[name]? = some value → more[name]? = some value

theorem extends_insert {α : Type} {fewer : Std.TreeMap String α} {name : String} (value : α)
    (unknown : fewer[name]? = none) : Extends (fewer.insert name value) fewer := by
  intro other bound h
  have hne : name ≠ other := by
    rintro rfl
    exact absurd (unknown.symm.trans h) (by simp)
  rw [Std.TreeMap.getElem?_insert, if_neg (by simpa using hne), h]

theorem foldl_mono {α : Type} {op : Int64 → Int64 → Int64} {f g : α → Option Int64}
    (operands : List α)
    (h : ∀ operand ∈ operands, ∀ value, f operand = some value → g operand = some value)
    {sum more : Option Int64} (hsum : ∀ value, sum = some value → more = some value) {value : Int64}
    (folded : (operands.map f).foldl (fun sum value => do return op (← sum) (← value)) sum =
      some value) :
    (operands.map g).foldl (fun sum value => do return op (← sum) (← value)) more = some value := by
  induction operands generalizing sum more with
  | nil => exact hsum value folded
  | cons operand operands ih =>
      refine ih (fun other hother => h other (List.mem_cons_of_mem operand hother)) ?_ folded
      intro joined hjoined
      simp only [Option.pure_def, Option.bind_eq_bind, Option.bind_eq_some_iff] at hjoined ⊢
      obtain ⟨left, hleft, right, hright, hop⟩ := hjoined
      exact ⟨left, hsum left hleft, right, h operand List.mem_cons_self right hright, hop⟩

theorem fold?_mono {α : Type} {op : Int64 → Int64 → Int64} {f g : α → Option Int64}
    {operands : List α}
    (h : ∀ operand ∈ operands, ∀ value, f operand = some value → g operand = some value)
    {value : Int64} (folded : fold? op (operands.map f) = some value) :
    fold? op (operands.map g) = some value := by
  cases operands with
  | nil => exact folded
  | cons first rest =>
      exact foldl_mono rest (fun other hother => h other (List.mem_cons_of_mem first hother))
        (h first List.mem_cons_self) folded

/-- A call that can be expanded is expanded alike wherever its macro has the same definition. -/
theorem expandCall?_mono (hmacros : Extends moreMacros macros) {text expansion : List Char}
    (h : expandCall? macros text = some expansion) :
    expandCall? moreMacros text = some expansion := by
  simp only [expandCall?, Option.bind_eq_bind, Option.bind_eq_some_iff] at h ⊢
  obtain ⟨call, hcall, definition, hdefinition, hexpansion⟩ := h
  exact ⟨call, hcall, definition, hmacros _ _ hdefinition, hexpansion⟩

/-- No form loses its value when its parts keep theirs and all that is known stays known. -/
theorem Form.value?_mono
    (hconstants : Extends moreConstants constants) (hmacros : Extends moreMacros macros)
    {f g : List Char → Option Int64}
    (h : ∀ text value, f text = some value → g text = some value) {form : Form} {value : Int64}
    (found : form.value? constants macros f = some value) :
    form.value? moreConstants moreMacros g = some value := by
  cases form with
  | blank => exact found
  | group inner => exact h inner value found
  | literal written => exact found
  | bitwise op operands => exact fold?_mono (fun text _ => h text) found
  | shift split =>
      simp only [Form.value?, Option.bind_eq_bind, Option.bind_eq_some_iff] at found ⊢
      obtain ⟨left, hleft, amount, hamount, hshift⟩ := found
      exact ⟨left, h _ _ hleft, amount, h _ _ hamount, hshift⟩
  | name text => exact hconstants _ _ found
  | call text =>
      simp only [Form.value?, Option.bind_eq_some_iff] at found ⊢
      obtain ⟨expansion, hexpansion, hvalue⟩ := found
      exact ⟨expansion, expandCall?_mono hmacros hexpansion, h _ _ hvalue⟩

theorem value?_mono
    (hconstants : Extends moreConstants constants) (hmacros : Extends moreMacros macros)
    (steps : Nat) (text : List Char) (value : Int64)
    (found : value? constants macros steps text = some value) :
    value? moreConstants moreMacros steps text = some value := by
  induction steps generalizing text value with
  | zero => exact absurd found (by simp [value?_zero])
  | succ steps ih =>
      rw [value?_succ] at found ⊢
      exact Form.value?_mono hconstants hmacros ih found

theorem evaluate_eq_ok_iff {expression : String} {value : Int64} :
    evaluate constants macros expression = .ok value ↔
      value? constants macros (maxDepth + 1) expression.toList = some value := by
  unfold evaluate
  cases value? constants macros (maxDepth + 1) expression.toList <;> simp

/-- An expression with a value keeps it when further constants and macros are known. -/
theorem evaluate_mono
    (hconstants : Extends moreConstants constants) (hmacros : Extends moreMacros macros)
    (expression : String) (value : Int64)
    (found : evaluate constants macros expression = .ok value) :
    evaluate moreConstants moreMacros expression = .ok value := by
  rw [evaluate_eq_ok_iff] at found ⊢
  exact value?_mono hconstants hmacros _ _ _ found

/-- A macro that calls one which pastes a suffix, and a constant; then a constant and a macro more. -/
theorem evaluate_mono_paste :
    let constants : ConstantSet := (∅ : ConstantSet).insert "A" 1
    let macros : MacroSet :=
      ((∅ : MacroSet).insert "F" ⟨["c"], "c##UL"⟩).insert "G" ⟨["x", "y"], "(F(x) | y)"⟩
    evaluate constants macros "G(2, A) << A" = .ok 6 ∧
      evaluate (constants.insert "B" 9) (macros.insert "H" ⟨[], "B"⟩) "G(2, A) << A" = .ok 6 := by
  intro constants macros
  have found : evaluate constants macros "G(2, A) << A" = .ok 6 := by decide +kernel
  have noConstant : constants["B"]? = none := by decide +kernel
  have noMacro : macros["H"]? = none := by decide +kernel
  exact ⟨found, evaluate_mono (extends_insert _ noConstant) (extends_insert _ noMacro) _ _ found⟩

end LibSurvey.Expression
