import LibSurvey.Proofs.Constant.Meaning

/-!
References to what is not known. A name without a value leaves every tree that holds it without one,
whatever stands around it, and a call of an unknown macro has no value, whatever its arguments are.
-/

namespace LibSurvey.Expression
open Text (Blanks Spaced)

variable {constants : ConstantSet} {macros : MacroSet}

namespace Tree

/-- The names that a tree refers to. -/
def names : Tree → List (List Char)
  | .literal _ => []
  | .name text => [text]
  | .group inner => inner.names
  | .bitwise _ operands => (operands.map fun t => t.names).flatten
  | .shift _ left right => left.names ++ right.names

theorem not_resolves_of_unknown {tree : Tree} (formed : tree.Formed) {name : List Char}
    (mem : name ∈ tree.names) (unknown : constants[String.ofList name]? = none) :
    ¬tree.Resolves constants := by
  induction formed with
  | literal _ _ => exact absurd mem (by simp [names])
  | name _ =>
      obtain rfl : name = _ := by simpa [names] using mem
      simp [Resolves, unknown]
  | group _ ih =>
      rw [Resolves]
      exact ih (by simpa [names] using mem)
  | bitwise _ _ _ ih =>
      simp only [names, List.mem_flatten, List.mem_map] at mem
      obtain ⟨_, ⟨t, ht, rfl⟩, hname⟩ := mem
      rw [Resolves]
      exact fun h => ih t ht hname (h t ht)
  | shift _ _ _ _ ihl ihr =>
      rw [names] at mem
      rw [Resolves]
      rintro ⟨hleft, hright, _⟩
      rcases List.mem_append.mp mem with hname | hname
      · exact ihl hname hleft
      · exact ihr hname hright

end Tree

theorem evaluate_unknown_name {tree : Tree} (formed : tree.Formed) {expression : String}
    (spelled : Spaced tree.tokens expression.toList) {name : List Char} (mem : name ∈ tree.names)
    (unknown : constants[String.ofList name]? = none) :
    (evaluate constants macros expression).toOption = none := by
  have hdenotes : Denotes (value? constants macros (maxDepth + 1) expression.toList)
      (tree.height < maxDepth + 1 ∧ tree.Resolves constants) (tree.bits constants) :=
    Tree.denotes_spaced formed spelled (maxDepth + 1)
  unfold evaluate
  cases hv : value? constants macros (maxDepth + 1) expression.toList with
  | none => rfl
  | some value =>
      exact absurd ((hdenotes value).mp hv).1.2 (Tree.not_resolves_of_unknown formed mem unknown)

/-- A text that is one call: a name, and arguments in parentheses that match. -/
structure IsCall (name arguments text : List Char) : Prop where
  isName : LibSurvey.isName name = true
  clear : Clear (fun _ => True) arguments
  spelled : ∃ before gap after, Blanks before ∧ Blanks gap ∧ Blanks after ∧
    text = before ++ (name ++ (gap ++ ('(' :: (arguments ++ [')']) ++ after)))

theorem IsCall.trimmed {name arguments text : List Char} (call : IsCall name arguments text) :
    ∃ gap, Blanks gap ∧ Text.trim text = name ++ gap ++ '(' :: (arguments ++ [')']) := by
  obtain ⟨before, gap, after, hbefore, hgap, hafter, rfl⟩ := call.spelled
  have hclose : Text.Tight [')'] := Text.tight_of_solid (by decide) (by decide)
  have hregroup : name ++ (gap ++ ('(' :: (arguments ++ [')']) ++ after)) =
      (name ++ gap ++ '(' :: arguments) ++ [')'] ++ after := by simp
  refine ⟨gap, hgap, ?_⟩
  rw [Text.trim, Text.trimLeft_blanks_append hbefore,
    Text.trimLeft_tight_append (tight_of_isName call.isName), hregroup,
    Text.trimRight_append_blanks hafter, Text.trimRight_append_tight hclose]
  simp

theorem inert_name_gap {name gap : List Char} (hname : isName name = true) (hgap : Blanks gap) :
    ∀ c ∈ name ++ gap, Inert c := by
  intro c hc
  rcases List.mem_append.mp hc with h | h
  · exact inert_of_isName hname h
  · exact inert_of_isBlank (hgap c h)

theorem splitCall?_call {name gap arguments : List Char} (hname : isName name = true)
    (hgap : Blanks gap) (clear : Clear (fun _ => True) arguments) :
    splitCall? (name ++ gap ++ '(' :: (arguments ++ [')'])) = some (name, arguments) := by
  have hopen : '(' ∉ name ++ gap := fun hc => absurd (inert_name_gap hname hgap '(' hc) (by decide)
  have htight := tight_of_isName hname
  have htrim : Text.trim (name ++ gap) = name := by
    rw [Text.trim, Text.trimLeft_tight_append htight, Text.trimRight_append_blanks hgap, htight.right]
  rw [splitCall?_open hopen, htrim, if_pos hname, enclosed?_group clear]
  rfl

theorem value?_unknown_macro {name arguments text : List Char} (call : IsCall name arguments text)
    (unknown : macros[String.ofList name]? = none) (steps : Nat) :
    value? constants macros steps text = none := by
  cases steps with
  | zero => rfl
  | succ steps =>
      obtain ⟨gap, hgap, htrim⟩ := call.trimmed
      have hhead := inert_name_gap call.isName hgap
      have hclear : Clear (Free 3) (name ++ gap ++ '(' :: (arguments ++ [')'])) :=
        (clear_of_inert 3 hhead).append (.group call.clear .nil)
      have hne : name ++ gap ≠ [] := by
        simp [(tight_of_isName call.isName).nonempty]
      have hdivided : enclosed? (Text.trim text) = none := by
        rw [htrim]
        exact enclosed?_append (clear_of_inert 3 hhead) hne (by simp)
      have hliteral : Literal.ofChars? (Text.trim text) = none :=
        ofChars?_eq_none (c := '(') (by simp [htrim]) (by decide)
      have hor : splitTop '|' (Text.trim text) = [Text.trim text] := by
        rw [htrim]
        exact splitTop_free hclear (show Bitwise.rank .or < 3 by decide)
      have hand : splitTop '&' (Text.trim text) = [Text.trim text] := by
        rw [htrim]
        exact splitTop_free hclear (show Bitwise.rank .and < 3 by decide)
      have hshift : lastShift? (Text.trim text) = none := by
        rw [htrim]
        exact lastShiftFrom_clear_end hclear (fun c hc => hc.2 (by decide)) [] none
      have hword : isName (Text.trim text) = false := by
        refine Bool.eq_false_iff.mpr fun h => ?_
        have : isNameChar '(' = true := isNameChar_of_isName h (by simp [htrim])
        exact absurd this (by decide)
      have hexpand : expandCall? macros (Text.trim text) = none := by
        rw [expandCall?, htrim, splitCall?_call call.isName hgap call.clear]
        simp [unknown]
      have hempty : (Text.trim text).isEmpty = false := by simp [htrim]
      have hform : form text = .call (Text.trim text) := by
        rw [form, hempty, hdivided, hliteral]
        simp only [Bool.false_eq_true, ite_false, hor, hand, List.length_singleton, Nat.lt_irrefl,
          hshift, hword]
      rw [value?_succ, hform, Form.value?, hexpand]
      rfl

theorem evaluate_unknown_macro {name arguments : List Char} {expression : String}
    (call : IsCall name arguments expression.toList)
    (unknown : macros[String.ofList name]? = none) :
    (evaluate constants macros expression).toOption = none := by
  rw [evaluate, value?_unknown_macro call unknown]
  rfl

end LibSurvey.Expression
