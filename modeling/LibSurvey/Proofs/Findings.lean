import LibSurvey.Header.Findings

/-!
What emissions do to the signatures that have been found. Diagnostics only record it: the signatures
after emissions are those of a run that notes nothing. Which values the expressions of the emissions
have remains a separate obligation.
-/

namespace LibSurvey

/-- A set of signatures after emissions took effect in order. -/
def SignatureSet.apply (signatures : SignatureSet) (emissions : List Emission) : SignatureSet :=
  (Findings.apply ⟨signatures, .empty false⟩ emissions).signatures

namespace Findings

theorem evaluate_fst (findings : Findings) (name expression : String) :
    (findings.evaluate name expression).1 = (findings.signatures.evaluate expression).toOption := by
  unfold evaluate
  cases findings.signatures.evaluate expression <;> rfl

theorem evaluate_fst_eq_some_iff (findings : Findings) (name expression : String) (v : Int64) :
    (findings.evaluate name expression).1 = some v ↔
      findings.signatures.evaluate expression = .ok v := by
  rw [evaluate_fst]
  cases findings.signatures.evaluate expression <;> simp [Except.toOption]

theorem evaluate_signatures (findings : Findings) (name expression : String) :
    (findings.evaluate name expression).2.signatures = findings.signatures := by
  unfold evaluate
  cases findings.signatures.evaluate expression <;> rfl

variable {f g : Findings}

theorem evaluate_congr (h : f.signatures = g.signatures) (name expression : String) :
    (f.evaluate name expression).1 = (g.evaluate name expression).1 ∧
      (f.evaluate name expression).2.signatures = (g.evaluate name expression).2.signatures := by
  rw [evaluate_fst, evaluate_fst, evaluate_signatures, evaluate_signatures, h]
  exact ⟨rfl, rfl⟩

theorem define_congr (h : f.signatures = g.signatures) (name : String) (value : Option Int64) :
    (f.define name value).signatures = (g.define name value).signatures := by
  cases value with
  | none => exact h
  | some value => simp [define, h]

theorem enumerate_congr (h : f.signatures = g.signatures) (next : Option Int64)
    (items : List Enumerator) :
    (f.enumerate next items).signatures = (g.enumerate next items).signatures := by
  induction items generalizing f g next with
  | nil => exact h
  | cons item items ih =>
      rw [enumerate, enumerate]
      cases item.value with
      | none => exact ih (define_congr h _ _) _
      | some expression =>
          obtain ⟨hvalue, hfindings⟩ := evaluate_congr h item.name expression
          simp only [hvalue]
          exact ih (define_congr hfindings _ _) _

theorem applyOne_congr (h : f.signatures = g.signatures) (emission : Emission) :
    (f.applyOne emission).signatures = (g.applyOne emission).signatures := by
  cases emission with
  | included name => exact h
  | constant name expression =>
      obtain ⟨hvalue, hfindings⟩ := evaluate_congr h name expression
      simp only [applyOne, hvalue]
      exact define_congr hfindings _ _
  | functionMacro name definition => simp [applyOne, h]
  | enumeration items => exact enumerate_congr h _ _
  | function name signature => simp [applyOne, h]

theorem apply_congr (h : f.signatures = g.signatures) (emissions : List Emission) :
    (f.apply emissions).signatures = (g.apply emissions).signatures := by
  induction emissions generalizing f g with
  | nil => exact h
  | cons emission emissions ih => exact ih (applyOne_congr h emission)

theorem apply_signatures (findings : Findings) (emissions : List Emission) :
    (findings.apply emissions).signatures = findings.signatures.apply emissions := by
  have h : findings.signatures = (Findings.mk findings.signatures (.empty false)).signatures := rfl
  exact apply_congr h emissions

end Findings
end LibSurvey
