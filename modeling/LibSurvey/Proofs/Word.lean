import LibSurvey.Word
import LibSurvey.Proofs.Text.Spaced

/-!
Names as words of a text: they hold no blank, so that trimming never changes one.
-/

namespace LibSurvey

theorem isNameChar_of_isNameStart {c : Char} (h : isNameStart c = true) : isNameChar c = true := by
  simp only [isNameStart, isNameChar, Char.isAlphanum, Bool.or_eq_true] at h ⊢
  tauto

theorem isNameChar_of_isName {text : List Char} (h : isName text = true) {c : Char}
    (hc : c ∈ text) : isNameChar c = true := by
  cases text with
  | nil => exact absurd hc (by simp)
  | cons d text =>
      simp only [isName, Bool.and_eq_true, List.all_eq_true] at h
      rcases List.mem_cons.mp hc with rfl | hc
      · exact isNameChar_of_isNameStart h.1
      · exact h.2 c hc

theorem toNat_of_isAlpha {c : Char} (h : c.isAlpha = true) :
    (65 ≤ c.toNat ∧ c.toNat ≤ 90) ∨ (97 ≤ c.toNat ∧ c.toNat ≤ 122) := by
  rcases Bool.or_eq_true_iff.mp (show (c.isUpper || c.isLower) = true from h) with hupper | hlower
  · have h : 'A'.val ≤ c.val ∧ c.val ≤ 'Z'.val := of_decide_eq_true hupper
    exact .inl ⟨UInt32.le_iff_toNat_le.mp h.1, UInt32.le_iff_toNat_le.mp h.2⟩
  · have h := Bool.and_eq_true_iff.mp hlower
    exact .inr ⟨UInt32.le_iff_toNat_le.mp (of_decide_eq_true h.1),
      UInt32.le_iff_toNat_le.mp (of_decide_eq_true h.2)⟩

theorem toNat_of_isDigit {c : Char} (h : c.isDigit = true) : 48 ≤ c.toNat ∧ c.toNat ≤ 57 := by
  simp only [Char.isDigit, Bool.and_eq_true, decide_eq_true_eq, ge_iff_le,
    UInt32.le_iff_toNat_le] at h
  exact h

theorem not_isDigit_of_isNameStart {c : Char} (h : isNameStart c = true) : c.isDigit = false := by
  refine Bool.eq_false_iff.mpr fun hdigit => ?_
  have hrange := toNat_of_isDigit hdigit
  simp only [isNameStart, Bool.or_eq_true, decide_eq_true_eq] at h
  rcases h with h | rfl
  · have := toNat_of_isAlpha h
    omega
  · exact absurd hdigit (by decide)

theorem toNat_of_isNameChar {c : Char} (h : isNameChar c = true) :
    ((65 ≤ c.toNat ∧ c.toNat ≤ 90) ∨ (97 ≤ c.toNat ∧ c.toNat ≤ 122)) ∨
      (48 ≤ c.toNat ∧ c.toNat ≤ 57) ∨ c.toNat = 95 := by
  simp only [isNameChar, Char.isAlphanum, Bool.or_eq_true, decide_eq_true_eq] at h
  rcases h with (h | h) | rfl
  · exact .inl (toNat_of_isAlpha h)
  · exact .inr (.inl (toNat_of_isDigit h))
  · exact .inr (.inr rfl)

theorem isBlank_of_isNameChar {c : Char} (h : isNameChar c = true) : Text.isBlank c = false := by
  have hrange := toNat_of_isNameChar h
  simp only [Text.isBlank, Bool.or_eq_false_iff, Bool.and_eq_false_iff, decide_eq_false_iff_not]
  omega

theorem solid_of_isName {text : List Char} (h : isName text = true) :
    text.any Text.isBlank = false := by
  refine List.any_eq_false.mpr fun c hc => ?_
  rw [isBlank_of_isNameChar (isNameChar_of_isName h hc)]
  exact Bool.false_ne_true

theorem tight_of_isName {text : List Char} (h : isName text = true) : Text.Tight text := by
  refine Text.tight_of_solid ?_ (solid_of_isName h)
  rintro rfl
  exact absurd h (by decide)

end LibSurvey
