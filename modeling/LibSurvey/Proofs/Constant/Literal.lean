import LibSurvey.Constant.Literal
import LibSurvey.Proofs.Word

/-!
Which characters a literal is made of. A text that holds any other character, such as a parenthesis or
an operator, is no literal. Which texts of these characters are literals, and their values, remain a
separate obligation.
-/

namespace LibSurvey.Text

theorem mem_dropWhile_or {p : Char → Bool} {cs : List Char} {c : Char} (h : c ∈ cs) :
    p c = true ∨ c ∈ cs.dropWhile p := by
  induction cs with
  | nil => exact absurd h (by simp)
  | cons d cs ih =>
      cases hd : p d with
      | false => exact .inr (by simpa [hd] using h)
      | true =>
          rcases List.mem_cons.mp h with rfl | h
          · exact .inl hd
          · simpa [hd] using ih h

theorem mem_dropLastWhile_or {p : Char → Bool} {cs : List Char} {c : Char} (h : c ∈ cs) :
    p c = true ∨ c ∈ dropLastWhile p cs := by
  simpa [dropLastWhile] using mem_dropWhile_or (p := p) (List.mem_reverse.mpr h)

theorem mem_trim_or {cs : List Char} {c : Char} (h : c ∈ cs) :
    isBlank c = true ∨ c ∈ trim cs := by
  rcases mem_dropWhile_or (p := isBlank) h with hb | h
  · exact .inl hb
  · exact mem_dropLastWhile_or h

end LibSurvey.Text

namespace LibSurvey.Literal

/-- The characters of digits, prefixes and suffixes. -/
def IsBody (c : Char) : Prop :=
  digitValue c < 36

instance : DecidablePred IsBody :=
  fun c => inferInstanceAs (Decidable (digitValue c < 36))

theorem isNameChar_of_isBody {c : Char} (h : IsBody c) : isNameChar c = true := by
  have letter {a z : Char} (h : (a ≤ c && c ≤ z) = true) : a.val ≤ c.val ∧ c.val ≤ z.val := by
    rwa [Bool.and_eq_true, decide_eq_true_eq, decide_eq_true_eq] at h
  have alphabetic (h : c.isUpper = true ∨ c.isLower = true) : c.isAlpha = true :=
    Bool.or_eq_true_iff.mpr h
  have hlt : digitValue c < 36 := h
  unfold digitValue at hlt
  simp only [isNameChar, Char.isAlphanum, Bool.or_eq_true]
  split at hlt
  · exact .inl (.inr ‹_›)
  split at hlt
  · have hlower : 'a'.val ≤ c.val ∧ c.val ≤ 'z'.val := letter ‹_›
    exact .inl (.inl (alphabetic (.inr (Bool.and_eq_true_iff.mpr
      ⟨decide_eq_true hlower.1, decide_eq_true hlower.2⟩))))
  split at hlt
  · have hupper : 'A'.val ≤ c.val ∧ c.val ≤ 'Z'.val := letter ‹_›
    exact .inl (.inl (alphabetic (.inl (decide_eq_true hupper))))
  · omega

theorem isBody_of_isDigitIn {radix : Nat} {c : Char} (hr : radix ≤ 36)
    (h : isDigitIn radix c = true) : IsBody c := by
  have : digitValue c < radix := by simpa [isDigitIn] using h
  exact Nat.lt_of_lt_of_le this hr

theorem isBody_of_magnitude? {radix : Nat} {digits : List Char} (hr : radix ≤ 36)
    (h : (magnitude? radix digits).isSome) {c : Char} (hc : c ∈ digits) : IsBody c := by
  unfold magnitude? at h
  split at h
  · exact absurd h (by simp)
  · next hall =>
    simp only [Bool.or_eq_true, Bool.not_eq_true', not_or, Bool.not_eq_false,
      List.all_eq_true] at hall
    exact isBody_of_isDigitIn hr (hall.2 c hc)

theorem isBody_of_pattern? {radix : Nat} {negative : Bool} {digits : List Char} (hr : radix ≤ 36)
    (h : (pattern? radix negative digits).isSome) {c : Char} (hc : c ∈ digits) : IsBody c :=
  isBody_of_magnitude? hr (by simpa [pattern?] using h) hc

theorem isBody_of_decimal? {negative : Bool} {digits : List Char}
    (h : (decimal? negative digits).isSome) {c : Char} (hc : c ∈ digits) : IsBody c := by
  refine isBody_of_magnitude? (show 10 ≤ 36 by decide) ?_ hc
  cases hm : magnitude? 10 digits with
  | none => simp [decimal?, hm] at h
  | some value => rfl

theorem isBody_of_unsuffixed? {negative : Bool} {digits : List Char}
    (h : (unsuffixed? negative digits).isSome) {c : Char} (hc : c ∈ digits) : IsBody c := by
  unfold unsuffixed? at h
  split at h
  case h_5 => exact isBody_of_decimal? h hc
  all_goals
    simp only [List.mem_cons] at hc
    rcases hc with rfl | rfl | hc
    · decide
    · decide
    · exact isBody_of_pattern? (by decide) h hc

theorem isBody_of_isSuffixChar {c : Char} (h : isSuffixChar c = true) : IsBody c := by
  simp only [isSuffixChar, Bool.or_eq_true, decide_eq_true_eq] at h
  rcases h with ((rfl | rfl) | rfl) | rfl <;> decide

theorem mem_splitSign {text : List Char} {c : Char} (h : c ∈ text) :
    c = '-' ∨ c = '+' ∨ Text.isBlank c = true ∨ c ∈ (splitSign text).2 := by
  unfold splitSign
  split
  · rcases List.mem_cons.mp h with rfl | h
    · exact .inl rfl
    · exact .inr (.inr (Text.mem_dropWhile_or h))
  · rcases List.mem_cons.mp h with rfl | h
    · exact .inr (.inl rfl)
    · exact .inr (.inr (Text.mem_dropWhile_or h))
  · exact .inr (.inr (.inr h))

theorem isBody_of_ofChars? {text : List Char} (h : (ofChars? text).isSome) {c : Char}
    (hc : c ∈ (splitSign (Text.trim text)).2) : IsBody c := by
  simp only [ofChars?] at h
  split at h
  · rcases Text.mem_dropLastWhile_or (p := isSuffixChar) hc with hx | hx
    · exact isBody_of_isSuffixChar hx
    · exact isBody_of_unsuffixed? h hx
  · exact absurd h (by simp)

/-- A literal is made of signs, blanks, digits and letters. -/
theorem chars_of_ofChars? {text : List Char} (h : (ofChars? text).isSome) {c : Char}
    (hc : c ∈ text) : c = '-' ∨ c = '+' ∨ Text.isBlank c = true ∨ IsBody c := by
  rcases Text.mem_trim_or hc with hb | hc
  · exact .inr (.inr (.inl hb))
  · rcases mem_splitSign hc with hs | hs | hs | hc
    · exact .inl hs
    · exact .inr (.inl hs)
    · exact .inr (.inr (.inl hs))
    · exact .inr (.inr (.inr (isBody_of_ofChars? h hc)))

end LibSurvey.Literal
