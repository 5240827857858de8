import LibSurvey.Proofs.Text.Lines
import LibSurvey.Proofs.Token.Lexeme

/-!
Written texts taken apart: where a lexeme stands, what blanks around the text do, and which characters
occur.
-/

namespace LibSurvey.Lexeme
open Text (PlainLine Tight)

variable {lexeme : Lexeme} {lexemes : List Lexeme} {text : List Char}

theorem ends_of_head? {a b : List Char} (h : lexeme.Ends b) (hhead : ∀ c ∈ a.head?, c ∈ b.head?) :
    lexeme.Ends a := by
  unfold Ends at h ⊢
  split at h
  · exact fun c hc => h c (hhead c hc)
  · exact fun c hc => h c (hhead c hc)
  · trivial

theorem ends_of_append {a b : List Char} (h : lexeme.Ends (a ++ b)) : lexeme.Ends a := by
  refine ends_of_head? h fun c hc => ?_
  cases a with
  | nil => exact absurd hc (by simp)
  | cons d a => exact hc

/-- A text divides at any of its lexemes. -/
theorem written_cons_split {a b : List Lexeme} (h : Written (a ++ lexeme :: b) text) :
    ∃ x y, text = x ++ (lexeme.text.toList ++ y) ∧ Written a x ∧ lexeme.Formed ∧ lexeme.Ends y ∧
      Written b y := by
  induction a generalizing text with
  | nil =>
      cases h with
      | cons hgap formed ends hrest => exact ⟨_, _, rfl, .nil hgap, formed, ends, hrest⟩
  | cons first a ih =>
      cases h with
      | @cons gap _ _ rest hgap formed ends hrest =>
          obtain ⟨x, y, rfl, hx, hlexeme, hends, hy⟩ := ih hrest
          refine ⟨gap ++ (first.text.toList ++ x), y, by simp only [List.append_assoc], ?_, hlexeme,
            hends, hy⟩
          exact .cons hgap formed (ends_of_append ends) hx

/-- A text divides between its lexemes; the second part has no blank in front. -/
theorem written_append_split {a b : List Lexeme} (h : Written (a ++ b) text) :
    ∃ x y, text = x ++ y ∧ Written a x ∧ Written b y ∧
      ∀ first more, b = first :: more → ∃ rest, y = first.text.toList ++ rest := by
  cases b with
  | nil => exact ⟨text, [], by simp, by simpa using h, written_nil, by simp⟩
  | cons lexeme b =>
      obtain ⟨x, y, htext, hx, formed, ends, hy⟩ := written_cons_split h
      refine ⟨x, _, htext, hx, written_one formed ends hy, ?_⟩
      rintro first more ⟨⟩
      exact ⟨y, rfl⟩

theorem isName_of_formed {word : String} (h : (Lexeme.word word).Formed) :
    isName word.toList = true := by
  generalize hlexeme : Lexeme.word word = lexeme at h
  cases h with
  | word hname => cases hlexeme; exact hname
  | number _ => cases hlexeme
  | mark _ => cases hlexeme

theorem isNumberChar_of_formed (h : lexeme.Formed)
    (kind : lexeme.kind = .word ∨ lexeme.kind = .number) {c : Char} (hc : c ∈ lexeme.text.toList) :
    Token.isNumberChar c = true := by
  cases h with
  | word hname => exact isNumberChar_of_isNameChar (isNameChar_of_isName hname hc)
  | number hnumber => exact Token.isNumberChar_of_isNumber hnumber hc
  | mark _ => rcases kind with kind | kind <;> cases kind

theorem chars_of_formed (h : lexeme.Formed) {c : Char} (hc : c ∈ lexeme.text.toList) :
    Token.isNumberChar c = true ∨ c ∈ ['(', ')', '[', ']', '*', ',', ';', '.'] := by
  cases h with
  | word hname => exact .inl (isNumberChar_of_formed (.word hname) (.inl rfl) hc)
  | number hnumber => exact .inl (isNumberChar_of_formed (.number hnumber) (.inr rfl) hc)
  | mark hmark =>
      refine .inr ?_
      simp only [marks, List.mem_cons, List.not_mem_nil, or_false] at hmark
      rcases hmark with rfl | rfl | rfl | rfl | rfl | rfl | rfl | rfl <;>
        simp_all [mark]

theorem isBlank_of_formed (h : lexeme.Formed) {c : Char} (hc : c ∈ lexeme.text.toList) :
    Text.isBlank c = false := by
  rcases chars_of_formed h hc with hc | hc
  · exact Token.isBlank_of_isNumberChar hc
  · simp only [List.mem_cons, List.not_mem_nil, or_false] at hc
    rcases hc with rfl | rfl | rfl | rfl | rfl | rfl | rfl | rfl <;> decide

theorem tight_of_formed (h : lexeme.Formed) : Tight lexeme.text.toList := by
  refine Text.tight_of_solid ?_ (List.any_eq_false.mpr fun c hc => ?_)
  · obtain ⟨c, more, htext, -⟩ := Token.front?_lexeme h (ends_of_stops stops_nil _)
      true 0
    simp [htext]
  · simp [isBlank_of_formed h hc]

theorem blanks_of_gap {gap : List Char} (h : Gap gap) : Text.Blanks gap :=
  fun c hc => (h c hc).1

/-- Blanks at the front go with the first lexeme. -/
theorem trimLeft_written (h : Written (lexeme :: lexemes) text) :
    ∃ rest, Text.trimLeft text = lexeme.text.toList ++ rest ∧ lexeme.Formed ∧ lexeme.Ends rest ∧
      Written lexemes rest := by
  cases h with
  | cons hgap formed ends hrest =>
      refine ⟨_, ?_, formed, ends, hrest⟩
      rw [Text.trimLeft_blanks_append (blanks_of_gap hgap),
        Text.trimLeft_tight_append (tight_of_formed formed)]

theorem written_ne_nil (h : Written lexemes text) (nonempty : lexemes ≠ []) : text ≠ [] := by
  obtain ⟨first, others, rfl⟩ := List.exists_cons_of_ne_nil nonempty
  rintro rfl
  obtain ⟨rest, htext, formed, -⟩ := trimLeft_written h
  exact (tight_of_formed formed).nonempty (List.append_eq_nil_iff.mp htext.symm).1

theorem written_trimRight (h : Written lexemes text) : Written lexemes (Text.trimRight text) := by
  induction h with
  | nil hgap =>
      have hempty := Text.trimRight_append_blanks (blanks_of_gap hgap) []
      rw [List.nil_append] at hempty
      rw [hempty]
      exact written_nil
  | @cons gap lexeme _ rest hgap formed ends _ ih =>
      rw [← List.append_assoc, Text.trimRight_append (tight_of_formed formed), List.append_assoc]
      refine .cons hgap formed (ends_of_head? ends fun c hc => ?_) ih
      obtain ⟨blanks, -, hparts⟩ := Text.trimRight_append_end rest
      rw [← hparts]
      cases hright : Text.trimRight rest with
      | nil => rw [hright] at hc; exact absurd hc (by simp)
      | cons d more => rw [hright] at hc; exact hc

/-- Trimming a text leaves its lexemes, the first of which then begins the text. -/
theorem trim_written (h : Written (lexeme :: lexemes) text) :
    ∃ rest, Text.trim text = lexeme.text.toList ++ rest ∧ lexeme.Formed ∧ lexeme.Ends rest ∧
      Written lexemes rest := by
  obtain ⟨rest, hleft, hrest⟩ := trimLeft_written (written_trimRight h)
  exact ⟨rest, by rw [← Text.trimLeft_trimRight, hleft], hrest⟩

theorem written_trim (h : Written lexemes text) : Written lexemes (Text.trim text) := by
  cases lexemes with
  | nil =>
      cases h with
      | nil hgap =>
          rw [Text.trim, Text.trimLeft_blanks (blanks_of_gap hgap)]
          exact written_nil
  | cons first lexemes =>
      obtain ⟨rest, htrim, formed, ends, hrest⟩ := trim_written h
      rw [htrim]
      exact written_one formed ends hrest

/-- Blanks around a single lexeme go. -/
theorem trim_written_one (h : Written [lexeme] text) : Text.trim text = lexeme.text.toList := by
  cases h with
  | cons hgap formed _ hrest =>
      cases hrest with
      | nil hafter =>
          exact Text.trim_spaced_singleton (tight_of_formed formed)
            (.cons (blanks_of_gap hgap) (.nil (blanks_of_gap hafter)))

theorem written_intercalate_split {α : Type} {lexemes : α → List Lexeme} {mark : Lexeme}
    {items : List α} (nonempty : items ≠ [])
    (h : Written ([mark].intercalate (items.map lexemes)) text) :
    ∃ texts, List.Forall₂ (fun item x => Written (lexemes item) x) items texts ∧
      text = mark.text.toList.intercalate texts := by
  refine Text.intercalate_split (fun h => ?_) nonempty h
  obtain ⟨x, y, htext, hx, -, -, hy⟩ := written_cons_split h
  exact ⟨x, y, htext, hx, hy⟩

/-- A character of a text is a blank or belongs to one of the lexemes. -/
theorem chars_of_written (h : Written lexemes text) {c : Char} (hc : c ∈ text) :
    (Text.isBlank c = true ∧ c ≠ '\n') ∨ ∃ lexeme ∈ lexemes, lexeme.Formed ∧ c ∈ lexeme.text.toList := by
  induction h with
  | nil hgap => exact .inl (hgap c hc)
  | @cons _ lexeme _ _ hgap formed _ _ ih =>
      rcases List.mem_append.mp hc with hc | hc
      · exact .inl (hgap c hc)
      · rcases List.mem_append.mp hc with hc | hc
        · exact .inr ⟨lexeme, List.mem_cons_self, formed, hc⟩
        · rcases ih hc with h | ⟨other, hother, h⟩
          · exact .inl h
          · exact .inr ⟨other, List.mem_cons_of_mem lexeme hother, h⟩

theorem not_mem_written (h : Written lexemes text) {c : Char} (hblank : Text.isBlank c = false)
    (free : ∀ lexeme ∈ lexemes, lexeme.Formed → c ∉ lexeme.text.toList) : c ∉ text := by
  intro hc
  rcases chars_of_written h hc with ⟨hc, -⟩ | ⟨lexeme, hmem, formed, hc⟩
  · rw [hblank] at hc
    exact Bool.noConfusion hc
  · exact free lexeme hmem formed hc

theorem plainLine_of_written (h : Written lexemes text) : PlainLine text := by
  have unformed {c : Char} (hnumber : Token.isNumberChar c = false)
      (hmark : c ∉ ['(', ')', '[', ']', '*', ',', ';', '.']) (lexeme : Lexeme)
      (formed : lexeme.Formed) : c ∉ lexeme.text.toList := by
    intro hc
    rcases chars_of_formed formed hc with hc | hc
    · rw [hnumber] at hc
      exact Bool.noConfusion hc
    · exact hmark hc
  have hslash : '/' ∉ text := not_mem_written h (by decide)
    fun lexeme _ => unformed (by decide) (by decide) lexeme
  refine ⟨fun hc => ?_, not_mem_written h (by decide)
    fun lexeme _ => unformed (by decide) (by decide) lexeme,
    fun hpart => hslash (hpart.subset (by simp)), fun hpart => hslash (hpart.subset (by simp))⟩
  rcases chars_of_written h hc with ⟨-, hfeed⟩ | ⟨lexeme, _, formed, hc⟩
  · exact hfeed rfl
  · exact unformed (by decide) (by decide) lexeme formed hc

end LibSurvey.Lexeme
