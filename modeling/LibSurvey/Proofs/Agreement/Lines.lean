import LibSurvey.Proofs.Declarations.Lines
import LibSurvey.Proofs.Line.Lines
import LibSurvey.Proofs.Token.Written

/-!
Headers read both ways, by their tokens and line by line. Where each line says the same to both
readers and leaves nothing open, so does the whole header.
-/

namespace LibSurvey

variable {annotations : Annotations}

/-- A line with these lexemes says this, however it is read. -/
structure ReadAlike (annotations : Annotations) (line : List Char) (lexemes : List Lexeme)
    (found : Option Emission) : Prop where
  reads : Token.Reads line lexemes
  tokens : Declarations.Declares annotations lexemes found
  line : Line.Declares annotations line found

theorem readAlike_gap {gap : List Char} (h : Lexeme.Gap gap) : ReadAlike annotations gap [] none := by
  have hempty : Text.trim gap = [] := by
    rw [Text.trim, Text.trimLeft_blanks (Lexeme.blanks_of_gap h)]
    rfl
  exact ⟨Token.reads_written (.nil h), Declarations.declares_nil,
    ⟨Lexeme.plainLine_of_written (.nil h), fun _ => rfl, fun hne => absurd hempty hne⟩⟩

theorem readAlike_lines {α : Type} {items : List α} {line : α → List Char}
    {lexemes : α → List Lexeme} {found : α → Option Emission}
    (alike : ∀ item ∈ items, ReadAlike annotations (line item) (lexemes item) (found item))
    (room : (items.map fun item => (lexemes item).length).sum ≤ Token.limit) :
    Declarations.ofBytes? annotations (Text.Utf8.encode (['\n'].intercalate (items.map line))) =
        .ok (items.filterMap found) ∧
      Line.scan annotations (['\n'].intercalate (items.map line)) = items.filterMap found := by
  have each {β γ : Type} {relation : β → γ → Prop} {f : α → β} {g : α → γ}
      (h : ∀ item ∈ items, relation (f item) (g item)) :
      List.Forall₂ relation (items.map f) (items.map g) := by
    rw [List.forall₂_map_left_iff, List.forall₂_map_right_iff, List.forall₂_same]
    exact h
  have hfound : (items.map found).reduceOption = items.filterMap found := by
    rw [List.reduceOption, List.filterMap_map, Function.id_comp]
  have hroom : (items.map lexemes).flatten.length ≤ Token.limit := by
    rwa [List.length_flatten, List.map_map]
  rw [← hfound]
  exact ⟨Declarations.ofBytes?_lines (each fun item hitem => (alike item hitem).reads)
      (each fun item hitem => (alike item hitem).tokens) hroom,
    Line.scan_lines (each fun item hitem => (alike item hitem).line)⟩

end LibSurvey
