import LibSurvey.Dwarf.Entry

/-!
What entries say by their attributes, with the codes of the standard: a name, a reference to a type, and
whether a function is only declared. Each is told by one attribute, which may not be there or not be
readable; the readers of entries say the same. Which values the bytes of an attribute are remains a
separate obligation.
-/

namespace LibSurvey.Dwarf
open DebugInfo (Step TypeReference)

/-- The reference to a type that a value is, by its form. -/
inductive Value.RefersBy : Value → TypeReference → Prop where
  | inUnit (offset : Nat) : RefersBy (.unitRef offset) (.inUnit offset)
  | inSection (place : Nat) : RefersBy (.sectionRef place) (.inSection place)
  | bySignature (signature : Nat) : RefersBy (.signatureRef signature) (.bySignature signature)
  | other {value : Value} : (∀ offset, value ≠ .unitRef offset) →
      (∀ place, value ≠ .sectionRef place) → (∀ signature, value ≠ .signatureRef signature) →
      RefersBy value .other

theorem Value.refersBy_typeReference (value : Value) : value.RefersBy value.typeReference := by
  cases value with
  | unitRef offset => exact .inUnit offset
  | sectionRef place => exact .inSection place
  | signatureRef signature => exact .bySignature signature
  | _ => apply RefersBy.other <;> intro number h <;> cases h

theorem Value.RefersBy.eq {value : Value} {reference : TypeReference}
    (h : value.RefersBy reference) : reference = value.typeReference := by
  cases h with
  | inUnit offset => rfl
  | inSection place => rfl
  | bySignature signature => rfl
  | other unit place signature =>
      cases value with
      | unitRef offset => exact absurd rfl (unit offset)
      | sectionRef offset => exact absurd rfl (place offset)
      | signatureRef number => exact absurd rfl (signature number)
      | _ => rfl

/-- Sections without any bytes. -/
def Sections.bare : Sections :=
  ⟨.little, .empty, .empty, .empty, .empty, .empty, .empty, .empty, .empty⟩

namespace CompiledUnit

variable (unit : CompiledUnit) (sections : Sections) (entry : Entry)

/-- The name of an entry is the text of its attribute for names, `0x03`. -/
inductive Named : DebugInfo.Reading (Option String) → Prop where
  | absent : unit.attribute? entry 0x03 = .ok none → Named (.ok none)
  | present {value : Value} {name : String} : unit.attribute? entry 0x03 = .ok (some value) →
      unit.text sections value = .ok name → Named (.ok (some name))
  | unread {fault : Fault} : unit.attribute? entry 0x03 = .error fault →
      Named (.error ⟨.name, fault⟩)
  | garbled {value : Value} {fault : Fault} : unit.attribute? entry 0x03 = .ok (some value) →
      unit.text sections value = .error fault → Named (.error ⟨.string, fault⟩)

/-- The type that an entry refers to is the value of its attribute for types, `0x49`. -/
inductive Refers (step : Step) : DebugInfo.Reading (Option TypeReference) → Prop where
  | absent : unit.attribute? entry 0x49 = .ok none → Refers step (.ok none)
  | present {value : Value} {reference : TypeReference} :
      unit.attribute? entry 0x49 = .ok (some value) → value.RefersBy reference →
      Refers step (.ok (some reference))
  | unread {fault : Fault} : unit.attribute? entry 0x49 = .error fault →
      Refers step (.error ⟨step, fault⟩)

/-- An entry is a declaration if its attribute for that, `0x3c`, is a flag that is set. -/
inductive Declares : DebugInfo.Reading Bool → Prop where
  | declaration : unit.attribute? entry 0x3c = .ok (some (.flag true)) → Declares (.ok true)
  | definition {found : Option Value} : unit.attribute? entry 0x3c = .ok found →
      found ≠ some (.flag true) → Declares (.ok false)
  | unread {fault : Fault} : unit.attribute? entry 0x3c = .error fault →
      Declares (.error ⟨.isDeclaration, fault⟩)

variable {unit sections entry}

theorem entryName_of_value {value : Value} (h : unit.attribute? entry 0x03 = .ok (some value)) :
    unit.entryName sections entry = some <$> at_ .string (unit.text sections value) := by
  have code : nameName = 0x03 := rfl
  rw [entryName, code, h]
  rfl

theorem Named.eq {name : DebugInfo.Reading (Option String)} (h : unit.Named sections entry name) :
    unit.entryName sections entry = name := by
  have code : nameName = 0x03 := rfl
  cases h with
  | absent h => rw [entryName, code, h]; rfl
  | unread h => rw [entryName, code, h]; rfl
  | present h htext => rw [entryName_of_value h, htext]; rfl
  | garbled h htext => rw [entryName_of_value h, htext]; rfl

theorem named_entryName : unit.Named sections entry (unit.entryName sections entry) := by
  have total : ∃ name, unit.Named sections entry name := by
    cases hvalue : unit.attribute? entry 0x03 with
    | error fault => exact ⟨_, .unread hvalue⟩
    | ok found =>
        cases found with
        | none => exact ⟨_, .absent hvalue⟩
        | some value =>
            cases htext : unit.text sections value with
            | error fault => exact ⟨_, .garbled hvalue htext⟩
            | ok name => exact ⟨_, .present hvalue htext⟩
  obtain ⟨name, h⟩ := total
  rw [h.eq]
  exact h

theorem Refers.eq {step : Step} {type : DebugInfo.Reading (Option TypeReference)}
    (h : unit.Refers entry step type) : unit.entryType step entry = type := by
  have code : typeName = 0x49 := rfl
  rw [entryType, code]
  cases h with
  | absent h => rw [h]; rfl
  | unread h => rw [h]; rfl
  | present h refers => rw [h, refers.eq]; rfl

theorem refers_entryType (step : Step) : unit.Refers entry step (unit.entryType step entry) := by
  have total : ∃ type, unit.Refers entry step type := by
    cases hvalue : unit.attribute? entry 0x49 with
    | error fault => exact ⟨_, .unread hvalue⟩
    | ok found =>
        cases found with
        | none => exact ⟨_, .absent hvalue⟩
        | some value => exact ⟨_, .present hvalue value.refersBy_typeReference⟩
  obtain ⟨type, h⟩ := total
  rw [h.eq]
  exact h

theorem Declares.eq {declaration : DebugInfo.Reading Bool} (h : unit.Declares entry declaration) :
    unit.isDeclaration entry = declaration := by
  have code : declarationName = 0x3c := rfl
  rw [isDeclaration, code]
  cases h with
  | declaration h => rw [h]; rfl
  | unread h => rw [h]; rfl
  | definition h unset =>
      rw [h]
      exact congrArg Except.ok (beq_false_of_ne unset)

theorem declares_isDeclaration : unit.Declares entry (unit.isDeclaration entry) := by
  have total : ∃ declaration, unit.Declares entry declaration := by
    cases hvalue : unit.attribute? entry 0x3c with
    | error fault => exact ⟨_, .unread hvalue⟩
    | ok found =>
        by_cases hset : found = some (.flag true)
        · exact ⟨_, .declaration (hset ▸ hvalue)⟩
        · exact ⟨_, .definition hvalue hset⟩
  obtain ⟨declaration, h⟩ := total
  rw [h.eq]
  exact h

theorem named_iff {name : DebugInfo.Reading (Option String)} :
    unit.Named sections entry name ↔ unit.entryName sections entry = name :=
  ⟨Named.eq, fun h => h ▸ named_entryName⟩

theorem refers_iff {step : Step} {type : DebugInfo.Reading (Option TypeReference)} :
    unit.Refers entry step type ↔ unit.entryType step entry = type :=
  ⟨Refers.eq, fun h => h ▸ refers_entryType step⟩

theorem declares_iff {declaration : DebugInfo.Reading Bool} :
    unit.Declares entry declaration ↔ unit.isDeclaration entry = declaration :=
  ⟨Declares.eq, fun h => h ▸ declares_isDeclaration⟩

end CompiledUnit
end LibSurvey.Dwarf
