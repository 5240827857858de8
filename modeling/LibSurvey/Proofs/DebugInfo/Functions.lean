import LibSurvey.Proofs.DebugInfo.Definitions
import LibSurvey.Proofs.Dwarf.Attributes
import LibSurvey.Proofs.Dwarf.Forest

/-!
The functions of units, told by entries alone: by their tags and attributes, and by the entries
immediately within them. A unit that can be walked to its end without a fault gives every function that
it defines at any depth, with the parameters among its children; of several definitions of a name the
first counts. What a type resolves to after other types remains a separate obligation.
-/

namespace LibSurvey.DebugInfo.Encounter

/-- No fault is met if none is met at any of the things that are read. -/
theorem firstFault?_flatMap_eq_none {α : Type} {items : List α} {met : α → List Encounter} :
    firstFault? (items.flatMap met) = none ↔ ∀ item ∈ items, firstFault? (met item) = none := by
  induction items with
  | nil => simp [firstFault?]
  | cons item items ih =>
      rw [List.flatMap_cons, firstFault?_append, Option.or_eq_none_iff, ih, List.forall_mem_cons]

theorem firstFault?_end_eq_none {fault : Option ReadFault} :
    firstFault? (fault.toList.map .fault) = none ↔ fault = none := by
  cases fault <;> simp [firstFault?]

theorem firstFault?_typeEncounters_eq_none {type : Reading (Option TypeReference)} :
    firstFault? (typeEncounters type) = none ↔ ∃ reference, type = .ok reference := by
  cases type with
  | error fault => simp [typeEncounters, firstFault?]
  | ok reference => cases reference <;> simp [typeEncounters, firstFault?]

end LibSurvey.DebugInfo.Encounter

namespace LibSurvey.Dwarf
open DebugInfo (Asked Child Encounter ReadFault Subprogram TypeGraph TypeReference Typed UnitEntries
  askedFrom askedIn)

namespace CompiledUnit

section Relations

variable (unit : CompiledUnit) (sections : Sections)

/-- An entry for a function, `0x2e`, that has this name and is no declaration. -/
structure Defines (entry : Entry) (name : String) : Prop where
  function : entry.abbreviation.tag = 0x2e
  defined : unit.Declares entry (.ok false)
  named : unit.Named sections entry (.ok (some name))

/-- An entry for a function at which no fault is met. Nothing more is read of a declaration and of an
entry without a name. Of the children only parameters, `0x05`, are read. -/
inductive Readable (entry : Entry) : Prop where
  | declaration : unit.Declares entry (.ok true) → Readable entry
  | nameless : unit.Declares entry (.ok false) → unit.Named sections entry (.ok none) →
      Readable entry
  | definition {name : String} {type : Option TypeReference} : unit.Declares entry (.ok false) →
      unit.Named sections entry (.ok (some name)) → unit.Refers entry .returnType (.ok type) →
      (unit.children entry).2 = none →
      (∀ child ∈ (unit.children entry).1, child.abbreviation.tag = 0x05 →
        ∃ name type, unit.Named sections child (.ok name) ∧
          unit.Refers child .parameterType (.ok type)) → Readable entry

/-- A unit that can be walked to its end without a fault. -/
structure Whole : Prop where
  entries : unit.walk.2 = none
  functions : ∀ entry ∈ unit.walk.1, entry.abbreviation.tag = 0x2e → unit.Readable sections entry

/-- The parameters among children in order: named ones, `0x05`, and the rest of a variable list,
`0x18`. -/
inductive Parameters (graph : TypeGraph) (index : Nat) : Asked → List Entry → List Param → Prop where
  | nil (asked : Asked) : Parameters graph index asked [] []
  | parameter {asked : Asked} {entry : Entry} {rest : List Entry} {name : Option String}
      {type : Option TypeReference} {category : TypeCategory} {params : List Param} :
      entry.abbreviation.tag = 0x05 → unit.Named sections entry (.ok name) →
      unit.Refers entry .parameterType (.ok type) → Typed graph index asked .unknown type category →
      Parameters graph index (asked ++ type.toList.map (index, ·)) rest params →
      Parameters graph index asked (entry :: rest) (⟨category.name, name⟩ :: params)
  | variadic {asked : Asked} {entry : Entry} {rest : List Entry} {params : List Param} :
      entry.abbreviation.tag = 0x18 → Parameters graph index asked rest params →
      Parameters graph index asked (entry :: rest) (⟨"...", none⟩ :: params)
  | other {asked : Asked} {entry : Entry} {rest : List Entry} {params : List Param} :
      entry.abbreviation.tag ≠ 0x05 → entry.abbreviation.tag ≠ 0x18 →
      Parameters graph index asked rest params →
      Parameters graph index asked (entry :: rest) params

/-- The signature that an entry for a function gives, with these references looked up before it. -/
structure Signs (graph : TypeGraph) (index : Nat) (asked : Asked) (entry : Entry)
    (signature : Signature) : Prop where
  intro ::
  signed : ∃ type category, unit.Refers entry .returnType (.ok type) ∧
    Typed graph index asked .void type category ∧ signature.returnType = category.name ∧
    unit.Parameters sections graph index (asked ++ type.toList.map (index, ·))
      (unit.children entry).1 signature.params

end Relations

variable {unit : CompiledUnit} {sections : Sections} {entry : Entry}

theorem subprogram_defines_iff {name : String} :
    (unit.subprogram sections entry).Defines name ↔
      unit.Declares entry (.ok false) ∧ unit.Named sections entry (.ok (some name)) := by
  rw [declares_iff, named_iff]
  constructor
  · intro h
    exact ⟨h.defined, h.named⟩
  · intro h
    exact ⟨h.1, h.2⟩

theorem child_faultless_iff :
    Encounter.firstFault? (unit.child sections entry).encounters = none ↔
      (entry.abbreviation.tag = 0x05 → ∃ name type, unit.Named sections entry (.ok name) ∧
        unit.Refers entry .parameterType (.ok type)) := by
  have code : parameterTag = 0x05 := rfl
  simp only [named_iff, refers_iff, exists_and_left, exists_and_right]
  rw [child, code]
  by_cases tag : entry.abbreviation.tag = 0x05
  · rw [if_pos tag]
    cases hname : unit.entryName sections entry with
    | error fault => simp [Child.encounters, Encounter.firstFault?, tag]
    | ok name => simp [Child.encounters, Encounter.firstFault?_typeEncounters_eq_none, tag]
  · rw [if_neg tag]
    split <;> simp [Child.encounters, Encounter.firstFault?, tag]

theorem definition_faultless_iff {name : String}
    (defines : (unit.subprogram sections entry).Defines name) :
    Encounter.firstFault? (unit.subprogram sections entry).encounters = none ↔
      (∃ type, unit.Refers entry .returnType (.ok type)) ∧ (unit.children entry).2 = none ∧
        ∀ child ∈ (unit.children entry).1, child.abbreviation.tag = 0x05 →
          ∃ name type, unit.Named sections child (.ok name) ∧
            unit.Refers child .parameterType (.ok type) := by
  have children : Encounter.firstFault?
      ((unit.subprogram sections entry).children.flatMap Child.encounters) = none ↔
        ∀ child ∈ (unit.children entry).1, child.abbreviation.tag = 0x05 →
          ∃ name type, unit.Named sections child (.ok name) ∧
            unit.Refers child .parameterType (.ok type) := by
    rw [Encounter.firstFault?_flatMap_eq_none, subprogram, List.forall_mem_map]
    exact forall₂_congr fun child _ => child_faultless_iff
  have fault : (unit.subprogram sections entry).childFault = none ↔
      (unit.children entry).2 = none := Option.map_eq_none_iff
  have type : (∃ reference, (unit.subprogram sections entry).returnType = .ok reference) ↔
      ∃ type, unit.Refers entry .returnType (.ok type) :=
    exists_congr fun _ => refers_iff.symm
  rw [defines.encounters_eq, Encounter.firstFault?_append, Encounter.firstFault?_append,
    Option.or_eq_none_iff, Option.or_eq_none_iff, Encounter.firstFault?_typeEncounters_eq_none,
    Encounter.firstFault?_end_eq_none, children, fault, type]
  exact and_congr_right' and_comm

theorem subprogram_faultless_iff :
    Encounter.firstFault? (unit.subprogram sections entry).encounters = none ↔
      unit.Readable sections entry := by
  constructor
  · intro h
    cases hdeclaration : unit.isDeclaration entry with
    | error fault =>
        simp [Subprogram.encounters, subprogram, hdeclaration, Encounter.firstFault?] at h
    | ok declaration =>
        cases declaration with
        | true => exact .declaration (declares_iff.mpr hdeclaration)
        | false =>
            cases hname : unit.entryName sections entry with
            | error fault =>
                simp [Subprogram.encounters, subprogram, hdeclaration, hname,
                  Encounter.firstFault?] at h
            | ok name =>
                cases name with
                | none => exact .nameless (declares_iff.mpr hdeclaration) (named_iff.mpr hname)
                | some name =>
                    obtain ⟨⟨type, refers⟩, ended, children⟩ :=
                      (definition_faultless_iff ⟨hdeclaration, hname⟩).mp h
                    exact .definition (declares_iff.mpr hdeclaration) (named_iff.mpr hname) refers
                      ended children
  · intro h
    cases h with
    | declaration declares =>
        simp [Subprogram.encounters, subprogram, declares.eq, Encounter.firstFault?]
    | nameless declares named =>
        simp [Subprogram.encounters, subprogram, declares.eq, named.eq, Encounter.firstFault?]
    | definition declares named refers ended children =>
        exact (definition_faultless_iff ⟨declares.eq, named.eq⟩).mpr ⟨⟨_, refers⟩, ended, children⟩

/-- The walk of a unit meets no fault exactly if the unit is whole. -/
theorem unitEntries_faultless_iff :
    (unit.unitEntries sections).firstFault? = none ↔ unit.Whole sections := by
  have functions : Encounter.firstFault?
      ((unit.unitEntries sections).subprograms.flatMap Subprogram.encounters) = none ↔
        ∀ entry ∈ unit.walk.1, entry.abbreviation.tag = 0x2e → unit.Readable sections entry := by
    rw [Encounter.firstFault?_flatMap_eq_none, unitEntries, List.forall_mem_map]
    constructor
    · intro h entry hentry tag
      exact subprogram_faultless_iff.mp (h entry (List.mem_filter.mpr ⟨hentry, decide_eq_true tag⟩))
    · intro h entry hentry
      obtain ⟨hentry, tag⟩ := List.mem_filter.mp hentry
      exact subprogram_faultless_iff.mpr (h entry hentry (of_decide_eq_true tag))
  have fault : (unit.unitEntries sections).fault = none ↔ unit.walk.2 = none :=
    Option.map_eq_none_iff
  rw [UnitEntries.firstFault?, UnitEntries.encounters, Encounter.firstFault?_append,
    Option.or_eq_none_iff, Encounter.firstFault?_end_eq_none, functions, fault]
  constructor
  · intro h
    exact ⟨h.2, h.1⟩
  · intro h
    exact ⟨h.functions, h.entries⟩

/-- A unit defines a name if it is whole and one of its entries does. -/
theorem unitEntries_defines_iff {name : String} :
    (unit.unitEntries sections).Defines name ↔
      unit.Whole sections ∧ ∃ entry ∈ unit.walk.1, unit.Defines sections entry name := by
  refine and_congr unitEntries_faultless_iff ?_
  constructor
  · intro h
    obtain ⟨function, hfunction, defines⟩ := h
    obtain ⟨entry, hentry, rfl⟩ := List.mem_map.mp hfunction
    obtain ⟨hentry, tag⟩ := List.mem_filter.mp hentry
    obtain ⟨declares, named⟩ := subprogram_defines_iff.mp defines
    exact ⟨entry, hentry, of_decide_eq_true tag, declares, named⟩
  · intro h
    obtain ⟨entry, hentry, tag, declares, named⟩ := h
    refine ⟨_, List.mem_map_of_mem (List.mem_filter.mpr ⟨hentry, decide_eq_true tag⟩), ?_⟩
    exact subprogram_defines_iff.mpr ⟨declares, named⟩

section Children

/-! What a child is read as, by its tag. -/

theorem child_parameter (tag : entry.abbreviation.tag = 0x05) :
    unit.child sections entry =
      .parameter (unit.entryName sections entry) (unit.entryType .parameterType entry) := by
  have parameter : entry.abbreviation.tag = parameterTag := tag
  rw [child, if_pos parameter]

theorem child_variadic (tag : entry.abbreviation.tag = 0x18) :
    unit.child sections entry = .variadic := by
  have parameter : entry.abbreviation.tag ≠ parameterTag := by
    rw [tag]
    decide
  have variadic : entry.abbreviation.tag = variadicTag := tag
  rw [child, if_neg parameter, if_pos variadic]

theorem child_other (parameter : entry.abbreviation.tag ≠ 0x05)
    (variadic : entry.abbreviation.tag ≠ 0x18) : unit.child sections entry = .other := by
  have parameter : entry.abbreviation.tag ≠ parameterTag := parameter
  have variadic : entry.abbreviation.tag ≠ variadicTag := variadic
  rw [child, if_neg parameter, if_neg variadic]

end Children

/-- The parameters that are read of children are those that their entries give. -/
theorem parameters_of_lists {graph : TypeGraph} {index : Nat} {asked : Asked}
    {children : List Entry} {params : List Param}
    (lists : DebugInfo.Lists graph index asked (children.map (unit.child sections)) params) :
    unit.Parameters sections graph index asked children params := by
  induction children generalizing asked params with
  | nil =>
      cases lists with
      | nil => exact .nil asked
  | cons entry rest ih =>
      rw [List.map_cons] at lists
      cases lists with
      | cons describes lists =>
          by_cases parameter : entry.abbreviation.tag = 0x05
          · rw [child_parameter parameter] at describes lists
            generalize hname : unit.entryName sections entry = name at describes lists
            generalize htype : unit.entryType .parameterType entry = type at describes lists
            cases describes with
            | @parameter name type category typed =>
                refine .parameter parameter (named_iff.mpr hname) (refers_iff.mpr htype) typed ?_
                have asked_eq : askedIn index (Child.parameter (.ok name) (.ok type)).encounters =
                    type.toList.map (index, ·) := by
                  cases type <;> rfl
                rw [asked_eq] at lists
                exact ih lists
          · by_cases variadic : entry.abbreviation.tag = 0x18
            · rw [child_variadic variadic] at describes lists
              have asked_eq : askedIn index Child.variadic.encounters = [] := rfl
              rw [asked_eq, List.append_nil] at lists
              cases describes with
              | variadic => exact .variadic variadic (ih lists)
            · rw [child_other parameter variadic] at describes lists
              have asked_eq : askedIn index Child.other.encounters = [] := rfl
              rw [asked_eq, List.append_nil] at lists
              cases describes with
              | other => exact .other parameter variadic (ih lists)

theorem signs_of_subprogram {graph : TypeGraph} {index : Nat} {asked : Asked}
    {signature : Signature}
    (signs : DebugInfo.Signs graph index asked (unit.subprogram sections entry) signature) :
    unit.Signs sections graph index asked entry signature := by
  obtain ⟨⟨type, category, htype, typed, hreturn⟩, lists⟩ := signs
  refine ⟨type, category, refers_iff.mpr htype, typed, hreturn, ?_⟩
  have asked_eq : askedIn index (DebugInfo.typeEncounters (.ok type)) =
      type.toList.map (index, ·) := by
    cases type <;> rfl
  rw [htype, asked_eq] at lists
  exact parameters_of_lists lists

end CompiledUnit

/-- The first definition of a name: the first entry that defines it in the first unit that does. -/
structure FirstFunction (units : List CompiledUnit) (sections : Sections) (name : String) where
  before : List CompiledUnit
  unit : CompiledUnit
  after : List CompiledUnit
  earlier : List Entry
  entry : Entry
  later : List Entry
  units_eq : units = before ++ unit :: after
  entries_eq : unit.walk.1 = earlier ++ entry :: later
  whole : unit.Whole sections
  defines : unit.Defines sections entry name
  undefined_before : ∀ other ∈ before, other.Whole sections → ∀ entry ∈ other.walk.1,
    ¬other.Defines sections entry name
  undefined_earlier : ∀ other ∈ earlier, ¬unit.Defines sections other name

/-- The references that are looked up before the definition. -/
def FirstFunction.askedBefore {units : List CompiledUnit} {sections : Sections} {name : String}
    (first : FirstFunction units sections name) : Asked :=
  askedFrom 0 (first.before.map (·.unitEntries sections)) ++
    (first.earlier.filter (·.abbreviation.tag = 0x2e)).flatMap fun entry =>
      askedIn first.before.length (first.unit.subprogram sections entry).encounters

/-- An item of a list comes from one of the list that it was made of, with those before it. -/
theorem exists_of_map_filter {α β : Type} {kept : α → Bool} {f : α → β} {items : List α}
    {before after : List β} {b : β} (h : (items.filter kept).map f = before ++ b :: after) :
    ∃ earlier item later, items = earlier ++ item :: later ∧ kept item = true ∧ f item = b ∧
      (earlier.filter kept).map f = before := by
  obtain ⟨front, back, hsplit, rfl, hback⟩ := List.map_eq_append_iff.mp h
  obtain ⟨item, rest, rfl, rfl, -⟩ := List.map_eq_cons_iff.mp hback
  obtain ⟨earlier, later, rfl, rfl, hlater⟩ := List.filter_eq_append_iff.mp hsplit
  obtain ⟨passed, tail, rfl, hpassed, hitem, -⟩ := List.filter_eq_cons_iff.mp hlater
  have none : passed.filter kept = [] := List.filter_eq_nil_iff.mpr hpassed
  refine ⟨earlier ++ passed, item, tail, by simp, hitem, rfl, ?_⟩
  rw [List.filter_append, none, List.append_nil]

/-- The first definition among what units were read as is the first among their entries. -/
theorem exists_firstFunction {units : List CompiledUnit} {sections : Sections} {name : String}
    {graph : TypeGraph} {signature : Signature}
    (definition : DebugInfo.FirstDefinition (units.map (·.unitEntries sections)) name)
    (signs : DebugInfo.Signs graph definition.before.length (definition.askedBefore 0)
      definition.entry signature) :
    ∃ first : FirstFunction units sections name,
      first.unit.Signs sections graph first.before.length first.askedBefore first.entry
        signature := by
  obtain ⟨before, entries, after, earlier, function, later, hunits, hentries, whole, defines,
    undefinedBefore, undefinedEarlier⟩ := definition
  obtain ⟨front, back, rfl, rfl, hback⟩ := List.map_eq_append_iff.mp hunits
  obtain ⟨unit, rest, rfl, rfl, -⟩ := List.map_eq_cons_iff.mp hback
  obtain ⟨passed, entry, tail, hwalk, tag, rfl, rfl⟩ := exists_of_map_filter hentries
  obtain ⟨declares, named⟩ := CompiledUnit.subprogram_defines_iff.mp defines
  refine ⟨⟨front, unit, rest, passed, entry, tail, rfl, hwalk,
    CompiledUnit.unitEntries_faultless_iff.mp whole, ⟨of_decide_eq_true tag, declares, named⟩,
    ?_, ?_⟩, ?_⟩
  · intro other hother whole entry hentry defined
    exact undefinedBefore _ (List.mem_map_of_mem hother)
      (CompiledUnit.unitEntries_defines_iff.mpr ⟨whole, entry, hentry, defined⟩)
  · intro other hother defined
    have listed : other ∈ passed.filter (·.abbreviation.tag = subprogramTag) :=
      List.mem_filter.mpr ⟨hother, decide_eq_true defined.function⟩
    exact undefinedEarlier _ (List.mem_map_of_mem listed)
      (CompiledUnit.subprogram_defines_iff.mpr ⟨defined.defined, defined.named⟩)
  · have code : subprogramTag = 0x2e := rfl
    have signed := CompiledUnit.signs_of_subprogram signs
    simpa [DebugInfo.FirstDefinition.askedBefore, FirstFunction.askedBefore, List.flatMap_map, code]
      using signed

end LibSurvey.Dwarf

namespace LibSurvey.DebugInfo
open Dwarf (CompiledUnit FirstFunction Forest Sections)

/-- A name is bound if one of the entries of a unit without a fault defines it, at any depth, and to the
signature of its first definition. A unit with a fault is noted once, and types change nothing of that;
a type whose chain leads nowhere or to an entry that cannot be read is unknown. Where the bytes of a unit
spell trees, its entries are theirs in depth first order, and the children of an entry are those
immediately within it. -/
theorem extract_definitions (units : List CompiledUnit) (sections : Sections) (graph : TypeGraph)
    (sink : Diagnostics) :
    let read := units.map (·.unitEntries sections)
    (∀ name, name ∈ (extract graph read sink).1 ↔
      ∃ unit ∈ units, unit.Whole sections ∧ ∃ entry ∈ unit.walk.1,
        unit.Defines sections entry name) ∧
    (∀ (name : String) (signature : Signature),
      (extract graph read sink).1[name]? = some signature →
        ∃ first : FirstFunction units sections name,
          first.unit.Signs sections graph first.before.length first.askedBefore first.entry
            signature) ∧
    ((extract graph read sink).2 = { sink with
        entries := sink.entries ++ if sink.enabled then
          (unitNotes 0 read).map (Diagnostic.mk .debugInfo) else [] } ∧
      ∀ unit : CompiledUnit,
        (unit.unitEntries sections).firstFault? = none ↔ unit.Whole sections) ∧
    (∀ other : TypeGraph, (extract other read sink).2 = (extract graph read sink).2 ∧
      (∀ name, name ∈ (extract other read sink).1 ↔ name ∈ (extract graph read sink).1) ∧
      ∀ (name : String) (signature signature' : Signature),
        (extract graph read sink).1[name]? = some signature →
          (extract other read sink).1[name]? = some signature' →
            signature.params.map (·.name) = signature'.params.map (·.name)) ∧
    (∀ asked unit reference n, graph.Ends unit reference n .unknown →
      ∀ absent category, Typed graph unit asked absent (some reference) category →
        category = .unknown) ∧
    ∀ (unit : CompiledUnit) (forest : Forest), unit.Spells forest →
      unit.walk = (forest.entries, none) ∧
        ∀ node ∈ forest.nodes, unit.children node.1 = (node.2.roots, none) := by
  intro read
  refine ⟨?_, ?_, ⟨extract_notes graph read sink, fun unit => ?_⟩, ?_, ?_, ?_⟩
  · intro name
    simp only [read, mem_extract, List.mem_map, exists_exists_and_eq_and]
    exact exists_congr fun unit => and_congr_right fun _ => CompiledUnit.unitEntries_defines_iff
  · intro name signature h
    obtain ⟨definition, signs⟩ := exists_first graph read sink h
    exact Dwarf.exists_firstFunction definition signs
  · exact CompiledUnit.unitEntries_faultless_iff
  · intro other
    refine ⟨?_, ?_, ?_⟩
    · rw [extract_notes, extract_notes]
    · intro name
      rw [mem_extract, mem_extract]
    · intro name signature signature' h h'
      obtain ⟨first, signs⟩ := exists_first graph read sink h
      obtain ⟨first', signs'⟩ := exists_first other read sink h'
      exact signs.params.names_eq (first.entry_eq first' ▸ signs'.params)
  · intro asked unit reference n ends absent category typed
    cases typed with
    | resolved => exact TypeGraph.resolve_unknown ends asked
  · intro unit forest spells
    exact ⟨spells.walk_eq, spells.children⟩

/-- A base type, a pointer, a function with a type, one without and a declaration, a parameter with a name
and a type and one with neither, the rest of a variable list, and a block. -/
def nestedForms : List (Nat × Dwarf.Abbreviation) :=
  [(1, ⟨0x24, false, [⟨0x03, 0x08⟩]⟩), (2, ⟨0x0f, false, []⟩),
    (3, ⟨0x2e, true, [⟨0x03, 0x08⟩, ⟨0x49, 0x11⟩]⟩), (4, ⟨0x2e, true, [⟨0x03, 0x08⟩]⟩),
    (5, ⟨0x2e, false, [⟨0x03, 0x08⟩, ⟨0x3c, 0x19⟩]⟩), (6, ⟨0x05, false, [⟨0x03, 0x08⟩, ⟨0x49, 0x11⟩]⟩),
    (7, ⟨0x05, false, []⟩), (8, ⟨0x18, false, []⟩), (9, ⟨0x0b, true, []⟩)]

def unitOf (bytes : Array UInt8) : CompiledUnit where
  header :=
    { inInfo := true
      start := 0
      encoding := ⟨4, 8, false⟩
      abbreviations := 0
      typeSignature := none
      entries := .ofBytes ⟨bytes⟩ .little }
  abbreviations := .ofList nestedForms
  stringBase := 0

/-- A unit with `int f(void *x, ...)`, within whose block stand a parameter and `void g()` with a parameter
without a type, and with a declaration of `h`. -/
def nested : CompiledUnit :=
  unitOf #[1, 0x69, 0x6e, 0x74, 0, 2, 3, 0x66, 0, 0, 6, 0x78, 0, 5, 8, 9, 7, 4, 0x67, 0, 7, 0, 0, 0,
    5, 0x68, 0]

/-- A unit that defines `g` and `k` before a fault. -/
def broken : CompiledUnit :=
  unitOf #[4, 0x67, 0, 0, 4, 0x6b, 0, 0, 99]

def nestedAt (offset : Nat) : Dwarf.Reader :=
  { nested.header.entries with next := offset }

/-- The entry at an offset, whose code takes one byte. -/
def nestedEntry (offset : Nat) (form : Dwarf.Abbreviation) : Dwarf.Entry :=
  ⟨offset, form, nestedAt (offset + 1)⟩

def nestedForest : Forest :=
  let form (code : Nat) : Dwarf.Abbreviation := (nestedForms.lookup code).getD ⟨0, false, []⟩
  let inner : Forest := .cons (nestedEntry 20 (form 7)) .nil .nil
  let block : Forest :=
    .cons (nestedEntry 16 (form 7)) .nil (.cons (nestedEntry 17 (form 4)) inner .nil)
  let children : Forest :=
    .cons (nestedEntry 10 (form 6)) .nil
      (.cons (nestedEntry 14 (form 8)) .nil (.cons (nestedEntry 15 (form 9)) block .nil))
  .cons (nestedEntry 0 (form 1)) .nil
    (.cons (nestedEntry 5 (form 2)) .nil
      (.cons (nestedEntry 6 (form 3)) children (.cons (nestedEntry 24 (form 5)) .nil .nil)))

section Nested

variable {form : Dwarf.Abbreviation} {within rest : Forest} {stop : Dwarf.Reader}

theorem stands_leaf (offset next : Nat)
    (read : nested.readEntry?.run (nestedAt offset) =
      .ok (some (nestedEntry offset form), nestedAt (offset + 1)))
    (leaf : form.hasChildren = false)
    (after : (nestedEntry offset form).afterAttributes nested.header.encoding = .ok (nestedAt next))
    (more : nested.Stands (nestedAt next) rest stop) :
    nested.Stands (nestedAt offset) (.cons (nestedEntry offset form) .nil rest) stop :=
  .leaf read leaf after more

theorem stands_node (offset first last : Nat)
    (read : nested.readEntry?.run (nestedAt offset) =
      .ok (some (nestedEntry offset form), nestedAt (offset + 1)))
    (parent : form.hasChildren = true)
    (after : (nestedEntry offset form).afterAttributes nested.header.encoding = .ok (nestedAt first))
    (inside : nested.Stands (nestedAt first) within (nestedAt last))
    (closed : nested.readEntry?.run (nestedAt last) = .ok (none, nestedAt (last + 1)))
    (sibling : nested.sibling? (nestedEntry offset form) = none)
    (more : nested.Stands (nestedAt (last + 1)) rest stop) :
    nested.Stands (nestedAt offset) (.cons (nestedEntry offset form) within rest) stop :=
  .node read parent after inside closed (.inl sibling) more

end Nested

theorem spells_nested : nested.Spells nestedForest := by
  refine ⟨nestedAt 27, ?_, .empty rfl⟩
  refine stands_leaf 0 5 (by with_unfolding_all rfl) rfl (by with_unfolding_all rfl) ?_
  refine stands_leaf 5 6 (by with_unfolding_all rfl) rfl (by with_unfolding_all rfl) ?_
  refine stands_node 6 10 23 (by with_unfolding_all rfl) rfl (by with_unfolding_all rfl) ?children
    (by with_unfolding_all rfl) (by with_unfolding_all rfl) ?_
  case children =>
    refine stands_leaf 10 14 (by with_unfolding_all rfl) rfl (by with_unfolding_all rfl) ?_
    refine stands_leaf 14 15 (by with_unfolding_all rfl) rfl (by with_unfolding_all rfl) ?_
    refine stands_node 15 16 22 (by with_unfolding_all rfl) rfl (by with_unfolding_all rfl) ?block
      (by with_unfolding_all rfl) (by with_unfolding_all rfl) (.nil _)
    refine stands_leaf 16 17 (by with_unfolding_all rfl) rfl (by with_unfolding_all rfl) ?_
    refine stands_node 17 20 21 (by with_unfolding_all rfl) rfl (by with_unfolding_all rfl) ?inner
      (by with_unfolding_all rfl) (by with_unfolding_all rfl) (.nil _)
    exact stands_leaf 20 21 (by with_unfolding_all rfl) rfl (by with_unfolding_all rfl) (.nil _)
  exact stands_leaf 24 27 (by with_unfolding_all rfl) rfl (by with_unfolding_all rfl) (.nil _)

/-- The functions of the unit without a fault are found, with their signatures; the other unit defines
nothing and is noted, and a reference that leads nowhere is of no known type. -/
theorem extract_definitions_nested :
    let units := [broken, nested]
    let graph : TypeGraph := units.map (·.typeUnit .bare)
    let read := units.map (·.unitEntries .bare)
    (extract graph read (.empty true)).1.toList =
      [("f", ⟨"int", [⟨"pointer", some "x"⟩, ⟨"...", none⟩]⟩),
        ("g", ⟨"void", [⟨"unknown", none⟩]⟩)] ∧
    (∃ first : FirstFunction units .bare "f",
      first.unit.Signs .bare graph first.before.length first.askedBefore first.entry
        ⟨"int", [⟨"pointer", some "x"⟩, ⟨"...", none⟩]⟩) ∧
    (∃ unit ∈ units, unit.Whole .bare ∧ ∃ entry ∈ unit.walk.1, unit.Defines .bare entry "g") ∧
    (extract graph read (.empty true)).2.entries.map (·.stage) = [.debugInfo] ∧
    nested.Spells nestedForest ∧ nested.walk = (nestedForest.entries, none) ∧
    graph.Ends 0 (.inSection 99) 0 .unknown ∧
    ∀ category, Typed graph 0 [] .void (some (.inSection 99)) category → category = .unknown := by
  intro units graph read
  obtain ⟨bound, signed, -, -, unknown, spelled⟩ :=
    extract_definitions units .bare graph (.empty true)
  have found : (extract graph read (.empty true)).1["f"]? =
      some ⟨"int", [⟨"pointer", some "x"⟩, ⟨"...", none⟩]⟩ := by decide +kernel
  have mem : "g" ∈ (extract graph read (.empty true)).1 := by decide +kernel
  have lost : graph.Ends 0 (.inSection 99) 0 .unknown := by
    refine .lost (TypeGraph.target?_eq_none_iff.mp ?_)
    decide +kernel
  exact ⟨by decide +kernel, signed "f" _ found, (bound "g").mp mem, by decide +kernel,
    spells_nested, (spelled nested nestedForest spells_nested).1, lost,
    unknown [] 0 _ 0 lost .void⟩

end LibSurvey.DebugInfo
