import LibSurvey.Proofs.DebugInfo.Independent
import LibSurvey.Proofs.Diagnostics
import LibSurvey.Proofs.Findings.History

/-!
What units give to the functions of debug information. Walking a unit meets faults and references to
types; the first fault ends it, and the references before it decide what is remembered of types. A unit
without a fault gives all functions that it defines and one with a fault none. Where the entries of a
unit stand in its bytes remains a separate obligation.
-/

namespace LibSurvey.DebugInfo

/-- What walking a unit meets. -/
inductive Encounter where
  | fault (met : ReadFault)
  /-- A type that is looked up. -/
  | type (reference : TypeReference)

namespace Encounter

def firstFault? : List Encounter → Option ReadFault
  | [] => none
  | .fault first :: _ => some first
  | .type _ :: rest => firstFault? rest

/-- The references to types that are met before a fault. -/
def types : List Encounter → List TypeReference
  | [] => []
  | .fault _ :: _ => []
  | .type reference :: rest => reference :: types rest

theorem firstFault?_append (met more : List Encounter) :
    firstFault? (met ++ more) = (firstFault? met).or (firstFault? more) := by
  induction met with
  | nil => rfl
  | cons encounter met ih =>
      cases encounter with
      | fault first => rfl
      | type reference => exact ih

theorem types_append (met more : List Encounter) :
    types (met ++ more) =
      types met ++ if firstFault? met = none then types more else [] := by
  induction met with
  | nil => rfl
  | cons encounter met ih =>
      cases encounter with
      | fault first => rfl
      | type reference => exact congrArg (reference :: ·) ih

end Encounter

/-- What reading a reference to a type meets. -/
def typeEncounters : Reading (Option TypeReference) → List Encounter
  | .error fault => [.fault fault]
  | .ok reference => reference.toList.map .type

def Child.encounters : Child → List Encounter
  | .parameter (.error fault) _ => [.fault fault]
  | .parameter (.ok _) type => typeEncounters type
  | .variadic | .other => []

namespace Subprogram

/-- A declaration is passed over, and so is an entry without a name. -/
def encounters (entry : Subprogram) : List Encounter :=
  match entry.isDeclaration, entry.name with
  | .error fault, _ => [.fault fault]
  | .ok true, _ => []
  | .ok false, .error fault => [.fault fault]
  | .ok false, .ok none => []
  | .ok false, .ok (some _) =>
    typeEncounters entry.returnType ++
      (entry.children.flatMap Child.encounters ++ entry.childFault.toList.map .fault)

/-- An entry that has this name and is no declaration. -/
structure Defines (entry : Subprogram) (name : String) : Prop where
  defined : entry.isDeclaration = .ok false
  named : entry.name = .ok (some name)

theorem Defines.encounters_eq {entry : Subprogram} {name : String} (h : entry.Defines name) :
    entry.encounters = typeEncounters entry.returnType ++
      (entry.children.flatMap Child.encounters ++ entry.childFault.toList.map .fault) := by
  rw [encounters, h.defined, h.named]

end Subprogram

namespace UnitEntries

def encounters (unit : UnitEntries) : List Encounter :=
  unit.subprograms.flatMap Subprogram.encounters ++ unit.fault.toList.map .fault

/-- The fault that ends the walk of a unit, if any does. -/
def firstFault? (unit : UnitEntries) : Option ReadFault :=
  Encounter.firstFault? unit.encounters

end UnitEntries

/-- References to types in the order in which they are looked up, each with its unit. -/
abbrev Asked := List (Nat × TypeReference)

/-- The references in a unit. -/
def askedIn (unit : Nat) (met : List Encounter) : Asked :=
  (Encounter.types met).map (unit, ·)

/-- The references in units from the first, whose number is given. -/
def askedFrom (index : Nat) (units : List UnitEntries) : Asked :=
  (units.zipIdx index).flatMap fun unit => askedIn unit.2 unit.1.encounters

theorem askedFrom_cons (index : Nat) (unit : UnitEntries) (units : List UnitEntries) :
    askedFrom index (unit :: units) =
      askedIn index unit.encounters ++ askedFrom (index + 1) units := by
  simp [askedFrom]

section Relations

variable (graph : TypeGraph) (unit : Nat)

/-- What a type is, with these references looked up before it. -/
inductive Typed (asked : Asked) (absent : TypeCategory) :
    Option TypeReference → TypeCategory → Prop where
  | absent : Typed asked absent none absent
  | resolved (reference : TypeReference) :
      Typed asked absent (some reference)
        (graph.resolve (graph.remembered asked) unit reference).1

/-- The parameter that a child is, if it is one. -/
inductive Describes (asked : Asked) : Child → Option Param → Prop where
  | other : Describes asked .other none
  | variadic : Describes asked .variadic (some ⟨"...", none⟩)
  | parameter (name : Option String) {type : Option TypeReference} {category : TypeCategory} :
      Typed graph unit asked .unknown type category →
      Describes asked (.parameter (.ok name) (.ok type)) (some ⟨category.name, name⟩)

/-- The parameters among children in order. -/
inductive Lists : Asked → List Child → List Param → Prop where
  | nil (asked : Asked) : Lists asked [] []
  | cons {asked : Asked} {child : Child} {children : List Child} {param : Option Param}
      {params : List Param} : Describes graph unit asked child param →
      Lists (asked ++ askedIn unit child.encounters) children params →
      Lists asked (child :: children) (param.toList ++ params)

/-- The signature of the function that an entry defines. -/
structure Signs (asked : Asked) (entry : Subprogram) (signature : Signature) : Prop where
  returns : ∃ type category, entry.returnType = .ok type ∧
    Typed graph unit asked .void type category ∧ signature.returnType = category.name
  params : Lists graph unit (asked ++ askedIn unit (typeEncounters entry.returnType))
    entry.children signature.params

/-- The function that an entry defines, if it defines one. -/
inductive Yields (asked : Asked) (entry : Subprogram) : Option (String × Signature) → Prop where
  | silent : (∀ name, ¬entry.Defines name) → Yields asked entry none
  | function {name : String} {signature : Signature} : entry.Defines name →
      Signs graph unit asked entry signature → Yields asked entry (some (name, signature))

/-- The functions that entries define in order. -/
inductive Gathers : Asked → List Subprogram → List (String × Signature) → Prop where
  | nil (asked : Asked) : Gathers asked [] []
  | cons {asked : Asked} {entry : Subprogram} {entries : List Subprogram}
      {found : Option (String × Signature)} {more : List (String × Signature)} :
      Yields graph unit asked entry found →
      Gathers (asked ++ askedIn unit entry.encounters) entries more →
      Gathers asked (entry :: entries) (found.toList ++ more)

/-- The functions that units define in order, from the one with this number. -/
inductive Collects : Nat → Asked → List UnitEntries → List (String × Signature) → Prop where
  | nil (index : Nat) (asked : Asked) : Collects index asked [] []
  | whole {index : Nat} {asked : Asked} {entries : UnitEntries} {units : List UnitEntries}
      {found more : List (String × Signature)} : entries.firstFault? = none →
      Gathers graph index asked entries.subprograms found →
      Collects (index + 1) (asked ++ askedIn index entries.encounters) units more →
      Collects index asked (entries :: units) (found ++ more)
  | faulty {index : Nat} {asked : Asked} {entries : UnitEntries} {units : List UnitEntries}
      {found : List (String × Signature)} : entries.firstFault? ≠ none →
      Collects (index + 1) (asked ++ askedIn index entries.encounters) units found →
      Collects index asked (entries :: units) found

end Relations

/-- What reading gives, by what it meets: the first fault, or else a result that is right for the
references looked up before. All references up to then are remembered. -/
def Reads {α : Type} (graph : TypeGraph) (unit : Nat) (met : List Encounter)
    (right : Asked → α → Prop) (read : KnownTypes → Reading α × KnownTypes) : Prop :=
  ∀ asked, (read (graph.remembered asked)).2 = graph.remembered (asked ++ askedIn unit met) ∧
    match Encounter.firstFault? met with
    | some fault => (read (graph.remembered asked)).1 = .error fault
    | none => ∃ a, (read (graph.remembered asked)).1 = .ok a ∧ right asked a

theorem TypeGraph.remembered_concat (graph : TypeGraph) (asked : Asked) (unit : Nat)
    (reference : TypeReference) :
    graph.remembered (asked ++ [(unit, reference)]) =
      (graph.resolve (graph.remembered asked) unit reference).2 := by
  rw [remembered, List.foldl_append]
  rfl

section Reading

variable {α β : Type} {graph : TypeGraph} {unit : Nat}

theorem Reads.pure {right : Asked → α → Prop} {a : α} (h : ∀ asked, right asked a) :
    Reads graph unit [] right (fun known => (.ok a, known)) :=
  fun asked => ⟨by simp [askedIn, Encounter.types], a, rfl, h asked⟩

/-- Nothing is met any more after a fault. -/
theorem Reads.fault {right : Asked → α → Prop} (fault : ReadFault) (rest : List Encounter) :
    Reads graph unit (.fault fault :: rest) right (fun known => (.error fault, known)) :=
  fun asked => ⟨by simp [askedIn, Encounter.types], rfl⟩

theorem Reads.mono {met : List Encounter} {right other : Asked → α → Prop}
    {read : KnownTypes → Reading α × KnownTypes} (h : Reads graph unit met right read)
    (imp : ∀ asked a, right asked a → other asked a) : Reads graph unit met other read := by
  intro asked
  obtain ⟨hknown, hresult⟩ := h asked
  refine ⟨hknown, ?_⟩
  cases hfault : Encounter.firstFault? met with
  | some fault => simpa only [hfault] using hresult
  | none =>
      simp only [hfault] at hresult ⊢
      obtain ⟨a, hok, ha⟩ := hresult
      exact ⟨a, hok, imp asked a ha⟩

/-- One thing is read after another: what the second meets is met after all that the first did. -/
theorem Reads.andThen {met more : List Encounter} {right : Asked → α → Prop}
    {nextRight : α → Asked → β → Prop} {first : KnownTypes → Reading α × KnownTypes}
    {next : α → KnownTypes → Reading β × KnownTypes} (hfirst : Reads graph unit met right first)
    (hnext : ∀ a, Reads graph unit more (nextRight a) (next a)) :
    Reads graph unit (met ++ more)
      (fun asked b => ∃ a, right asked a ∧ nextRight a (asked ++ askedIn unit met) b)
      (TypeGraph.andThen first next) := by
  intro asked
  obtain ⟨hknown, hresult⟩ := hfirst asked
  rw [TypeGraph.andThen, Encounter.firstFault?_append, askedIn, Encounter.types_append]
  generalize first (graph.remembered asked) = read at hknown hresult
  obtain ⟨result, known⟩ := read
  obtain rfl : known = _ := hknown
  cases hfault : Encounter.firstFault? met with
  | some fault =>
      simp only [hfault] at hresult
      subst hresult
      exact ⟨by simp [askedIn], rfl⟩
  | none =>
      simp only [hfault] at hresult
      obtain ⟨a, rfl, ha⟩ := hresult
      obtain ⟨hafter, hlast⟩ := hnext a (asked ++ askedIn unit met)
      refine ⟨?_, ?_⟩
      · simpa [askedIn] using hafter
      · cases hmore : Encounter.firstFault? more with
        | some fault => simpa only [hmore, Option.none_or] using hlast
        | none =>
            simp only [hmore] at hlast
            obtain ⟨b, hb, hright⟩ := hlast
            exact ⟨b, hb, a, ha, hright⟩

/-- A result made of what was read. -/
theorem Reads.map {met : List Encounter} {right : Asked → α → Prop}
    {read : KnownTypes → Reading α × KnownTypes} (h : Reads graph unit met right read) (f : α → β) :
    Reads graph unit met (fun asked b => ∃ a, right asked a ∧ f a = b)
      (TypeGraph.andThen read fun a known => (.ok (f a), known)) := by
  have mapped := h.andThen fun a => Reads.pure (a := f a) fun _ => (rfl : f a = f a)
  rw [List.append_nil] at mapped
  exact mapped.mono fun asked b hb => hb

section Parts

variable (graph : TypeGraph) (unit : Nat)

theorem reads_resolveType (absent : TypeCategory) (reference : Option TypeReference) :
    Reads graph unit (typeEncounters (.ok reference))
      (fun asked category => Typed graph unit asked absent reference category)
      (fun known => (.ok (resolveType graph unit known absent reference).1,
        (resolveType graph unit known absent reference).2)) := by
  intro asked
  cases reference with
  | none => exact ⟨by simp [typeEncounters, askedIn, Encounter.types, resolveType], _, rfl, .absent⟩
  | some reference =>
      exact ⟨(graph.remembered_concat asked unit reference).symm, _, rfl, .resolved reference⟩

theorem reads_readParam (child : Child) :
    Reads graph unit child.encounters (fun asked param => Describes graph unit asked child param)
      (fun known => readParam graph unit known child) := by
  match child with
  | .other => exact .pure fun _ => .other
  | .variadic => exact .pure fun _ => .variadic
  | .parameter (.error fault) type => exact .fault fault []
  | .parameter (.ok name) (.error fault) => exact .fault fault []
  | .parameter (.ok name) (.ok type) =>
      have read := (reads_resolveType graph unit .unknown type).map fun category =>
        some (⟨category.name, name⟩ : Param)
      refine read.mono fun asked param => ?_
      rintro ⟨category, typed, rfl⟩
      exact .parameter name typed

/-- What stands at the end of entries: nothing, or the fault that they end in. -/
theorem reads_end (fault : Option ReadFault) {right : Asked → α → Prop} {a : α}
    (h : ∀ asked, right asked a) :
    Reads graph unit (fault.toList.map .fault) right fun known =>
      match fault with
      | some fault => (.error fault, known)
      | none => (.ok a, known) := by
  cases fault with
  | none => exact .pure h
  | some fault => exact .fault fault []

theorem reads_readParams (fault : Option ReadFault) (children : List Child) :
    Reads graph unit (children.flatMap Child.encounters ++ fault.toList.map .fault)
      (fun asked params => Lists graph unit asked children params)
      (fun known => readParams graph unit fault known children) := by
  induction children with
  | nil => exact reads_end graph unit fault Lists.nil
  | cons child children ih =>
      simp only [TypeGraph.readParams_cons, List.flatMap_cons, List.append_assoc]
      have read := (reads_readParam graph unit child).andThen fun param =>
        ih.map fun params => param.toList ++ params
      refine read.mono fun asked all => ?_
      rintro ⟨param, describes, params, lists, rfl⟩
      exact .cons describes lists

/-- The return type of a function is read before its parameters. -/
theorem reads_defined {entry : Subprogram} {name : String} {type : Option TypeReference}
    (defines : entry.Defines name) (htype : entry.returnType = .ok type) :
    Reads graph unit (typeEncounters (.ok type) ++
        (entry.children.flatMap Child.encounters ++ entry.childFault.toList.map .fault))
      (fun asked found => Yields graph unit asked entry found)
      (fun known => readSubprogram graph unit known entry) := by
  simp only [TypeGraph.readSubprogram_defined defines.defined defines.named htype]
  have read := (reads_resolveType graph unit .void type).andThen fun category =>
    (reads_readParams graph unit entry.childFault entry.children).map fun params =>
      some (name, (⟨category.name, params⟩ : Signature))
  refine read.mono fun asked found => ?_
  rintro ⟨category, typed, params, lists, rfl⟩
  exact .function defines ⟨⟨type, category, htype, typed, rfl⟩, htype ▸ lists⟩

theorem reads_readSubprogram (entry : Subprogram) :
    Reads graph unit entry.encounters (fun asked found => Yields graph unit asked entry found)
      (fun known => readSubprogram graph unit known entry) := by
  cases hdeclaration : entry.isDeclaration with
  | error fault =>
      simpa only [Subprogram.encounters, readSubprogram, hdeclaration] using .fault fault []
  | ok declaration =>
      cases declaration with
      | true =>
          have silent : ∀ name, ¬entry.Defines name := by
            rintro name ⟨hdefined, -⟩
            simp [hdeclaration] at hdefined
          simpa only [Subprogram.encounters, readSubprogram, hdeclaration] using
            .pure fun _ => .silent silent
      | false =>
          cases hname : entry.name with
          | error fault =>
              simpa only [Subprogram.encounters, readSubprogram, hdeclaration, hname] using
                .fault fault []
          | ok name =>
              cases name with
              | none =>
                  have nameless : ∀ name, ¬entry.Defines name := by
                    rintro name ⟨-, hnamed⟩
                    simp [hname] at hnamed
                  simpa only [Subprogram.encounters, readSubprogram, hdeclaration, hname] using
                    .pure fun _ => .silent nameless
              | some name =>
                  have defines : entry.Defines name := ⟨hdeclaration, hname⟩
                  rw [defines.encounters_eq]
                  cases htype : entry.returnType with
                  | error fault =>
                      simpa only [readSubprogram, hdeclaration, hname, htype] using
                        .fault fault _
                  | ok type =>
                      exact reads_defined graph unit defines htype

theorem reads_readSubprograms (fault : Option ReadFault) (entries : List Subprogram) :
    Reads graph unit (entries.flatMap Subprogram.encounters ++ fault.toList.map .fault)
      (fun asked found => Gathers graph unit asked entries found)
      (fun known => readSubprograms graph unit fault known entries) := by
  induction entries with
  | nil => exact reads_end graph unit fault Gathers.nil
  | cons entry entries ih =>
      simp only [TypeGraph.readSubprograms_cons, List.flatMap_cons, List.append_assoc]
      have read := (reads_readSubprogram graph unit entry).andThen fun found =>
        ih.map fun more => found.toList ++ more
      refine read.mono fun asked all => ?_
      rintro ⟨found, yields, more, gathers, rfl⟩
      exact .cons yields gathers

end Parts

end Reading

/-- The note on a unit that is left out. -/
def unitNote (index : Nat) (fault : ReadFault) : String :=
  "unit " ++ toString index ++ ": " ++ fault.failure.message

/-- The notes on units that are left out, from the one with this number. -/
def unitNotes (index : Nat) (units : List UnitEntries) : List String :=
  (units.zipIdx index).filterMap fun unit => unit.1.firstFault?.map (unitNote unit.2)

theorem unitNotes_cons (index : Nat) (unit : UnitEntries) (units : List UnitEntries) :
    unitNotes index (unit :: units) =
      (unit.firstFault?.map (unitNote index)).toList ++ unitNotes (index + 1) units := by
  rw [unitNotes, List.zipIdx_cons, List.filterMap_cons]
  cases unit.firstFault? <;> rfl

theorem addFunctions_append (functions : FunctionSet) (found more : List (String × Signature)) :
    addFunctions functions (found ++ more) = addFunctions (addFunctions functions found) more :=
  List.foldl_append

/-- Functions that are known already stay, and of the others the first counts. -/
theorem addFunctions_getElem? (functions : FunctionSet) (found : List (String × Signature))
    (name : String) :
    (addFunctions functions found)[name]? = functions[name]?.or (found.lookup name) := by
  induction found generalizing functions with
  | nil => simp [addFunctions]
  | cons entry found ih =>
      have hrest := ih (functions.insertIfNew entry.1 entry.2)
      rw [Findings.getElem?_insertIfNew, Option.or_assoc] at hrest
      refine hrest.trans (congrArg _ ?_)
      rw [← List.lookup_append, List.singleton_append]

/-- What one unit adds, by what its walk meets. -/
structure Adds (graph : TypeGraph) (index : Nat) (asked : Asked) (unit : UnitEntries)
    (before after : Extraction) : Prop where
  known : after.known = graph.remembered (asked ++ askedIn index unit.encounters)
  faulty : ∀ fault, unit.firstFault? = some fault → after.functions = before.functions ∧
    after.sink = before.sink.record .debugInfo (unitNote index fault)
  whole : unit.firstFault? = none → after.sink = before.sink ∧ ∃ found,
    Gathers graph index asked unit.subprograms found ∧
      after.functions = addFunctions before.functions found

theorem adds_addUnit {graph : TypeGraph} {asked : Asked} {before : Extraction}
    (hbefore : before.known = graph.remembered asked) (index : Nat) (unit : UnitEntries) :
    Adds graph index asked unit before (before.addUnit graph index unit) := by
  obtain ⟨hknown, hresult⟩ := reads_readSubprograms graph index unit.fault unit.subprograms asked
  beta_reduce at hknown hresult
  rw [Extraction.addUnit, hbefore]
  generalize readSubprograms graph index unit.fault (graph.remembered asked) unit.subprograms = read
    at hknown hresult
  obtain ⟨result, known⟩ := read
  change known = graph.remembered (asked ++ askedIn index unit.encounters) at hknown
  change match unit.firstFault? with
    | some fault => result = .error fault
    | none => ∃ found, result = .ok found ∧ Gathers graph index asked unit.subprograms found
    at hresult
  cases hfault : unit.firstFault? with
  | some fault =>
      simp only [hfault] at hresult
      subst hresult
      refine ⟨hknown, fun other hother => ?_, fun hnone => absurd hnone (by simp [hfault])⟩
      obtain rfl := Option.some.inj (hfault.symm.trans hother)
      exact ⟨rfl, rfl⟩
  | none =>
      simp only [hfault] at hresult
      obtain ⟨found, rfl, gathers⟩ := hresult
      exact ⟨hknown, fun fault hsome => absurd hsome (by simp [hfault]),
        fun _ => ⟨rfl, found, gathers, rfl⟩⟩

/-- Units add all that those without a fault define, and a note for each of the others. -/
theorem collects_addUnits (graph : TypeGraph) (index : Nat) (asked : Asked)
    (units : List UnitEntries) (before : Extraction)
    (hbefore : before.known = graph.remembered asked) :
    (∃ found, Collects graph index asked units found ∧
      (before.addUnits graph index units).functions = addFunctions before.functions found) ∧
    (before.addUnits graph index units).sink =
      (unitNotes index units).foldl (fun sink note => sink.record .debugInfo note) before.sink := by
  induction units generalizing index asked before with
  | nil => exact ⟨⟨[], .nil index asked, rfl⟩, rfl⟩
  | cons unit units ih =>
      have adds := adds_addUnit hbefore index unit
      obtain ⟨⟨more, collects, hfunctions⟩, hsink⟩ := ih (index + 1) _ _ adds.known
      rw [Extraction.addUnits, unitNotes_cons, List.foldl_append, hsink, hfunctions]
      cases hfault : unit.firstFault? with
      | some fault =>
          obtain ⟨hsame, hnoted⟩ := adds.faulty fault hfault
          exact ⟨⟨more, .faulty (by simp [hfault]) collects, by rw [hsame]⟩, by rw [hnoted]; rfl⟩
      | none =>
          obtain ⟨hsame, found, gathers, hadded⟩ := adds.whole hfault
          refine ⟨⟨found ++ more, .whole hfault gathers collects, ?_⟩, by rw [hsame]; rfl⟩
          rw [hadded, addFunctions_append]

end LibSurvey.DebugInfo
