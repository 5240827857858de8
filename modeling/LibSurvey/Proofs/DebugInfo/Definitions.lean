import LibSurvey.Proofs.DebugInfo.Units
import LibSurvey.Proofs.Distinct

/-!
All that debug information gives: a function for every name that a unit without a fault defines, with
the signature of the first definition, and a note for every unit with a fault. A type that cannot be
read is unknown and costs nothing else. Whether a fault in the bytes is met remains a separate
obligation.
-/

namespace LibSurvey.DebugInfo

section Lookup

variable {graph : TypeGraph} {unit : Nat} {asked : Asked} {name : String} {signature : Signature}

theorem Subprogram.Defines.name_eq {entry : Subprogram} {other : String}
    (h : entry.Defines name) (h' : entry.Defines other) : name = other := by
  simpa using h.named.symm.trans h'.named

theorem Yields.lookup_eq_none {entry : Subprogram} {found : Option (String × Signature)}
    (yields : Yields graph unit asked entry found) :
    found.toList.lookup name = none ↔ ¬entry.Defines name := by
  cases yields with
  | silent silent => simp [silent name]
  | @function other signature defines signs =>
      rw [Option.toList_some, List.lookup_eq_none_iff]
      constructor
      · intro h defined
        obtain rfl := defines.name_eq defined
        simp at h
      · rintro undefined pair hpair
        obtain rfl := List.mem_singleton.mp hpair
        have hne : name ≠ other := fun h => undefined (h ▸ defines)
        simpa using hne

theorem Yields.lookup_eq_some {entry : Subprogram} {found : Option (String × Signature)}
    (yields : Yields graph unit asked entry found)
    (h : found.toList.lookup name = some signature) :
    entry.Defines name ∧ Signs graph unit asked entry signature := by
  cases yields with
  | silent silent => simp at h
  | @function other found defines signs =>
      rw [Option.toList_some, List.lookup_cons] at h
      split at h
      next hname =>
          obtain rfl : name = other := by simpa using hname
          exact ⟨defines, Option.some.inj h ▸ signs⟩
      · simp at h

theorem Gathers.lookup_eq_none {entries : List Subprogram} {found : List (String × Signature)}
    (gathers : Gathers graph unit asked entries found) :
    found.lookup name = none ↔ ∀ entry ∈ entries, ¬entry.Defines name := by
  induction gathers with
  | nil => simp
  | cons yields _ ih =>
      rw [List.lookup_append, Option.or_eq_none_iff, yields.lookup_eq_none, ih, List.forall_mem_cons]

/-- Of several entries that define a name the first counts. -/
theorem Gathers.lookup_eq_some {entries : List Subprogram} {found : List (String × Signature)}
    (gathers : Gathers graph unit asked entries found) (h : found.lookup name = some signature) :
    ∃ before entry after, entries = before ++ entry :: after ∧
      (∀ earlier ∈ before, ¬earlier.Defines name) ∧ entry.Defines name ∧
      Signs graph unit (asked ++ before.flatMap fun earlier => askedIn unit earlier.encounters)
        entry signature := by
  induction gathers with
  | nil => simp at h
  | @cons asked entry entries found more yields gathers ih =>
      rw [List.lookup_append, Option.or_eq_some_iff] at h
      rcases h with hfirst | ⟨hnone, hlater⟩
      · obtain ⟨defines, signs⟩ := yields.lookup_eq_some hfirst
        exact ⟨[], entry, entries, rfl, by simp, defines, by simpa using signs⟩
      · obtain ⟨before, later, after, rfl, undefined, defines, signs⟩ := ih hlater
        refine ⟨entry :: before, later, after, rfl, ?_, defines, ?_⟩
        · exact List.forall_mem_cons.mpr ⟨yields.lookup_eq_none.mp hnone, undefined⟩
        · simpa using signs

/-- A unit whose walk meets no fault and that has an entry which defines the name. -/
def UnitEntries.Defines (entries : UnitEntries) (name : String) : Prop :=
  entries.firstFault? = none ∧ ∃ entry ∈ entries.subprograms, entry.Defines name

theorem Collects.lookup_eq_none {index : Nat} {units : List UnitEntries}
    {found : List (String × Signature)} (collects : Collects graph index asked units found) :
    found.lookup name = none ↔ ∀ entries ∈ units, ¬entries.Defines name := by
  induction collects with
  | nil => simp
  | whole sound gathers _ ih =>
      rw [List.lookup_append, Option.or_eq_none_iff, gathers.lookup_eq_none, ih,
        List.forall_mem_cons]
      simp [UnitEntries.Defines, sound]
  | faulty faulty _ ih =>
      rw [ih, List.forall_mem_cons]
      simp [UnitEntries.Defines, faulty]

/-- The first definition of a name: the first in the first unit that defines it. -/
structure FirstDefinition (units : List UnitEntries) (name : String) where
  before : List UnitEntries
  entries : UnitEntries
  after : List UnitEntries
  earlier : List Subprogram
  entry : Subprogram
  later : List Subprogram
  units_eq : units = before ++ entries :: after
  subprograms_eq : entries.subprograms = earlier ++ entry :: later
  whole : entries.firstFault? = none
  defines : entry.Defines name
  undefined_before : ∀ other ∈ before, ¬other.Defines name
  undefined_earlier : ∀ other ∈ earlier, ¬other.Defines name

/-- The references that are looked up before the definition, where the first unit has this number. -/
def FirstDefinition.askedBefore {units : List UnitEntries} (index : Nat)
    (first : FirstDefinition units name) : Asked :=
  askedFrom index first.before ++
    first.earlier.flatMap fun entry => askedIn (index + first.before.length) entry.encounters

/-- The same definition after one more unit, which does not define the name. -/
def FirstDefinition.cons {units : List UnitEntries} (first : FirstDefinition units name)
    (entries : UnitEntries) (h : ¬entries.Defines name) :
    FirstDefinition (entries :: units) name where
  before := entries :: first.before
  entries := first.entries
  after := first.after
  earlier := first.earlier
  entry := first.entry
  later := first.later
  units_eq := congrArg (entries :: ·) first.units_eq
  subprograms_eq := first.subprograms_eq
  whole := first.whole
  defines := first.defines
  undefined_before := List.forall_mem_cons.mpr ⟨h, first.undefined_before⟩
  undefined_earlier := first.undefined_earlier

theorem FirstDefinition.signs_cons {units : List UnitEntries} {index : Nat}
    {entries : UnitEntries} (first : FirstDefinition units name) (h : ¬entries.Defines name)
    (signs : Signs graph (index + 1 + first.before.length)
      (asked ++ askedIn index entries.encounters ++ first.askedBefore (index + 1)) first.entry
        signature) :
    Signs graph (index + (first.cons entries h).before.length)
      (asked ++ (first.cons entries h).askedBefore index) (first.cons entries h).entry signature := by
  have hindex : index + (first.before.length + 1) = index + 1 + first.before.length := by omega
  simpa [FirstDefinition.askedBefore, FirstDefinition.cons, askedFrom_cons, hindex] using signs

theorem Collects.lookup_eq_some {index : Nat} {units : List UnitEntries}
    {found : List (String × Signature)} (collects : Collects graph index asked units found)
    (h : found.lookup name = some signature) :
    ∃ first : FirstDefinition units name,
      Signs graph (index + first.before.length) (asked ++ first.askedBefore index) first.entry
        signature := by
  induction collects with
  | nil => simp at h
  | @whole index asked entries units found more sound gathers collects ih =>
      rw [List.lookup_append, Option.or_eq_some_iff] at h
      rcases h with hhere | ⟨hnone, hlater⟩
      · obtain ⟨before, entry, after, hsplit, undefined, defines, signs⟩ :=
          gathers.lookup_eq_some hhere
        exact ⟨⟨[], entries, units, before, entry, after, rfl, hsplit, sound, defines,
          by simp, undefined⟩, by simpa [FirstDefinition.askedBefore, askedFrom] using signs⟩
      · obtain ⟨first, signs⟩ := ih hlater
        have undefined : ¬entries.Defines name := by
          rintro ⟨-, entry, hmem, defines⟩
          exact gathers.lookup_eq_none.mp hnone entry hmem defines
        exact ⟨first.cons entries undefined, first.signs_cons undefined signs⟩
  | @faulty index asked entries units found faulty collects ih =>
      obtain ⟨first, signs⟩ := ih h
      have undefined : ¬entries.Defines name := fun h => faulty h.1
      exact ⟨first.cons entries undefined, first.signs_cons undefined signs⟩

theorem FirstDefinition.isFirst_entries {units : List UnitEntries}
    (first : FirstDefinition units name) : IsFirst (·.Defines name) units first.entries := by
  have listed : first.entry ∈ first.entries.subprograms := by
    rw [first.subprograms_eq]
    exact List.mem_append_right _ (List.mem_cons_self ..)
  exact ⟨⟨first.whole, first.entry, listed, first.defines⟩, first.before, first.after,
    first.units_eq, first.undefined_before⟩

/-- There is one first definition only. -/
theorem FirstDefinition.entry_eq {units : List UnitEntries}
    (first other : FirstDefinition units name) : first.entry = other.entry := by
  have hentries := first.isFirst_entries.unique other.isFirst_entries
  have here : IsFirst (·.Defines name) first.entries.subprograms first.entry :=
    ⟨first.defines, first.earlier, first.later, first.subprograms_eq, first.undefined_earlier⟩
  have there : IsFirst (·.Defines name) first.entries.subprograms other.entry :=
    ⟨other.defines, other.earlier, other.later, hentries ▸ other.subprograms_eq,
      other.undefined_earlier⟩
  exact here.unique there

/-- The names of parameters do not depend on types. -/
theorem Lists.names_eq {other : TypeGraph} {unit' : Nat} {asked' : Asked} {children : List Child}
    {params params' : List Param} (lists : Lists graph unit asked children params)
    (lists' : Lists other unit' asked' children params') :
    params.map (·.name) = params'.map (·.name) := by
  induction lists generalizing asked' params' with
  | nil =>
      cases lists'
      rfl
  | cons describes _ ih =>
      cases lists' with
      | cons describes' lists' =>
          rw [List.map_append, List.map_append, ih lists']
          cases describes <;> cases describes' <;> rfl

end Lookup

theorem Final.unique {entry : Option TypeEntry} {category other : TypeCategory}
    (final : Final entry category) (final' : Final entry other) : category = other := by
  cases final <;> cases final' <;> rfl

namespace TypeGraph

variable {graph : TypeGraph} {unit n m : Nat} {reference : TypeReference}
  {category other : TypeCategory}

/-- A chain has one end. -/
theorem Ends.unique (ends : graph.Ends unit reference n category)
    (ends' : graph.Ends unit reference m other) : category = other := by
  induction ends generalizing m with
  | lost h =>
      cases ends' with
      | lost _ => rfl
      | final refers _ => exact absurd refers (h _)
      | next refers _ _ => exact absurd refers (h _)
  | final refers final =>
      cases ends' with
      | lost h => exact absurd refers (h _)
      | final refers' final' =>
          obtain rfl := refers_unique refers refers'
          exact final.unique final'
      | next refers' entry _ =>
          obtain rfl := refers_unique refers refers'
          rw [entry] at final
          cases final
  | next refers entry _ ih =>
      cases ends' with
      | lost h => exact absurd refers (h _)
      | final refers' final =>
          obtain rfl := refers_unique refers refers'
          rw [entry] at final
          cases final
      | next refers' entry' ends =>
          obtain rfl := refers_unique refers refers'
          rw [entry] at entry'
          cases entry'
          exact ih ends

/-- A type whose chain cannot be read to its end is unknown, whatever is remembered. -/
theorem resolve_unknown (ends : graph.Ends unit reference n .unknown)
    (queries : List (Nat × TypeReference)) :
    (graph.resolve (graph.remembered queries) unit reference).1 = .unknown := by
  have sound : graph.Sound unit reference
      (graph.resolve (graph.remembered queries) unit reference).1 :=
    (truthful_remembered graph queries).resolveWithin.1
  rcases sound with hunknown | ⟨m, ends'⟩
  · exact hunknown
  · exact ends'.unique ends

end TypeGraph

section Extract

variable (graph : TypeGraph) (units : List UnitEntries) (sink : Diagnostics)

theorem extract_functions : ∃ found, Collects graph 0 [] units found ∧
    ∀ name : String, (extract graph units sink).1[name]? = found.lookup name := by
  obtain ⟨⟨found, collects, hfunctions⟩, -⟩ :=
    collects_addUnits graph 0 [] units ⟨∅, ∅, sink⟩ rfl
  refine ⟨found, collects, fun name => ?_⟩
  rw [extract, hfunctions, addFunctions_getElem?]
  simp

theorem mem_extract (name : String) :
    name ∈ (extract graph units sink).1 ↔ ∃ entries ∈ units, entries.Defines name := by
  obtain ⟨found, collects, hfunctions⟩ := extract_functions graph units sink
  rw [Std.TreeMap.mem_iff_isSome_getElem?, hfunctions, Option.isSome_iff_ne_none, ne_eq,
    collects.lookup_eq_none]
  simp

theorem exists_first {name : String} {signature : Signature}
    (h : (extract graph units sink).1[name]? = some signature) :
    ∃ first : FirstDefinition units name,
      Signs graph first.before.length (first.askedBefore 0) first.entry signature := by
  obtain ⟨found, collects, hfunctions⟩ := extract_functions graph units sink
  obtain ⟨first, signs⟩ := collects.lookup_eq_some ((hfunctions name).symm.trans h)
  exact ⟨first, by simpa using signs⟩

theorem extract_notes : (extract graph units sink).2 = { sink with
    entries := sink.entries ++ if sink.enabled then
      (unitNotes 0 units).map (Diagnostic.mk .debugInfo) else [] } := by
  obtain ⟨-, hsink⟩ := collects_addUnits graph 0 [] units ⟨∅, ∅, sink⟩ rfl
  exact hsink.trans (Diagnostics.foldl_record _ _ _)

end Extract

end LibSurvey.DebugInfo
