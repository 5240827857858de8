import LibSurvey.DebugInfo.Extraction
import LibSurvey.Proofs.DebugInfo.Remembered

/-!
What functions read from debug information owe to those read before them. Reading threads what is known
of types through every function and every unit; where the limit is enough for every chain of types this
makes no difference, and only there.
-/

namespace LibSurvey.DebugInfo

namespace TypeGraph

variable {graph : TypeGraph} {α β : Type}

/-- Reading that gives the same whatever is known, as long as that is current, and keeps it current. -/
def Independent (graph : TypeGraph) (read : KnownTypes → α × KnownTypes) : Prop :=
  ∀ known, graph.Current known → (read known).1 = (read ∅).1 ∧ graph.Current (read known).2

theorem current_empty (graph : TypeGraph) : graph.Current ∅ :=
  fun node category h => absurd h (by simp [find?_empty])

theorem Independent.pure (a : α) : graph.Independent (fun known => (a, known)) :=
  fun _ current => ⟨rfl, current⟩

/-- One thing read after another, unless the first is at fault. -/
def andThen (first : KnownTypes → Reading α × KnownTypes)
    (next : α → KnownTypes → Reading β × KnownTypes) (known : KnownTypes) :
    Reading β × KnownTypes :=
  match first known with
  | (.error fault, known) => (.error fault, known)
  | (.ok a, known) => next a known

theorem Independent.andThen {first : KnownTypes → Reading α × KnownTypes}
    {next : α → KnownTypes → Reading β × KnownTypes} (hfirst : graph.Independent first)
    (hnext : ∀ a, graph.Independent (next a)) : graph.Independent (andThen first next) := by
  intro known current
  obtain ⟨hresult, hknown⟩ := hfirst known current
  have hempty := (hfirst ∅ graph.current_empty).2
  unfold TypeGraph.andThen
  -- Both sides take the same way, from what is known on it, which is current on both.
  cases hone : first known with
  | mk result after =>
      cases htwo : first ∅ with
      | mk other started =>
          rw [hone, htwo] at hresult
          rw [hone] at hknown
          rw [htwo] at hempty
          obtain rfl : result = other := hresult
          cases result with
          | error fault => exact ⟨rfl, hknown⟩
          | ok a =>
              have hafter := hnext a after hknown
              have hstarted := hnext a started hempty
              exact ⟨hafter.1.trans hstarted.1.symm, hafter.2⟩

/-- A result in place of another that was read from the same. -/
theorem Independent.map {read : KnownTypes → α × KnownTypes} (h : graph.Independent read)
    (f : α → β) : graph.Independent (fun known => (f (read known).1, (read known).2)) :=
  fun known current => ⟨congrArg f (h known current).1, (h known current).2⟩

theorem readParams_cons (graph : TypeGraph) (unit : Nat) (fault : Option ReadFault)
    (known : KnownTypes) (child : Child) (rest : List Child) :
    readParams graph unit fault known (child :: rest) =
      andThen (fun known => readParam graph unit known child) (fun param =>
        andThen (fun known => readParams graph unit fault known rest) fun params known =>
          (.ok (param.toList ++ params), known)) known := by
  rw [readParams, andThen]
  cases readParam graph unit known child with
  | mk result after =>
      cases result with
      | error fault => rfl
      | ok param =>
          simp only [andThen]
          cases readParams graph unit fault after rest with
          | mk result _ => cases result <;> rfl

theorem readSubprograms_cons (graph : TypeGraph) (unit : Nat) (fault : Option ReadFault)
    (known : KnownTypes) (entry : Subprogram) (rest : List Subprogram) :
    readSubprograms graph unit fault known (entry :: rest) =
      andThen (fun known => readSubprogram graph unit known entry) (fun found =>
        andThen (fun known => readSubprograms graph unit fault known rest) fun more known =>
          (.ok (found.toList ++ more), known)) known := by
  rw [readSubprograms, andThen]
  cases readSubprogram graph unit known entry with
  | mk result after =>
      cases result with
      | error fault => rfl
      | ok found =>
          simp only [andThen]
          cases readSubprograms graph unit fault after rest with
          | mk result _ => cases result <;> rfl

/-- An entry that defines a function: its return type is read first, then its parameters. -/
theorem readSubprogram_defined {entry : Subprogram} {name : String}
    {returnType : Option TypeReference} (hdeclaration : entry.isDeclaration = .ok false)
    (hname : entry.name = .ok (some name)) (htype : entry.returnType = .ok returnType)
    (graph : TypeGraph) (unit : Nat) (known : KnownTypes) :
    readSubprogram graph unit known entry =
      andThen (fun known => ((.ok (resolveType graph unit known .void returnType).1 :
          Reading TypeCategory), (resolveType graph unit known .void returnType).2))
        (fun category => andThen
          (fun known => readParams graph unit entry.childFault known entry.children)
          fun params known => (.ok (some (name, ⟨category.name, params⟩)), known)) known := by
  rw [readSubprogram, hdeclaration, hname, htype]
  simp only [andThen]
  cases readParams graph unit entry.childFault (resolveType graph unit known .void returnType).2
    entry.children with
  | mk result _ => cases result <;> rfl

section Short

variable (short : ∀ unit reference, graph.Suffices maxChain unit reference) (unit : Nat)
include short

theorem independent_resolveType (absent : TypeCategory) (reference : Option TypeReference) :
    graph.Independent (fun known => resolveType graph unit known absent reference) := by
  cases reference with
  | none => exact .pure absent
  | some reference =>
      exact fun known current =>
        current.resolveWithin short (short unit reference) (Nat.le_refl maxChain)

theorem independent_readParam (child : Child) :
    graph.Independent (fun known => readParam graph unit known child) := by
  match child with
  | .other => exact .pure _
  | .variadic => exact .pure _
  | .parameter (.error fault) type => exact .pure _
  | .parameter (.ok name) (.error fault) => exact .pure _
  | .parameter (.ok name) (.ok type) =>
      exact (independent_resolveType short unit .unknown type).map fun category =>
        (.ok (some ⟨category.name, name⟩) : Reading (Option Param))

theorem independent_readParams (fault : Option ReadFault) (children : List Child) :
    graph.Independent (fun known => readParams graph unit fault known children) := by
  induction children with
  | nil => cases fault <;> exact .pure _
  | cons child rest ih =>
      simp only [readParams_cons]
      exact (independent_readParam short unit child).andThen fun param =>
        ih.andThen fun params => .pure _

theorem independent_readSubprogram (entry : Subprogram) :
    graph.Independent (fun known => readSubprogram graph unit known entry) := by
  cases hdeclaration : entry.isDeclaration with
  | error fault => simpa only [readSubprogram, hdeclaration] using .pure _
  | ok declaration =>
      cases declaration with
      | true => simpa only [readSubprogram, hdeclaration] using .pure _
      | false =>
          cases hname : entry.name with
          | error fault => simpa only [readSubprogram, hdeclaration, hname] using .pure _
          | ok name =>
              cases name with
              | none => simpa only [readSubprogram, hdeclaration, hname] using .pure _
              | some name =>
                  cases htype : entry.returnType with
                  | error fault =>
                      simpa only [readSubprogram, hdeclaration, hname, htype] using .pure _
                  | ok returnType =>
                      simp only [readSubprogram_defined hdeclaration hname htype]
                      exact ((independent_resolveType short unit .void returnType).map
                        Except.ok).andThen fun category =>
                          (independent_readParams short unit entry.childFault
                            entry.children).andThen fun params => .pure _

theorem independent_readSubprograms (fault : Option ReadFault) (entries : List Subprogram) :
    graph.Independent (fun known => readSubprograms graph unit fault known entries) := by
  induction entries with
  | nil => cases fault <;> exact .pure _
  | cons entry rest ih =>
      simp only [readSubprograms_cons]
      exact (independent_readSubprogram short unit entry).andThen fun found =>
        ih.andThen fun more => .pure _

theorem current_addUnit {extraction : Extraction} (current : graph.Current extraction.known)
    (index : Nat) (entries : UnitEntries) :
    graph.Current (extraction.addUnit graph index entries).known := by
  have hread : graph.Current (readSubprograms graph index entries.fault extraction.known
      entries.subprograms).2 :=
    (independent_readSubprograms short index entries.fault entries.subprograms _ current).2
  rw [Extraction.addUnit]
  cases hresult : readSubprograms graph index entries.fault extraction.known
      entries.subprograms with
  | mk result known =>
      rw [hresult] at hread
      cases result <;> exact hread

theorem current_addUnits {extraction : Extraction} (current : graph.Current extraction.known)
    (index : Nat) (units : List UnitEntries) :
    graph.Current (Extraction.addUnits graph extraction index units).known := by
  induction units generalizing extraction index with
  | nil => exact current
  | cons entries units ih => exact ih (current_addUnit short current index entries) (index + 1)

end Short

/-- A category found after any references is the end of its chain or unknown. It is the one found with
nothing known, whatever was resolved before, exactly if 32 entries are enough for every chain; no
function is then read otherwise for the functions and units before it. -/
theorem resolve_remembered (graph : TypeGraph) :
    (∀ queries unit reference, graph.Sound unit reference
      (graph.resolve (graph.remembered queries) unit reference).1) ∧
    ((∀ queries unit reference, (graph.resolve (graph.remembered queries) unit reference).1 =
        (graph.resolve ∅ unit reference).1) ↔
      ∀ unit reference, graph.Suffices 32 unit reference) ∧
    ((∀ unit reference, graph.Suffices 32 unit reference) →
      ∀ sink units index before entry,
        (readSubprogram graph index (readSubprograms graph index none
          (Extraction.addUnits graph ⟨∅, ∅, sink⟩ 0 units).known before).2 entry).1 =
        (readSubprogram graph index ∅ entry).1) := by
  refine ⟨?_, ⟨?_, ?_⟩, ?_⟩
  · intro queries unit reference
    exact (truthful_remembered graph queries).resolveWithin.1
  · intro independent unit reference n category ends hcategory
    refine Nat.le_of_not_lt fun hlong => ?_
    -- The last 33 entries of a longer chain are a chain as well.
    obtain ⟨unit, reference, ends⟩ := exists_ends ends hlong
    obtain ⟨unit', reference', hdiffers⟩ := resolve_differs ends hcategory
    exact hdiffers (independent _ unit' reference')
  · intro short queries unit reference
    exact ((current_remembered short queries).resolveWithin short (short unit reference)
      (Nat.le_refl maxChain)).1
  · intro short sink units index before entry
    have hstart : graph.Current (Extraction.known ⟨∅, ∅, sink⟩) := graph.current_empty
    have hunits := current_addUnits short hstart 0 units
    have hbefore := (independent_readSubprograms short index none before _ hunits).2
    exact (independent_readSubprogram short index entry _ hbefore).1

/-- A function without parameters that returns the type at an offset. -/
def returning (name : String) (offset : Nat) : Subprogram where
  isDeclaration := .ok false
  name := .ok (some name)
  returnType := .ok (some (.inUnit offset))
  children := []
  childFault := none

/-- Typedefs in a row down to an integer, each at the offset before that of its type. -/
def tower (last : Nat) : TypeGraph :=
  [{ start := none
     entriesStart := 1
     entriesStop := last + 1
     typeSignature := none
     entry? := fun offset =>
      if offset < last then some (.wrapper (some (.inUnit (offset + 1))))
      else some (.base (some "int")) }]

theorem tower_below {last : Nat} {node : TypeNode} {inner : TypeReference}
    (h : TypeGraph.entry? (tower last) node = some (.wrapper (some inner))) :
    node.2 < last ∧ inner = .inUnit (node.2 + 1) := by
  obtain ⟨unit, offset⟩ := node
  cases unit with
  | succ unit => simp [TypeGraph.entry?, tower] at h
  | zero =>
      by_cases hoffset : offset < last
      · simp [TypeGraph.entry?, tower, hoffset] at h
        exact ⟨hoffset, h.symm⟩
      · simp [TypeGraph.entry?, tower, hoffset] at h

/-- A chain in a tower has no more entries than there are from its head to the integer. -/
theorem Ends.length_tower {last unit n : Nat} {reference : TypeReference} {category : TypeCategory}
    (ends : (tower last).Ends unit reference n category) :
    ∀ offset, reference = .inUnit offset → n ≤ 1 + (last - offset) := by
  induction ends with
  | lost h => exact fun _ _ => Nat.zero_le _
  | final refers final => exact fun _ _ => Nat.le_add_right 1 _
  | @next unit reference inner node n category refers entry rest ih =>
      intro offset hreference
      subst hreference
      obtain rfl : node = (unit, offset) := refers
      obtain ⟨hoffset, hinner⟩ := tower_below entry
      have hbelow : offset < last := hoffset
      have hrest := ih (offset + 1) hinner
      omega

theorem suffices_tower (last unit : Nat) (reference : TypeReference) :
    (tower last).Suffices (last + 1) unit reference := by
  intro n category ends _
  cases ends with
  | lost h => exact Nat.zero_le _
  | final refers final => exact Nat.le_add_left 1 last
  | @next _ _ inner node n _ refers entry rest =>
      obtain ⟨hbelow, hinner⟩ := tower_below entry
      have hrest := rest.length_tower (node.2 + 1) hinner
      omega

/-- Two typedefs in a row: the inner one is remembered after the outer, as what it is anyway. -/
theorem resolve_remembered_tower :
    (∀ unit reference, (tower 3).Suffices 32 unit reference) ∧
    ((tower 3).remembered [(0, .inUnit 1)]).find? (0, 2) = some .int ∧
    ((tower 3).resolve ((tower 3).remembered [(0, .inUnit 1)]) 0 (.inUnit 2)).1 =
      ((tower 3).resolve ∅ 0 (.inUnit 2)).1 ∧
    (readSubprogram (tower 3) 0 (readSubprograms (tower 3) 0 none ∅ [returning "f" 1]).2
      (returning "g" 2)).1 = (readSubprogram (tower 3) 0 ∅ (returning "g" 2)).1 ∧
    (readSubprogram (tower 3) 0 ∅ (returning "g" 2)).1 = .ok (some ("g", ⟨"int", []⟩)) := by
  have short : ∀ unit reference, (tower 3).Suffices 32 unit reference := by
    intro unit reference n category ends known
    exact Nat.le_trans (suffices_tower 3 unit reference n category ends known) (by decide)
  obtain ⟨-, hiff, hfunctions⟩ := resolve_remembered (tower 3)
  refine ⟨short, rfl, hiff.mpr short _ 0 (.inUnit 2), ?_, rfl⟩
  exact hfunctions short (.empty true) [] 0 [returning "f" 1] (returning "g" 2)

/-- The second of 32 typedefs in a row is an integer, but not once the first has been resolved, which is
one entry too far from its end. A function that returns the second is read otherwise after one that
returns the first, and that one is an integer too if it comes later. -/
theorem resolve_tower :
    ((tower 33).resolve ∅ 0 (.inUnit 2)).1 = .int ∧
    ((tower 33).resolve ((tower 33).remembered [(0, .inUnit 1)]) 0 (.inUnit 2)).1 = .unknown ∧
    (extract (tower 33) [⟨[returning "g" 2], none⟩] (.empty true)).1["g"]? = some ⟨"int", []⟩ ∧
    (extract (tower 33) [⟨[returning "f" 1, returning "g" 2], none⟩] (.empty true)).1["g"]? =
      some ⟨"unknown", []⟩ ∧
    (extract (tower 33) [⟨[returning "f" 1], none⟩] (.empty true)).1["f"]? = some ⟨"unknown", []⟩ ∧
    (extract (tower 33) [⟨[returning "g" 2, returning "f" 1], none⟩] (.empty true)).1["f"]? =
      some ⟨"int", []⟩ := by
  decide +kernel

end TypeGraph
end LibSurvey.DebugInfo
