import LibSurvey.Proofs.Constant.Unknown
import LibSurvey.Proofs.Findings

/-!
What emissions record, told by the history of the single things they ask for. Each value in the history
is judged by what stands before it there, and what has been recorded in the end is read off the whole:
constants and macros by their last entry, functions by their first.
-/

namespace LibSurvey.Findings
open Text (Spaced)

/-- One thing that emissions ask to record. An enumerator without an expression is counted on from the
one before it. -/
inductive Entry where
  | defined (name expression : String)
  | counted (name : String) (first : Bool)
  | functionMacro (name : String) (definition : MacroDefinition)
  | function (name : String) (signature : Signature)
  | included (name : String)

/-- The entries of enumerators; `first` says that none stands before them. -/
def enumeratorEntries (first : Bool) : List Enumerator → List Entry
  | [] => []
  | item :: rest =>
    (match item.value with
      | some expression => .defined item.name expression
      | none => .counted item.name first) :: enumeratorEntries false rest

def entries : Emission → List Entry
  | .included name => [.included name]
  | .constant name expression => [.defined name expression]
  | .functionMacro name definition => [.functionMacro name definition]
  | .enumeration items => enumeratorEntries true items
  | .function name signature => [.function name signature]

/-- Entries in the order in which they are reached, each with the value it gave to a constant. -/
abbrev History := List (Entry × Option Int64)

namespace History

/-- The constants that got a value. -/
def constants (history : History) : List (String × Int64) :=
  history.filterMap fun
    | (.defined name _, some value) | (.counted name _, some value) => some (name, value)
    | _ => none

def macros (history : History) : List (String × MacroDefinition) :=
  history.filterMap fun
    | (.functionMacro name definition, _) => some (name, definition)
    | _ => none

def functions (history : History) : List (String × Signature) :=
  history.filterMap fun
    | (.function name signature, _) => some (name, signature)
    | _ => none

/-- A diagnostic for each expression without a value. -/
def failures (history : History) : List Diagnostic :=
  history.filterMap fun
    | (.defined name expression, none) =>
      some ⟨.evaluate, name ++ ": " ++ (Failure.unresolvableExpression
        (String.ofList (Text.trim expression.toList))).message⟩
    | _ => none

theorem constants_append (a b : History) : constants (a ++ b) = a.constants ++ b.constants :=
  List.filterMap_append

theorem macros_append (a b : History) : macros (a ++ b) = a.macros ++ b.macros :=
  List.filterMap_append

theorem functions_append (a b : History) : functions (a ++ b) = a.functions ++ b.functions :=
  List.filterMap_append

theorem failures_append (a b : History) : failures (a ++ b) = a.failures ++ b.failures :=
  List.filterMap_append

/-- What the value of an entry is after the entries before it. -/
def Gives (start : SignatureSet) (before : History) (value : Option Int64) : Entry → Prop
  | .defined _ expression =>
    value = (Expression.evaluate (start.constants.insertMany before.constants)
      (start.macros.insertMany before.macros) expression).toOption
  | .counted _ true => value = some 0
  | .counted _ false => ∃ entry previous, before.getLast? = some (entry, previous) ∧
    ∀ v, value = some v ↔ ∃ u, previous = some u ∧ v.toInt = u.toInt + 1
  | _ => value = none

/-- Every entry has the value that those before it give. -/
def Lawful (start : SignatureSet) (history : History) : Prop :=
  ∀ before entry value after, history = before ++ (entry, value) :: after →
    Gives start before value entry

theorem lawful_nil (start : SignatureSet) : Lawful start [] := by
  intro before entry value after h
  simp at h

theorem Lawful.snoc {start : SignatureSet} {history : History} (lawful : Lawful start history)
    {entry : Entry} {value : Option Int64} (gives : Gives start history value entry) :
    Lawful start (history ++ [(entry, value)]) := by
  intro before entry' value' after h
  rcases List.eq_nil_or_concat after with rfl | ⟨after, last, rfl⟩
  · obtain ⟨rfl, hlast⟩ := List.append_inj' h rfl
    cases hlast
    exact gives
  · have hsplit : history ++ [(entry, value)] =
        (before ++ (entry', value') :: after) ++ [last] := by simpa using h
    exact lawful before entry' value' after (List.append_inj' hsplit rfl).1

end History

/-- How a session stands after a history. -/
structure Tells (start : Findings) (history : History) (now : Findings) : Prop where
  lawful : history.Lawful start.signatures
  constants : now.signatures.constants = start.signatures.constants.insertMany history.constants
  macros : now.signatures.macros = start.signatures.macros.insertMany history.macros
  functions : ∀ name, now.signatures.functions[name]? =
    start.signatures.functions[name]?.or (history.functions.lookup name)
  diagnostics : now.diagnostics = ⟨start.diagnostics.enabled,
    start.diagnostics.entries ++ if start.diagnostics.enabled then history.failures else []⟩

theorem tells_nil (start : Findings) : Tells start [] start where
  lawful := History.lawful_nil _
  constants := Std.TreeMap.insertMany_nil.symm
  macros := Std.TreeMap.insertMany_nil.symm
  functions name := by simp [History.functions]
  diagnostics := by simp [History.failures]

variable {start now : Findings} {history : History}

/-- An entry that gives a constant its value. -/
theorem Tells.define (h : Tells start history now) {entry : Entry} {name : String}
    (hentry : (∃ expression, entry = .defined name expression) ∨
      ∃ first, entry = .counted name first)
    {value : Int64} (gives : History.Gives start.signatures history (some value) entry) :
    Tells start (history ++ [(entry, some value)]) (now.define name (some value)) where
  lawful := h.lawful.snoc gives
  constants := by
    rw [Findings.define, SignatureSet.defineConstant, h.constants]
    rcases hentry with ⟨expression, rfl⟩ | ⟨first, rfl⟩ <;>
      simp [History.constants, Std.TreeMap.insertMany_append]
  macros := by
    rw [Findings.define, SignatureSet.defineConstant, h.macros]
    rcases hentry with ⟨expression, rfl⟩ | ⟨first, rfl⟩ <;> simp [History.macros]
  functions other := by
    rw [Findings.define, SignatureSet.defineConstant, h.functions]
    rcases hentry with ⟨expression, rfl⟩ | ⟨first, rfl⟩ <;> simp [History.functions]
  diagnostics := by
    rw [Findings.define, h.diagnostics]
    rcases hentry with ⟨expression, rfl⟩ | ⟨first, rfl⟩ <;> simp [History.failures]

/-- An entry that leaves the sets as they are. -/
theorem Tells.pass (h : Tells start history now) {entry : Entry} (value : Option Int64)
    (gives : History.Gives start.signatures history value entry)
    (hconstants : History.constants [(entry, value)] = [])
    (hmacros : History.macros [(entry, value)] = [])
    (hfunctions : History.functions [(entry, value)] = [])
    (hfailures : History.failures [(entry, value)] = []) :
    Tells start (history ++ [(entry, value)]) now where
  lawful := h.lawful.snoc gives
  constants := by rw [History.constants_append, hconstants, List.append_nil, h.constants]
  macros := by rw [History.macros_append, hmacros, List.append_nil, h.macros]
  functions name := by rw [History.functions_append, hfunctions, List.append_nil, h.functions]
  diagnostics := by rw [History.failures_append, hfailures, List.append_nil, h.diagnostics]

theorem evaluate_eq_error {constants : ConstantSet} {macros : MacroSet} {expression : String}
    {failure : Failure} (h : Expression.evaluate constants macros expression = .error failure) :
    failure = .unresolvableExpression (String.ofList (Text.trim expression.toList)) := by
  unfold Expression.evaluate at h
  split at h
  · exact absurd h (by simp)
  · exact (Except.error.inj h).symm

theorem Tells.evaluate (h : Tells start history now) (name expression : String) :
    Tells start (history ++ [(Entry.defined name expression, (now.evaluate name expression).1)])
      ((now.evaluate name expression).2.define name (now.evaluate name expression).1) := by
  have hgives : History.Gives start.signatures history (now.evaluate name expression).1
      (.defined name expression) := by
    rw [History.Gives, evaluate_fst, SignatureSet.evaluate, h.constants, h.macros]
  unfold Findings.evaluate at hgives ⊢
  cases hvalue : now.signatures.evaluate expression with
  | ok value =>
      rw [hvalue] at hgives
      exact h.define (.inl ⟨expression, rfl⟩) hgives
  | error failure =>
      rw [hvalue] at hgives
      obtain rfl := evaluate_eq_error hvalue
      exact {
        lawful := h.lawful.snoc hgives
        constants := by simpa [History.constants, Findings.define, note] using h.constants
        macros := by simpa [History.macros, Findings.define, note] using h.macros
        functions := by simpa [History.functions, Findings.define, note] using h.functions
        diagnostics := by
          simp only [Findings.define, note, Diagnostics.record, h.diagnostics]
          cases start.diagnostics.enabled <;> simp [History.failures] }

/-- What an enumerator without an expression gets, after what stands before it. -/
def Counts (history : History) (first : Bool) (next : Option Int64) : Prop :=
  if first then next = some 0
  else ∃ entry previous, history.getLast? = some (entry, previous) ∧ next = successor? previous

theorem successor?_eq_some_iff {previous : Option Int64} {v : Int64} :
    successor? previous = some v ↔ ∃ u, previous = some u ∧ v.toInt = u.toInt + 1 := by
  cases previous with
  | none => simp [successor?]
  | some u =>
      by_cases hmax : u = Int64.maxValue
      · subst hmax
        have hv : v.toInt < 2 ^ 63 := Int64.toInt_lt v
        have hm : Int64.maxValue.toInt = 2 ^ 63 - 1 := by decide
        simp only [successor?, Option.bind_some, ite_true, reduceCtorEq, Option.some.injEq,
          exists_eq_left', hm, false_iff]
        omega
      · have hm : Int64.maxValue.toInt = 2 ^ 63 - 1 := by decide
        have hne : u.toInt ≠ 2 ^ 63 - 1 := fun h => hmax (Int64.toInt_inj.mp (h.trans hm.symm))
        have hu : u.toInt < 2 ^ 63 := Int64.toInt_lt u
        have hl : -2 ^ 63 ≤ u.toInt := Int64.le_toInt u
        have hone : (1 : Int64).toInt = 1 := by decide
        have hsum : (u + 1).toInt = u.toInt + 1 := by
          rw [Int64.toInt_add, hone]
          apply Int.bmod_eq_of_le <;> omega
        simp only [successor?, Option.bind_some, hmax, ite_false, Option.some.injEq, exists_eq_left']
        rw [← Int64.toInt_inj, hsum, eq_comm]

theorem Tells.count (h : Tells start history now) (name : String) {first : Bool}
    {next : Option Int64} (counts : Counts history first next) :
    Tells start (history ++ [(Entry.counted name first, next)]) (now.define name next) := by
  have hgives : History.Gives start.signatures history next (.counted name first) := by
    cases first with
    | true => exact counts
    | false =>
        obtain ⟨entry, previous, hlast, rfl⟩ := counts
        exact ⟨entry, previous, hlast, fun v => successor?_eq_some_iff⟩
  cases next with
  | some value => exact h.define (.inr ⟨first, rfl⟩) hgives
  | none => exact h.pass none hgives rfl rfl rfl rfl

/-- The run over one body: each enumerator continues from the value of the one before it. -/
theorem Tells.enumerate (h : Tells start history now) (items : List Enumerator) {first : Bool}
    {next : Option Int64} (counts : Counts history first next) :
    ∃ more : History, more.map Prod.fst = enumeratorEntries first items ∧
      Tells start (history ++ more) (now.enumerate next items) := by
  induction items generalizing history now first next with
  | nil => exact ⟨[], rfl, by simpa [Findings.enumerate] using h⟩
  | cons item items ih =>
      -- Whatever the first one gets is the last value of the history that the others see.
      have continued (entry : Entry) (value : Option Int64) :
          Counts (history ++ [(entry, value)]) false (successor? value) :=
        ⟨entry, value, by simp, rfl⟩
      unfold Findings.enumerate enumeratorEntries
      cases item.value with
      | some expression =>
          obtain ⟨more, hentries, hmore⟩ := ih (h.evaluate item.name expression) (continued _ _)
          exact ⟨(.defined item.name expression, _) :: more, by simp [hentries], by simpa using hmore⟩
      | none =>
          obtain ⟨more, hentries, hmore⟩ := ih (h.count item.name counts) (continued _ _)
          exact ⟨(.counted item.name first, next) :: more, by simp [hentries], by simpa using hmore⟩

theorem getElem?_insertIfNew {α : Type} (map : Std.TreeMap String α) (name : String) (value : α)
    (other : String) :
    (map.insertIfNew name value)[other]? = map[other]?.or ([(name, value)].lookup other) := by
  rw [Std.TreeMap.getElem?_insertIfNew]
  by_cases h : other = name
  · subst h
    by_cases hmem : other ∈ map
    · simp [hmem]
    · simp [hmem]
  · have hkey : (other == name) = false := beq_false_of_ne h
    simp [List.lookup_cons, hkey, Ne.symm h]

theorem Tells.applyOne (h : Tells start history now) (emission : Emission) :
    ∃ more : History, more.map Prod.fst = entries emission ∧
      Tells start (history ++ more) (now.applyOne emission) := by
  cases emission with
  | included name =>
      exact ⟨[(.included name, none)], rfl, h.pass none rfl rfl rfl rfl rfl⟩
  | constant name expression =>
      exact ⟨[(.defined name expression, _)], rfl, h.evaluate name expression⟩
  | enumeration items => exact h.enumerate items (show Counts history true (some 0) from rfl)
  | functionMacro name definition =>
      exact ⟨[(.functionMacro name definition, none)], rfl, {
        lawful := h.lawful.snoc rfl
        constants := by
          simpa [History.constants, Findings.applyOne, SignatureSet.defineMacro] using h.constants
        macros := by
          simp [History.macros, Findings.applyOne, SignatureSet.defineMacro, h.macros,
            Std.TreeMap.insertMany_append]
        functions := by
          simpa [History.functions, Findings.applyOne, SignatureSet.defineMacro] using h.functions
        diagnostics := by simpa [History.failures, Findings.applyOne] using h.diagnostics }⟩
  | function name signature =>
      exact ⟨[(.function name signature, none)], rfl, {
        lawful := h.lawful.snoc rfl
        constants := by
          simpa [History.constants, Findings.applyOne, SignatureSet.declareFunction] using h.constants
        macros := by
          simpa [History.macros, Findings.applyOne, SignatureSet.declareFunction] using h.macros
        functions := fun other => by
          rw [History.functions_append, List.lookup_append, ← Option.or_assoc, ← h.functions]
          exact getElem?_insertIfNew _ _ _ _
        diagnostics := by simpa [History.failures, Findings.applyOne] using h.diagnostics }⟩

theorem Tells.apply (h : Tells start history now) (emissions : List Emission) :
    ∃ more : History, more.map Prod.fst = emissions.flatMap entries ∧
      Tells start (history ++ more) (now.apply emissions) := by
  induction emissions generalizing history now with
  | nil => exact ⟨[], rfl, by simpa [Findings.apply] using h⟩
  | cons emission emissions ih =>
      obtain ⟨one, hone, htells⟩ := h.applyOne emission
      obtain ⟨more, hmore, hafter⟩ := ih htells
      refine ⟨one ++ more, by simp [hone, hmore], ?_⟩
      rw [← List.append_assoc]
      exact hafter

theorem getElem?_insertMany {α : Type} (map : Std.TreeMap String α) (pairs : List (String × α))
    (name : String) :
    (map.insertMany pairs)[name]? = (pairs.reverse.lookup name).or map[name]? := by
  induction pairs using List.reverseRecOn with
  | nil => simp [Std.TreeMap.insertMany_nil]
  | append_singleton pairs pair ih =>
      obtain ⟨key, value⟩ := pair
      rw [Std.TreeMap.insertMany_append, Std.TreeMap.insertMany_list_singleton,
        Std.TreeMap.getElem?_insert, ih]
      by_cases h : name = key
      · subst h
        simp
      · have hkey : (name == key) = false := beq_false_of_ne h
        simp [List.lookup_cons, hkey, Ne.symm h]

/-- A name or a macro that is recorded neither at the start nor by what stands before an expression
leaves the expression without a value. -/
def History.Late (start : SignatureSet) (history : History) : Prop :=
  ∀ (before : History) (name expression : String) (value : Option Int64) (after : History),
    history = before ++ (.defined name expression, value) :: after →
    (∀ tree : Expression.Tree, tree.Formed → Spaced tree.tokens expression.toList →
      ∀ reference ∈ tree.names, String.ofList reference ∉ start.constants →
        String.ofList reference ∉ before.constants.map Prod.fst → value = none) ∧
    (∀ reference arguments, Expression.IsCall reference arguments expression.toList →
      String.ofList reference ∉ start.macros →
        String.ofList reference ∉ before.macros.map Prod.fst → value = none)

theorem getElem?_insertMany_eq_none {α : Type} {map : Std.TreeMap String α}
    {pairs : List (String × α)} {name : String} (hmap : name ∉ map)
    (hpairs : name ∉ pairs.map Prod.fst) : (map.insertMany pairs)[name]? = none := by
  have hlookup : pairs.reverse.lookup name = none := by
    refine List.lookup_eq_none_iff.mpr fun pair hmem => ?_
    have hne : name ≠ pair.1 := by
      rintro rfl
      exact hpairs (List.mem_map.mpr ⟨pair, List.mem_reverse.mp hmem, rfl⟩)
    exact bne_iff_ne.mpr hne
  rw [getElem?_insertMany, hlookup, Std.TreeMap.getElem?_eq_none hmap]
  rfl

theorem History.Lawful.late {start : SignatureSet} {history : History}
    (lawful : history.Lawful start) : history.Late start := by
  intro before name expression value after h
  have hvalue : value = _ := lawful before _ value after h
  refine ⟨fun tree formed spelled reference mem hstart hbefore => ?_,
    fun reference arguments call hstart hbefore => ?_⟩
  · rw [hvalue]
    exact Expression.evaluate_unknown_name formed spelled mem
      (getElem?_insertMany_eq_none hstart hbefore)
  · rw [hvalue]
    exact Expression.evaluate_unknown_macro call (getElem?_insertMany_eq_none hstart hbefore)

theorem map_includes (emissions : List Emission) :
    (Emission.includes emissions).map Emission.included =
      emissions.filter (· matches .included _) := by
  induction emissions with
  | nil => rfl
  | cons emission emissions ih => cases emission <;> simpa [Emission.includes] using ih

/-- Emissions record what their history says: the last value of each constant and the last definition
of each macro, and the first signature of each function, which is never replaced. -/
theorem apply_accumulates (findings : Findings) (emissions : List Emission) :
    ∃ history : History,
      history.map Prod.fst = emissions.flatMap entries ∧
      history.Lawful findings.signatures ∧ history.Late findings.signatures ∧
      (∀ name, (findings.apply emissions).signatures.constants[name]? =
        (history.constants.reverse.lookup name).or findings.signatures.constants[name]?) ∧
      (∀ name, (findings.apply emissions).signatures.macros[name]? =
        (history.macros.reverse.lookup name).or findings.signatures.macros[name]?) ∧
      (∀ name, (findings.apply emissions).signatures.functions[name]? =
        findings.signatures.functions[name]?.or (history.functions.lookup name)) ∧
      (∀ name,
        (name ∈ findings.signatures.constants →
          name ∈ (findings.apply emissions).signatures.constants) ∧
        (name ∈ findings.signatures.macros →
          name ∈ (findings.apply emissions).signatures.macros) ∧
        (name ∈ findings.signatures.functions →
          name ∈ (findings.apply emissions).signatures.functions)) ∧
      (Emission.includes emissions).map Emission.included =
        emissions.filter (· matches .included _) ∧
      (findings.apply emissions).diagnostics = ⟨findings.diagnostics.enabled,
        findings.diagnostics.entries ++
          if findings.diagnostics.enabled then history.failures else []⟩ := by
  obtain ⟨history, hentries, htells⟩ := (tells_nil findings).apply emissions
  rw [List.nil_append] at htells
  have hconstants (name : String) := getElem?_insertMany findings.signatures.constants
    history.constants name
  have hmacros (name : String) := getElem?_insertMany findings.signatures.macros
    history.macros name
  rw [← htells.constants] at hconstants
  rw [← htells.macros] at hmacros
  refine ⟨history, hentries, htells.lawful, htells.lawful.late, hconstants, hmacros,
    htells.functions, fun name => ⟨fun h => ?_, fun h => ?_, fun h => ?_⟩, map_includes emissions,
    htells.diagnostics⟩
  · rw [Std.TreeMap.mem_iff_isSome_getElem?] at h ⊢
    simp [hconstants, h]
  · rw [Std.TreeMap.mem_iff_isSome_getElem?] at h ⊢
    simp [hmacros, h]
  · rw [Std.TreeMap.mem_iff_isSome_getElem?] at h ⊢
    simp [htells.functions, h]

end LibSurvey.Findings
