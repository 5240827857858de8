import LibSurvey.Merge
import LibSurvey.Proofs.Diagnostics
import Mathlib.Data.List.Basic

/-!
What a merge makes of each name, and which conflicts it notes. Both passes of a merge change one entry
at a time, so what they leave at a name is told by that name alone. Whether a signature describes the
real function remains a separate obligation.
-/

namespace LibSurvey

namespace Merge

variable {precedence : Precedence} {known : FoundFunctions} {sink : Diagnostics}

/-- What is known of one function after debug information was asked for it. -/
def afterDebug (precedence : Precedence) (known : Option FoundFunction) :
    Option Signature → Option FoundFunction
  | none => known
  | some debug =>
    match known with
    | none => some (.typed debug .debugInfo)
    | some known => some (preferred precedence known debug)

/-- What is known of one function after the exports were asked for it. -/
def afterExports (known : Option FoundFunction) (exported : Prop) [Decidable exported] :
    Option FoundFunction :=
  if exported then
    match known with
    | none => some .symbolOnly
    | some known => some { known with exported := true }
  else known

structure Conflict where
  name : String
  header : Signature
  debug : Signature

def Conflict.note (conflict : Conflict) : String :=
  conflictNote conflict.name conflict.header conflict.debug

/-- The conflict of a signature from debug information with what is known under its name. -/
def conflictOf (known : FoundFunctions) (entry : String × Signature) : Option Conflict :=
  match known[entry.1]?.bind (·.signature) with
  | some header => if conflicting header entry.2 then some ⟨entry.1, header, entry.2⟩ else none
  | none => none

/-- Names in order, none twice. -/
def Ascending (entries : List (String × Signature)) : Prop :=
  entries.Pairwise fun a b => compare a.1 b.1 = .lt

theorem Ascending.ne {entry : String × Signature} {entries : List (String × Signature)}
    (h : Ascending (entry :: entries)) {other : String × Signature} (later : other ∈ entries) :
    entry.1 ≠ other.1 := by
  intro he
  have := (List.pairwise_cons.mp h).1 other later
  simp [he] at this

theorem addDebug_getElem? (state : FoundFunctions × Diagnostics) (entry : String × Signature)
    (name : String) :
    (addDebug precedence state entry).1[name]? =
      if entry.1 = name then afterDebug precedence state.1[name]? (some entry.2)
      else state.1[name]? := by
  by_cases h : entry.1 = name
  · subst h
    unfold addDebug
    cases hk : state.1[entry.1]? with
    | none => simp [afterDebug]
    | some found => simp [afterDebug]
  · unfold addDebug
    cases hk : state.1[entry.1]? with
    | none => simp [Std.TreeMap.getElem?_insert, h]
    | some found => simp [Std.TreeMap.getElem?_insert, h]

theorem addDebug_diagnostics (state : FoundFunctions × Diagnostics) (entry : String × Signature) :
    (addDebug precedence state entry).2 =
      ((conflictOf state.1 entry).toList.map Conflict.note).foldl
        (fun sink message => sink.record .merge message) state.2 := by
  unfold addDebug conflictOf
  cases hk : state.1[entry.1]? with
  | none => rfl
  | some found =>
      obtain ⟨signature, provenance, exported⟩ := found
      cases signature with
      | none => rfl
      | some header => by_cases h : conflicting header entry.2 <;> simp [noteConflict, h, Conflict.note]

theorem conflictOf_congr {other : FoundFunctions} {entry : String × Signature}
    (h : known[entry.1]? = other[entry.1]?) : conflictOf known entry = conflictOf other entry := by
  unfold conflictOf
  rw [h]

/-- Debug information changes what is known under its own names, once for each. -/
theorem foldl_addDebug_getElem? {entries : List (String × Signature)} (ascending : Ascending entries)
    (state : FoundFunctions × Diagnostics) (name : String) :
    (entries.foldl (addDebug precedence) state).1[name]? =
      afterDebug precedence state.1[name]? (entries.lookup name) := by
  induction entries generalizing state with
  | nil => rfl
  | cons entry entries ih =>
      rw [List.foldl_cons, ih (List.pairwise_cons.mp ascending).2, addDebug_getElem?]
      by_cases h : entry.1 = name
      · have habsent : entries.lookup name = none := by
          refine List.lookup_eq_none_iff.mpr fun other later => ?_
          simpa [h] using ascending.ne later
        have hfirst : (entry :: entries).lookup name = some entry.2 := by
          rw [← h]
          exact List.lookup_cons_self
        rw [if_pos h, habsent, hfirst, afterDebug]
      · have hskip : (entry :: entries).lookup name = entries.lookup name := by
          rw [List.lookup_cons]
          have : (name == entry.1) = false := by simpa using Ne.symm h
          rw [this]
        rw [if_neg h, hskip]

theorem foldl_addDebug_diagnostics {entries : List (String × Signature)}
    (ascending : Ascending entries) (state : FoundFunctions × Diagnostics) :
    (entries.foldl (addDebug precedence) state).2 =
      ((entries.filterMap (conflictOf state.1)).map Conflict.note).foldl
        (fun sink message => sink.record .merge message) state.2 := by
  induction entries generalizing state with
  | nil => rfl
  | cons entry entries ih =>
      -- The names that follow are other names, so what is known under them is what was known at first.
      have hkept : entries.filterMap (conflictOf (addDebug precedence state entry).1) =
          entries.filterMap (conflictOf state.1) := by
        refine List.filterMap_congr fun other later => conflictOf_congr ?_
        rw [addDebug_getElem?, if_neg (ascending.ne later)]
      rw [List.foldl_cons, ih (List.pairwise_cons.mp ascending).2, hkept, addDebug_diagnostics]
      cases h : conflictOf state.1 entry with
      | none => simp [h]
      | some conflict => simp [h]

theorem addExport_getElem? (functions : FoundFunctions) (raw name : String) :
    (addExport functions raw)[name]? = afterExports functions[name]? (raw = name) := by
  by_cases h : raw = name
  · subst h
    unfold addExport
    cases hk : functions[raw]? with
    | none => simp [afterExports]
    | some found => simp [afterExports]
  · unfold addExport
    cases hk : functions[raw]? with
    | none => simp [Std.TreeMap.getElem?_insert, afterExports, h]
    | some found => simp [Std.TreeMap.getElem?_insert, afterExports, h]

theorem foldl_addExport_getElem? (raws : List String) (functions : FoundFunctions) (name : String) :
    (raws.foldl addExport functions)[name]? = afterExports functions[name]? (name ∈ raws) := by
  induction raws generalizing functions with
  | nil => simp [afterExports]
  | cons raw raws ih =>
      rw [List.foldl_cons, ih, addExport_getElem?]
      by_cases hraw : raw = name
      · by_cases hmem : name ∈ raws
        · cases functions[name]? <;> simp [afterExports, hraw, hmem, FoundFunction.symbolOnly]
        · simp [afterExports, hraw, hmem]
      · by_cases hmem : name ∈ raws
        · simp [afterExports, hraw, hmem]
        · simp [afterExports, hraw, hmem, Ne.symm hraw]

theorem lookup_toList (functions : FunctionSet) (name : String) :
    functions.toList.lookup name = functions[name]? := by
  cases h : functions.toList.lookup name with
  | none =>
      cases hf : functions[name]? with
      | none => rfl
      | some signature =>
          have hmem := Std.TreeMap.mem_toList_iff_getElem?_eq_some.mpr hf
          have := List.lookup_eq_none_iff.mp h _ hmem
          simp at this
  | some signature =>
      obtain ⟨before, after, hsplit, -⟩ := List.lookup_eq_some_iff.mp h
      have hmem : (name, signature) ∈ functions.toList := by simp [hsplit]
      exact (Std.TreeMap.mem_toList_iff_getElem?_eq_some.mp hmem).symm

/-- What a merge leaves under one name. -/
theorem functions_getElem? (binary : BinarySignatures) (name : String) :
    (functions precedence known binary sink).1[name]? =
      afterExports (afterDebug precedence known[name]? binary.functions[name]?)
        (name ∈ binary.exports.map Export.raw) := by
  rw [functions, foldl_addExport_getElem?,
    foldl_addDebug_getElem? Std.TreeMap.ordered_keys_toList, lookup_toList]

/-- The conflicts of debug information with what was known before. -/
def conflicts (known : FoundFunctions) (debug : FunctionSet) : List Conflict :=
  debug.toList.filterMap (conflictOf known)

theorem functions_diagnostics (binary : BinarySignatures) :
    (functions precedence known binary sink).2 =
      { sink with
        entries := sink.entries ++ if sink.enabled then
          (conflicts known binary.functions).map fun conflict => ⟨.merge, conflict.note⟩ else [] } := by
  rw [functions, foldl_addDebug_diagnostics Std.TreeMap.ordered_keys_toList,
    Diagnostics.foldl_record, List.map_map]
  rfl

theorem conflictOf_eq_some_iff {entry : String × Signature} {conflict : Conflict} :
    conflictOf known entry = some conflict ↔
      known[entry.1]?.bind (·.signature) = some conflict.header ∧
        entry = (conflict.name, conflict.debug) ∧
        conflicting conflict.header conflict.debug = true := by
  obtain ⟨name, header, debug⟩ := conflict
  obtain ⟨entryName, entryDebug⟩ := entry
  unfold conflictOf
  cases hk : known[entryName]?.bind (·.signature) with
  | none => simp
  | some found =>
      by_cases hc : conflicting found entryDebug = true
      · simp only [hc, ite_true, Option.some.injEq, Conflict.mk.injEq, Prod.mk.injEq]
        constructor
        · rintro ⟨rfl, rfl, rfl⟩
          exact ⟨rfl, ⟨rfl, rfl⟩, hc⟩
        · rintro ⟨rfl, ⟨rfl, rfl⟩, -⟩
          exact ⟨rfl, rfl, rfl⟩
      · simp only [hc, Bool.false_eq_true, ite_false, reduceCtorEq, Option.some.injEq, Prod.mk.injEq,
          false_iff]
        rintro ⟨rfl, ⟨rfl, rfl⟩, h⟩
        exact hc h

theorem mem_conflicts {debug : FunctionSet} {conflict : Conflict} :
    conflict ∈ conflicts known debug ↔
      known[conflict.name]?.bind (·.signature) = some conflict.header ∧
        debug[conflict.name]? = some conflict.debug ∧
        conflicting conflict.header conflict.debug = true := by
  rw [conflicts, List.mem_filterMap]
  constructor
  · rintro ⟨entry, hmem, hc⟩
    obtain ⟨hk, rfl, hconflict⟩ := conflictOf_eq_some_iff.mp hc
    exact ⟨hk, Std.TreeMap.mem_toList_iff_getElem?_eq_some.mp hmem, hconflict⟩
  · rintro ⟨hk, hd, hconflict⟩
    exact ⟨_, Std.TreeMap.mem_toList_iff_getElem?_eq_some.mpr hd,
      conflictOf_eq_some_iff.mpr ⟨hk, rfl, hconflict⟩⟩

/-- A function that both sides describe. -/
structure DescribedTwice (known : FoundFunctions) (functions : FunctionSet) (name : String)
    (header debug : Signature) : Prop where
  known : known[name]?.bind (·.signature) = some header
  debug : functions[name]? = some debug

/-- A merge notes nothing if and only if no function is described in conflicting ways. -/
theorem functions_silent_iff (binary : BinarySignatures) :
    (functions precedence known binary sink).2 = sink ↔
      (sink.enabled = true → ∀ name header debug,
        DescribedTwice known binary.functions name header debug → conflicting header debug = false) := by
  have hnone : conflicts known binary.functions = [] ↔ ∀ name header debug,
      DescribedTwice known binary.functions name header debug →
        conflicting header debug = false := by
    rw [List.eq_nil_iff_forall_not_mem]
    simp only [mem_conflicts]
    constructor
    · intro h name header debug twice
      exact Bool.eq_false_iff.mpr fun hc => h ⟨name, header, debug⟩ ⟨twice.known, twice.debug, hc⟩
    · rintro h conflict ⟨hk, hd, hc⟩
      exact Bool.eq_false_iff.mp (h conflict.name conflict.header conflict.debug ⟨hk, hd⟩) hc
  rw [functions_diagnostics, ← hnone]
  cases sink with
  | mk enabled entries => cases enabled <;> simp

theorem conflicts_ordered (known : FoundFunctions) (debug : FunctionSet) :
    (conflicts known debug).Pairwise fun a b => compare a.name b.name = .lt := by
  refine List.Pairwise.filterMap _ ?_ Std.TreeMap.ordered_keys_toList
  intro a b hlt c hc d hd
  obtain ⟨-, rfl, -⟩ := conflictOf_eq_some_iff.mp hc
  obtain ⟨-, rfl, -⟩ := conflictOf_eq_some_iff.mp hd
  exact hlt

/-- Every function that is known has a signature from a header and nothing else. -/
def Declared (known : FoundFunctions) : Prop :=
  ∀ (name : String) (found : FoundFunction), known[name]? = some found → ∃ header, found = FoundFunction.typed header .header

theorem declared_signature (declared : Declared known) {name : String} {header : Signature} :
    known[name]?.bind (·.signature) = some header ↔
      known[name]? = some (.typed header .header) := by
  cases hk : known[name]? with
  | none => simp
  | some found =>
      obtain ⟨other, rfl⟩ := declared name found hk
      simp [FoundFunction.typed]

theorem mem_functions (binary : BinarySignatures) (name : String) :
    name ∈ (functions precedence known binary sink).1 ↔
      name ∈ known ∨ name ∈ binary.functions ∨ name ∈ binary.exports.map Export.raw := by
  simp only [Std.TreeMap.mem_iff_isSome_getElem?, functions_getElem?]
  by_cases hraw : name ∈ binary.exports.map Export.raw
  · cases known[name]? <;> cases binary.functions[name]? <;> simp [afterExports, afterDebug, hraw]
  · cases known[name]? <;> cases binary.functions[name]? <;> simp [afterExports, afterDebug, hraw]

theorem afterDebug_eq_none_iff {before : Option FoundFunction} {debug : Option Signature} :
    afterDebug precedence before debug = none ↔ before = none ∧ debug = none := by
  cases debug with
  | none => simp [afterDebug]
  | some signature => cases before <;> simp [afterDebug]

theorem afterExports_some (before : FoundFunction) (exported : Prop) [Decidable exported] :
    afterExports (some before) exported =
      some { before with exported := before.exported || decide exported } := by
  by_cases h : exported
  · simp [afterExports, h]
  · simp [afterExports, h]

theorem afterExports_none_eq_some_iff {exported : Prop} [Decidable exported]
    {found : FoundFunction} :
    afterExports none exported = some found ↔ exported ∧ found = .symbolOnly := by
  by_cases h : exported
  · simp [afterExports, h, eq_comm]
  · simp [afterExports, h]

theorem afterDebug_cases {before : Option FoundFunction} {debug : Option Signature}
    {after : FoundFunction}
    (declared : ∀ found, before = some found → ∃ header, found = FoundFunction.typed header .header)
    (h : afterDebug precedence before debug = some after) :
    (∃ signature, debug = some signature ∧ (before = none ∨ precedence = .debugInfo) ∧
      after = .typed signature .debugInfo) ∨
    (∃ header, before = some (.typed header .header) ∧ (debug = none ∨ precedence = .header) ∧
      after = .typed header .header) := by
  cases before with
  | none =>
      cases debug with
      | none => exact absurd h (by simp [afterDebug])
      | some signature => exact .inl ⟨signature, rfl, .inl rfl, by simpa [afterDebug] using h.symm⟩
  | some found =>
      obtain ⟨header, rfl⟩ := declared found rfl
      cases debug with
      | none => exact .inr ⟨header, rfl, .inl rfl, by simpa [afterDebug] using h.symm⟩
      | some signature =>
          cases precedence with
          | header => exact .inr ⟨header, rfl, .inr rfl, by simpa [afterDebug, preferred] using h.symm⟩
          | debugInfo =>
              refine .inl ⟨signature, rfl, .inr rfl, ?_⟩
              simpa [afterDebug, preferred, FoundFunction.typed] using h.symm

/-- All that a merge can leave under a name. -/
theorem functions_cases {binary : BinarySignatures} {name : String} {found : FoundFunction}
    (declared : Declared known) (h : (functions precedence known binary sink).1[name]? = some found) :
    (known[name]? = none ∧ binary.functions[name]? = none ∧ name ∈ binary.exports.map Export.raw ∧
      found = .symbolOnly) ∨
    (∃ signature, binary.functions[name]? = some signature ∧
      (known[name]? = none ∨ precedence = .debugInfo) ∧
      found = ⟨some signature, .debugInfo, decide (name ∈ binary.exports.map Export.raw)⟩) ∨
    (∃ header, known[name]? = some (.typed header .header) ∧
      (binary.functions[name]? = none ∨ precedence = .header) ∧
      found = ⟨some header, .header, decide (name ∈ binary.exports.map Export.raw)⟩) := by
  rw [functions_getElem?] at h
  cases hdebug : afterDebug precedence known[name]? binary.functions[name]? with
  | none =>
      obtain ⟨hk, hd⟩ := afterDebug_eq_none_iff.mp hdebug
      obtain ⟨hraw, rfl⟩ := afterExports_none_eq_some_iff.mp (hdebug ▸ h)
      exact .inl ⟨hk, hd, hraw, rfl⟩
  | some after =>
      rw [hdebug, afterExports_some, Option.some.injEq] at h
      subst h
      rcases afterDebug_cases (declared name) hdebug with
        ⟨signature, hd, hprefer, rfl⟩ | ⟨header, hk, hprefer, rfl⟩
      · exact .inr (.inl ⟨signature, hd, hprefer, rfl⟩)
      · exact .inr (.inr ⟨header, hk, hprefer, rfl⟩)

/-- After a merge of declared functions with an object, every name is listed that one of them knows,
with the signature of the side that takes precedence; what is noted are the conflicts of the two
sides, in the order of the names. -/
theorem functions_declared (precedence : Precedence) (known : FoundFunctions)
    (binary : BinarySignatures) (sink : Diagnostics) (declared : Declared known) :
    (∀ name, name ∈ (functions precedence known binary sink).1 ↔
      name ∈ known ∨ name ∈ binary.functions ∨ name ∈ binary.exports.map Export.raw) ∧
    (∀ name found, (functions precedence known binary sink).1[name]? = some found →
      (∀ header, known[name]? = some (.typed header .header) →
        binary.functions[name]? = none ∨ precedence = .header →
          found.signature = some header ∧ found.provenance = .header) ∧
      (∀ debug, binary.functions[name]? = some debug →
        known[name]? = none ∨ precedence = .debugInfo →
          found.signature = some debug ∧ found.provenance = .debugInfo) ∧
      (known[name]? = none → binary.functions[name]? = none →
        found.signature = none ∧ found.provenance = .symbolOnly) ∧
      (found.exported = true ↔ name ∈ binary.exports.map Export.raw)) ∧
    ∃ noted : List Conflict,
      noted.Pairwise (fun a b => a.name < b.name) ∧
      (∀ conflict, conflict ∈ noted ↔
        known[conflict.name]? = some (.typed conflict.header .header) ∧
          binary.functions[conflict.name]? = some conflict.debug ∧
          conflicting conflict.header conflict.debug = true) ∧
      (functions precedence known binary sink).2.enabled = sink.enabled ∧
      (functions precedence known binary sink).2.entries =
        sink.entries ++
          if sink.enabled then noted.map fun conflict => ⟨.merge, conflict.note⟩ else [] := by
  refine ⟨mem_functions binary, ?_, conflicts known binary.functions, ?_, ?_, ?_, ?_⟩
  · intro name found hfound
    rcases functions_cases declared hfound with
      ⟨hk, hd, hraw, rfl⟩ | ⟨debug, hd, hprefer, rfl⟩ | ⟨header, hk, hprefer, rfl⟩
    · simp [hk, hd, hraw, FoundFunction.symbolOnly]
    · refine ⟨?_, ?_, ?_, decide_eq_true_iff⟩
      · intro header hk hother
        simp [hk, hd] at hprefer hother
        simp [hprefer] at hother
      · intro other hother _
        exact ⟨hd.symm.trans hother, rfl⟩
      · intro _ hnone
        simp [hd] at hnone
    · refine ⟨?_, ?_, ?_, decide_eq_true_iff⟩
      · intro other hother _
        simpa [FoundFunction.typed] using hk.symm.trans hother
      · intro debug hd hother
        simp [hk, hd] at hprefer hother
        simp [hprefer] at hother
      · intro hnone _
        simp [hk] at hnone
  · exact (conflicts_ordered known binary.functions).imp fun h =>
      compareOfLessAndEq_eq_lt.mp h
  · intro conflict
    rw [mem_conflicts, declared_signature declared]
  · rw [functions_diagnostics]
  · rw [functions_diagnostics]

/-- A header and debug information disagree on an exported function. -/
theorem functions_declared_exported :
    ∃ found, (functions .debugInfo ((∅ : FoundFunctions).insert "f" (.typed ⟨"int", []⟩ .header))
        ⟨.x86_64, true, (∅ : FunctionSet).insert "f" ⟨"void", []⟩, [⟨"f", none, .c⟩]⟩
        (.empty true)).1["f"]? = some found ∧
      found.signature = some ⟨"void", []⟩ ∧ found.provenance = .debugInfo ∧ found.exported = true := by
  have declared : Declared ((∅ : FoundFunctions).insert "f" (.typed ⟨"int", []⟩ .header)) := by
    intro name found h
    rw [Std.TreeMap.getElem?_insert] at h
    split at h
    · exact ⟨_, (Option.some.inj h).symm⟩
    · simp at h
  obtain ⟨hmem, hfound, -⟩ := functions_declared .debugInfo _
    ⟨.x86_64, true, (∅ : FunctionSet).insert "f" ⟨"void", []⟩, [⟨"f", none, .c⟩]⟩ (.empty true)
    declared
  have listed := (hmem "f").mpr (.inl (by simp))
  rw [Std.TreeMap.mem_iff_isSome_getElem?] at listed
  obtain ⟨found, h⟩ := Option.isSome_iff_exists.mp listed
  obtain ⟨-, hdebug, -, hexported⟩ := hfound "f" found h
  obtain ⟨hsignature, hprovenance⟩ := hdebug ⟨"void", []⟩ (by simp) (.inr rfl)
  exact ⟨found, h, hsignature, hprovenance, hexported.mpr (by simp)⟩

end Merge
end LibSurvey
