import LibSurvey.Proofs.Survey.Ending
import Mathlib.Data.List.Perm.Basic

/-!
The shape of a survey, however it ended: which signatures, provenances and exports go together, and
what an object, its failure and cancellation exclude. That the object's own tables are read
correctly remains a separate obligation.
-/

namespace LibSurvey

namespace FoundFunctions

variable {functions : FoundFunctions}

/-- Without a signature there is only the name of an exported symbol. -/
def Consistent (functions : FoundFunctions) : Prop :=
  ∀ (name : String) (found : FoundFunction), functions[name]? = some found →
    (found.signature = none ↔ found.provenance = .symbolOnly) ∧
      (found.provenance = .symbolOnly → found.exported = true)

theorem map_typed (functions : FoundFunctions) :
    functions.typed.map (·.1) =
      (functions.toList.filter (·.2.signature.isSome)).map (·.1) := by
  rw [typed]
  induction functions.toList with
  | nil => rfl
  | cons entry entries ih =>
      cases h : entry.2.signature with
      | none => simpa [h] using ih
      | some signature => simpa [h] using ih

/-- The two listings of functions have every name, each once. -/
theorem Consistent.perm_keys (h : functions.Consistent) :
    (functions.symbolOnly ++ functions.typed.map (·.1)).Perm functions.keys := by
  have bare : functions.toList.filter (·.2.provenance = .symbolOnly) =
      functions.toList.filter (!·.2.signature.isSome) := by
    refine List.filter_congr fun entry hentry => ?_
    have hfound := Std.TreeMap.mem_toList_iff_getElem?_eq_some.mp hentry
    rw [Bool.eq_iff_iff, decide_eq_true_eq, ← (h entry.1 entry.2 hfound).1]
    simp
  rw [symbolOnly, bare, map_typed, ← List.map_append, ← Std.TreeMap.map_fst_toList_eq_keys]
  exact (List.perm_append_comm.trans (List.filter_append_perm _ functions.toList)).map _

theorem Consistent.disjoint (h : functions.Consistent) :
    functions.symbolOnly.Disjoint (functions.typed.map (·.1)) := by
  have once := List.nodup_append.mp (h.perm_keys.nodup_iff.mpr Std.TreeMap.nodup_keys)
  exact fun name bare typed => once.2.2 name bare name typed rfl

theorem hasTyped_iff (functions : FoundFunctions) :
    functions.hasTyped = true ↔ functions.typed ≠ [] := by
  simp [hasTyped, typed, List.filterMap_eq_nil_iff, Option.isSome_iff_ne_none]

end FoundFunctions

namespace Survey

/-- Every function was declared by a header, and none is known to be exported. -/
def Unmerged (survey : Survey) : Prop :=
  ∀ (name : String) (found : FoundFunction), survey.functions[name]? = some found →
    found.provenance = .header ∧ found.exported = false

/-- How the parts of a survey hold together. -/
structure Shaped (survey : Survey) : Prop where
  consistent : survey.functions.Consistent
  perm_keys : (survey.functions.symbolOnly ++ survey.functions.typed.map (·.1)).Perm
    survey.functions.keys
  disjoint : survey.functions.symbolOnly.Disjoint (survey.functions.typed.map (·.1))
  hasTyped : survey.functions.hasTyped = true ↔ survey.functions.typed ≠ []
  opened : ∀ (name : String) (found : FoundFunction), survey.functions[name]? = some found →
    found.exported = true ∨ found.provenance = .debugInfo ∨ found.provenance = .symbolOnly →
      survey.architecture ≠ none
  unopened : survey.binaryFailure ≠ none →
    survey.architecture = none ∧ survey.Unmerged ∧ survey.cancelled = false
  stopped : survey.cancelled = true → survey.architecture = none ∧ survey.binaryFailure = none

variable {survey : Survey}

theorem HeadersOnly.unmerged (h : survey.HeadersOnly) : survey.Unmerged := by
  intro name found hfound
  obtain ⟨header, rfl⟩ := h.declared name found hfound
  exact ⟨rfl, rfl⟩

theorem HeadersOnly.consistent (h : survey.HeadersOnly) : survey.functions.Consistent := by
  intro name found hfound
  obtain ⟨header, rfl⟩ := h.declared name found hfound
  simp [FoundFunction.typed]

theorem consistent_merged {known : FoundFunctions} (declared : Merge.Declared known)
    (precedence : Precedence) (binary : BinarySignatures) (sink : Diagnostics) :
    FoundFunctions.Consistent (Merge.functions precedence known binary sink).1 := by
  intro name found hfound
  rcases Merge.functions_cases declared hfound with
    ⟨-, -, -, rfl⟩ | ⟨signature, -, -, rfl⟩ | ⟨header, -, -, rfl⟩
  · simp [FoundFunction.symbolOnly]
  · simp
  · simp

theorem Ending.consistent (h : Ending survey) : survey.functions.Consistent := by
  cases h with
  | headers h => exact h.consistent
  | unreadable failure h going => exact h.consistent
  | merged precedence binary sink h going =>
      exact consistent_merged h.declared precedence binary sink

theorem Unmerged.not_opened (h : survey.Unmerged) {name : String} {found : FoundFunction}
    (hfound : survey.functions[name]? = some found) :
    ¬(found.exported = true ∨ found.provenance = .debugInfo ∨ found.provenance = .symbolOnly) := by
  obtain ⟨hheader, hexported⟩ := h name found hfound
  simp [hheader, hexported]

theorem Ending.shaped (h : Ending survey) : survey.Shaped where
  consistent := h.consistent
  perm_keys := h.consistent.perm_keys
  disjoint := h.consistent.disjoint
  hasTyped := FoundFunctions.hasTyped_iff _
  opened := by
    intro name found hfound opened
    cases h with
    | headers h => exact absurd opened (h.unmerged.not_opened hfound)
    | unreadable failure h going => exact absurd opened (h.unmerged.not_opened hfound)
    | merged precedence binary sink h going => simp
  unopened := by
    intro failed
    cases h with
    | headers h => exact absurd h.binaryFailure failed
    | unreadable failure h going => exact ⟨h.architecture, h.unmerged, going⟩
    | merged precedence binary sink h going => exact absurd h.binaryFailure failed
  stopped := fun cancelled =>
    ⟨(h.headersOnly cancelled).architecture, (h.headersOnly cancelled).binaryFailure⟩

end Survey

namespace Surveyor

/-- Every survey is shaped, whatever its files, tools and object and wherever it is cancelled; one
without an object has only functions that headers declare. -/
theorem surveys_shaped (surveyor : Surveyor) :
    (∀ (library : String) (object : Option Path), (surveyor.discover library object).Shaped) ∧
    (∀ library : String, (surveyor.discover library none).Unmerged) ∧
    (∀ library : String, (surveyor.discoverHeaders library).Shaped ∧
      (surveyor.discoverHeaders library).Unmerged) ∧
    (∀ header : Path, (surveyor.parseHeader header).Shaped ∧
      (surveyor.parseHeader header).Unmerged) ∧
    ∀ object : Path, (surveyor.inspectObject object).Shaped := by
  refine ⟨fun library object => ?_, fun library => ?_, fun library => ?_, fun header => ?_,
    fun object => ?_⟩
  · exact (surveyor.ending_discover library object).shaped
  · exact (surveyor.headersOnly_discoverHeaders library).unmerged
  · have headers := surveyor.headersOnly_discoverHeaders library
    exact ⟨(Survey.Ending.headers headers).shaped, headers.unmerged⟩
  · have headers := surveyor.headersOnly_parseHeader header
    exact ⟨(Survey.Ending.headers headers).shaped, headers.unmerged⟩
  · exact (surveyor.ending_inspectObject object).shaped

end Surveyor
end LibSurvey
