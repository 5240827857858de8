import LibSurvey.Proofs.Merge
import LibSurvey.Survey

/-!
How a survey can end. Headers fill it with functions that they declare; an object then changes it
once, as a whole, or not at all, and cancellation ends it before that. What the headers themselves
declare remains a separate obligation.
-/

namespace LibSurvey

open Merge (Declared)

namespace Merge

variable {known : FoundFunctions}

theorem declared_empty : Declared ∅ := by
  intro name found h
  simp at h

theorem Declared.insertIfNew (declared : Declared known) (name : String) (signature : Signature) :
    Declared (known.insertIfNew name (.typed signature .header)) := by
  intro other found h
  rw [Std.TreeMap.getElem?_insertIfNew] at h
  split at h
  · exact ⟨signature, (Option.some.inj h).symm⟩
  · exact declared other found h

theorem Declared.addHeaderFunctions (declared : Declared known)
    (found : List (String × Signature)) : Declared (Surveyor.addHeaderFunctions known found) := by
  induction found generalizing known with
  | nil => exact declared
  | cons entry found ih => exact ih (declared.insertIfNew entry.1 entry.2)

end Merge

namespace Survey

/-- Only headers have told anything. -/
structure HeadersOnly (survey : Survey) : Prop where
  declared : Declared survey.functions
  architecture : survey.architecture = none
  binaryFailure : survey.binaryFailure = none

theorem headersOnly_start (library : String) : (start library).HeadersOnly :=
  ⟨Merge.declared_empty, rfl, rfl⟩

/-- What a survey can be when it ends. -/
inductive Ending : Survey → Prop where
  | headers {survey : Survey} : survey.HeadersOnly → Ending survey
  /-- The object could not be opened. -/
  | unreadable {survey : Survey} (failure : Failure) :
      survey.HeadersOnly → survey.cancelled = false →
      Ending { survey with binaryFailure := some failure }
  | merged {survey : Survey} (precedence : Precedence) (binary : BinarySignatures)
      (sink : Diagnostics) : survey.HeadersOnly → survey.cancelled = false →
      Ending { survey with
        architecture := some binary.architecture
        functions := (Merge.functions precedence survey.functions binary sink).1 }

variable {survey : Survey}

theorem HeadersOnly.withDiagnostics (h : survey.HeadersOnly) (diagnostics : List Diagnostic) :
    HeadersOnly { survey with diagnostics } :=
  ⟨h.declared, h.architecture, h.binaryFailure⟩

theorem Ending.withDiagnostics (h : Ending survey) (diagnostics : List Diagnostic) :
    Ending { survey with diagnostics } := by
  cases h with
  | headers h => exact .headers (h.withDiagnostics diagnostics)
  | unreadable failure h going => exact .unreadable failure (h.withDiagnostics diagnostics) going
  | merged precedence binary sink h going =>
      exact .merged precedence binary sink (h.withDiagnostics diagnostics) going

/-- A cancelled survey has nothing from an object. -/
theorem Ending.headersOnly (h : Ending survey) (cancelled : survey.cancelled = true) :
    survey.HeadersOnly := by
  cases h with
  | headers h => exact h
  | unreadable failure h going => exact absurd (going.symm.trans cancelled) Bool.false_ne_true
  | merged precedence binary sink h going =>
      exact absurd (going.symm.trans cancelled) Bool.false_ne_true

end Survey

/-- What a stage keeps whether or not it is reached. -/
theorem Progress.andThen_induction {P : Progress → Prop} {progress : Progress}
    {next : Progress → Progress} (h : P progress)
    (step : progress.found.cancelled = false → P (next progress)) : P (progress.andThen next) := by
  unfold andThen
  split
  · exact h
  · exact step (Bool.eq_false_iff.mpr ‹_›)

namespace Surveyor

variable (surveyor : Surveyor) {progress : Progress}

theorem headersOnly_andThen {next : Progress → Progress} (h : progress.found.HeadersOnly)
    (step : (next progress).found.HeadersOnly) : (progress.andThen next).found.HeadersOnly :=
  Progress.andThen_induction (P := fun progress => progress.found.HeadersOnly) h fun _ => step

theorem headersOnly_check (h : progress.found.HeadersOnly) :
    (surveyor.check progress).found.HeadersOnly :=
  ⟨h.declared, h.architecture, h.binaryFailure⟩

theorem headersOnly_walkHeader (h : progress.found.HeadersOnly) (header : Path) :
    (surveyor.walkHeader header progress).found.HeadersOnly :=
  ⟨h.declared.addHeaderFunctions _, h.architecture, h.binaryFailure⟩

theorem headersOnly_preprocess (h : progress.found.HeadersOnly) (program : String)
    (header : Path) : (surveyor.preprocess program header progress).found.HeadersOnly := by
  unfold preprocess
  split
  · exact ⟨h.declared.addHeaderFunctions _, h.architecture, h.binaryFailure⟩
  · exact ⟨h.declared, h.architecture, h.binaryFailure⟩
  · exact h

theorem headersOnly_readHeader (h : progress.found.HeadersOnly) (header : Path) :
    (surveyor.readHeader header progress).found.HeadersOnly := by
  have walked := headersOnly_andThen (headersOnly_check surveyor h)
    (headersOnly_walkHeader surveyor (headersOnly_check surveyor h) header)
  unfold readHeader
  cases surveyor.config.preprocessor with
  | none => exact walked
  | some program =>
      have checked := headersOnly_andThen walked (headersOnly_check surveyor walked)
      exact headersOnly_andThen checked (headersOnly_preprocess surveyor checked program header)

theorem headersOnly_locatePaths (h : progress.found.HeadersOnly) (library : String) :
    (surveyor.locatePaths library progress).found.HeadersOnly := by
  unfold locatePaths
  split <;> exact ⟨h.declared, h.architecture, h.binaryFailure⟩

theorem headersOnly_readMainHeader (h : progress.found.HeadersOnly) (library : String) :
    (surveyor.readMainHeader library progress).found.HeadersOnly := by
  unfold readMainHeader
  split
  · exact h
  next header _ =>
      have given : Survey.HeadersOnly { progress.found with header := some header } :=
        ⟨h.declared, h.architecture, h.binaryFailure⟩
      exact headersOnly_readHeader surveyor given header

theorem headersOnly_headerStages (h : progress.found.HeadersOnly) (library : String) :
    (surveyor.headerStages library progress).found.HeadersOnly := by
  have located := headersOnly_andThen (headersOnly_check surveyor h)
    (headersOnly_locatePaths surveyor (headersOnly_check surveyor h) library)
  exact headersOnly_andThen located (headersOnly_readMainHeader surveyor located library)

open Survey (Ending)

theorem ending_takeBinary (h : progress.found.HeadersOnly)
    (going : progress.found.cancelled = false) (binary : BinarySignatures) :
    Ending (surveyor.takeBinary binary progress).found :=
  .merged surveyor.config.precedence binary progress.sink h going

theorem ending_readObject (h : progress.found.HeadersOnly)
    (going : progress.found.cancelled = false) (object : Path) :
    Ending (surveyor.readObject object progress).found := by
  unfold readObject
  split
  next binary sink _ =>
      have checked : (surveyor.check { progress with sink }).found.HeadersOnly :=
        headersOnly_check surveyor h
      exact Progress.andThen_induction (P := fun progress => Ending progress.found)
        (.headers checked) fun going => ending_takeBinary surveyor checked going binary
  next failure _ => exact .unreadable failure h going

/-- An object changes what headers have told at most once. -/
theorem ending_binaryStages (h : progress.found.HeadersOnly) (object : Path) :
    Ending (surveyor.binaryStages object progress).found := by
  have checked := headersOnly_check surveyor h
  exact Progress.andThen_induction (P := fun progress => Ending progress.found)
    (.headers checked) fun going => ending_readObject surveyor checked going object

theorem headersOnly_discoverHeaders (library : String) :
    (surveyor.discoverHeaders library).HeadersOnly :=
  (headersOnly_headerStages surveyor (Survey.headersOnly_start library) library).withDiagnostics _

theorem headersOnly_parseHeader (header : Path) :
    (surveyor.parseHeader header).HeadersOnly := by
  have given : Survey.HeadersOnly { Survey.start (libraryOf header) with
      header := some header, searchPaths := surveyor.pathsAround header } :=
    ⟨Merge.declared_empty, rfl, rfl⟩
  refine Survey.HeadersOnly.withDiagnostics ?_ _
  exact headersOnly_readHeader surveyor given header

theorem ending_discover (library : String) (object : Option Path) :
    Ending (surveyor.discover library object) := by
  have headers : (surveyor.headerStages library (surveyor.start library)).found.HeadersOnly :=
    headersOnly_headerStages surveyor (Survey.headersOnly_start library) library
  cases object with
  | none => exact .headers (headers.withDiagnostics _)
  | some object =>
      refine Ending.withDiagnostics ?_ _
      exact Progress.andThen_induction (P := fun progress => Ending progress.found)
        (.headers headers) fun _ => ending_binaryStages surveyor headers object

theorem ending_inspectObject (object : Path) :
    Ending (surveyor.inspectObject object) :=
  (ending_binaryStages surveyor (Survey.headersOnly_start _) object).withDiagnostics _

end Surveyor
end LibSurvey
