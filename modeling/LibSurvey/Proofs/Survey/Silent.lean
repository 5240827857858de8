import LibSurvey.Proofs.Findings.History
import LibSurvey.Survey

/-!
Diagnostics only observe. Every stage of a survey commutes with dropping what has been noted, so
that a survey without diagnostics is the one with them, less the list. Whether the notes themselves
tell what happened remains a separate obligation.
-/

namespace LibSurvey

namespace Diagnostics

@[simp] theorem record_silent (stage : Stage) (message : String) :
    (empty false).record stage message = empty false := rfl

@[simp] theorem extend_silent : (empty false).extend (empty false) = empty false := rfl

end Diagnostics

def Findings.silence (findings : Findings) : Findings :=
  { findings with diagnostics := .empty false }

theorem Findings.apply_silence (findings : Findings) (emissions : List Emission) :
    findings.silence.apply emissions = (findings.apply emissions).silence := by
  obtain ⟨history, -, htells⟩ := (tells_nil findings.silence).apply emissions
  have hsignatures : (findings.silence.apply emissions).signatures =
      (findings.apply emissions).signatures :=
    apply_congr (f := findings.silence) (g := findings) rfl emissions
  have hdiagnostics : (findings.silence.apply emissions).diagnostics = .empty false := by
    rw [htells.diagnostics]
    rfl
  calc findings.silence.apply emissions
      = ⟨(findings.silence.apply emissions).signatures,
          (findings.silence.apply emissions).diagnostics⟩ := rfl
    _ = (findings.apply emissions).silence := by rw [hsignatures, hdiagnostics, silence]

namespace Session

def silence (session : Session) : Session :=
  { session with findings := session.findings.silence }

end Session

def Walked.silence (walked : Walked) : Walked :=
  ⟨walked.session.silence, walked.cancelled⟩

namespace Session

variable {around : Surroundings} {reading : Reading}

@[simp] theorem note_silence (session : Session) (stage : Stage) (message : String) :
    (session.note stage message).silence = session.silence := rfl

theorem emissions_silence (session : Session) (path : Path) (bytes : List UInt8) :
    reading.emissions session.silence path bytes =
      ((reading.emissions session path bytes).1,
        (reading.emissions session path bytes).2.silence) := by
  cases reading with
  | byLines own => rfl
  | byTokens =>
      unfold Reading.emissions
      have hannotations : session.silence.annotations = session.annotations := rfl
      rw [hannotations]
      cases Declarations.ofBytes? session.annotations bytes with
      | ok emissions => rfl
      | error fault => rfl

theorem visit?_silence (session : Session) (files : FileView) (path : Path) :
    session.silence.visit? files path = (session.visit? files path).map silence := by
  have hvisited : session.silence.visited = session.visited := rfl
  simp only [visit?, hvisited]
  cases session.visited.any (·.same (files.identity path)) with
  | true => rfl
  | false => rfl

theorem followAll_silence {walk : Session → Path → Walked}
    (h : ∀ session path, walk session.silence path = (walk session path).silence)
    (includer : Path) (names : List String) (session : Session) :
    session.silence.followAll around.files reading walk includer names =
      (session.followAll around.files reading walk includer names).silence := by
  induction names generalizing session with
  | nil => rfl
  | cons name names ih =>
      have hresolve : session.silence.resolve? around.files name includer =
          session.resolve? around.files name includer := rfl
      rw [followAll, followAll, hresolve]
      cases session.resolve? around.files name includer with
      | none => exact ih (session.note reading.stage (reading.unresolved name includer))
      | some target =>
          simp only [h]
          cases hc : (walk session target).cancelled with
          | true => simp [Walked.silence, hc]
          | false => simpa [Walked.silence, hc] using ih (walk session target).session

theorem apply_silence (session : Session) (emissions : List Emission) :
    { session.silence with findings := session.silence.findings.apply emissions } =
      silence { session with findings := session.findings.apply emissions } := by
  have hfindings : session.silence.findings = session.findings.silence := rfl
  rw [hfindings, Findings.apply_silence]
  rfl

theorem walkLevels_silence (around : Surroundings) (reading : Reading) (levels : Nat)
    (session : Session) (path : Path) :
    walkLevels around reading levels session.silence path =
      (walkLevels around reading levels session path).silence := by
  induction levels generalizing session path with
  | zero => rfl
  | succ levels ih =>
      have hcourse : session.silence.course = session.course := rfl
      rw [walkLevels, walkLevels, hcourse]
      cases around.cancellation.isSet session.course with
      | true => rfl
      | false =>
          have hlooked : { session.silence with course := session.course.looked } =
              silence { session with course := session.course.looked } := rfl
          simp only [Bool.false_eq_true, ite_false, hlooked, visit?_silence]
          cases visit? { session with course := session.course.looked } around.files path with
          | none => rfl
          | some met =>
              simp only [Option.map_some]
              cases around.files.read path with
              | error error => rfl
              | ok content =>
                  simp only [emissions_silence]
                  generalize reading.emissions met path content.toList = read
                  rw [apply_silence]
                  exact followAll_silence ih path _ _

end Session

namespace DebugInfo

def Extraction.silence (extraction : Extraction) : Extraction :=
  { extraction with sink := .empty false }

theorem addUnit_silence (graph : TypeGraph) (extraction : Extraction) (index : Nat)
    (entries : UnitEntries) : extraction.silence.addUnit graph index entries =
      (extraction.addUnit graph index entries).silence := by
  have hknown : extraction.silence.known = extraction.known := rfl
  unfold Extraction.addUnit
  rw [hknown]
  cases readSubprograms graph index entries.fault extraction.known entries.subprograms with
  | mk read known =>
      cases read with
      | ok found => rfl
      | error fault => rfl

theorem addUnits_silence (graph : TypeGraph) (extraction : Extraction) (index : Nat)
    (units : List UnitEntries) : Extraction.addUnits graph extraction.silence index units =
      (Extraction.addUnits graph extraction index units).silence := by
  induction units generalizing extraction index with
  | nil => rfl
  | cons entries units ih => rw [Extraction.addUnits, Extraction.addUnits, addUnit_silence, ih]

theorem extract_silent (graph : TypeGraph) (units : List UnitEntries) (sink : Diagnostics) :
    extract graph units (.empty false) = ((extract graph units sink).1, .empty false) := by
  have h := addUnits_silence graph ⟨∅, ∅, sink⟩ 0 units
  exact congrArg (fun extraction => (extraction.functions, extraction.sink)) h

end DebugInfo

namespace Dwarf

variable (sections : Sections) (sink : Diagnostics)

theorem openUnits_silent (step : DebugInfo.Step) (headers : List UnitHeader) :
    openUnits sections step (.empty false) headers =
      ((openUnits sections step sink headers).1, .empty false) := by
  induction headers generalizing sink with
  | nil => rfl
  | cons header headers ih =>
      unfold openUnits
      cases CompiledUnit.open? sections header with
      | ok unit => simp [ih sink]
      | error fault => exact ih (note sink step fault)

theorem unitsOf_silent (inInfo : Bool) :
    unitsOf sections inInfo (.empty false) = ((unitsOf sections inInfo sink).1, .empty false) := by
  simp only [unitsOf, openUnits_silent sections sink]
  split <;> rfl

theorem units_silent :
    units sections (.empty false) = ((units sections sink).1, .empty false) := by
  simp only [units]
  rw [unitsOf_silent sections sink true,
    unitsOf_silent sections (unitsOf sections true sink).2 false]

theorem signatures_silent :
    signatures sections (.empty false) = ((signatures sections sink).1, .empty false) := by
  unfold signatures
  split
  · rfl
  · simp only [units_silent sections sink]
    exact DebugInfo.extract_silent _ _ (units sections sink).2

end Dwarf

theorem BinarySignatures.read_silent (files : FileView) (object : Path) (sink : Diagnostics) :
    read files object (.empty false) =
      (read files object sink).map fun found => (found.1, .empty false) := by
  unfold read
  cases Object.open? files object with
  | error failure => rfl
  | ok file =>
      simp only [Except.map, ofFile, Dwarf.signatures_silent _ sink]
      split <;> rfl

namespace Merge

variable {precedence : Precedence}

theorem noteConflict_silent (name : String) (known : FoundFunction) (debug : Signature) :
    noteConflict (.empty false) name known debug = .empty false := by
  unfold noteConflict
  split
  · split <;> rfl
  · rfl

theorem addDebug_silent (state : FoundFunctions × Diagnostics) (entry : String × Signature) :
    addDebug precedence (state.1, .empty false) entry =
      ((addDebug precedence state entry).1, .empty false) := by
  unfold addDebug
  cases state.1[entry.1]? with
  | none => rfl
  | some known => simp only [noteConflict_silent]

theorem functions_silent (known : FoundFunctions) (binary : BinarySignatures) (sink : Diagnostics) :
    functions precedence known binary (.empty false) =
      ((functions precedence known binary sink).1, .empty false) := by
  have run (entries : List (String × Signature)) (state : FoundFunctions × Diagnostics) :
      entries.foldl (addDebug precedence) (state.1, .empty false) =
        ((entries.foldl (addDebug precedence) state).1, .empty false) := by
    induction entries generalizing state with
    | nil => rfl
    | cons entry entries ih => rw [List.foldl_cons, List.foldl_cons, addDebug_silent, ih]
  simp only [functions]
  rw [run binary.functions.toList (known, sink)]

end Merge

/-- The same search, whatever is noted about it. -/
theorem Locate.searchPaths_silent (config : Config) (enabled : Bool) (runner : ToolRunner)
    (course : Course) (sink : Diagnostics) (library : String) :
    searchPaths { config with diagnostics := enabled } runner course (.empty false) library =
      ((searchPaths config runner course sink library).1, .empty false,
        (searchPaths config runner course sink library).2.2) := by
  have hquery : query { config with diagnostics := enabled } runner course library =
      query config runner course library := rfl
  simp only [searchPaths, hquery]
  cases query config runner course library with
  | mk found course =>
      cases found with
      | ok dirs => rfl
      | error failure => cases failure <;> rfl

namespace Progress

def silence (progress : Progress) : Progress :=
  { progress with sink := .empty false }

theorem andThen_silence {quiet loud : Progress → Progress}
    (h : ∀ progress, quiet progress.silence = (loud progress).silence) (progress : Progress) :
    progress.silence.andThen quiet = (progress.andThen loud).silence := by
  have hcancelled : progress.silence.found.cancelled = progress.found.cancelled := rfl
  simp only [andThen, hcancelled, h]
  split <;> rfl

end Progress

namespace Surveyor

/-- The same surveyor, which notes what it absorbs or does not. -/
def noting (surveyor : Surveyor) (enabled : Bool) : Surveyor :=
  { surveyor with config := { surveyor.config with diagnostics := enabled } }

variable (surveyor : Surveyor) (progress : Progress)

theorem check_silence :
    (surveyor.noting false).check progress.silence = (surveyor.check progress).silence := rfl

theorem walkHeader_silence (header : Path) :
    (surveyor.noting false).walkHeader header progress.silence =
      (surveyor.walkHeader header progress).silence := by
  have hwalk := Session.walkLevels_silence surveyor.around .byTokens
    (surveyor.config.maxIncludeDepth + 1)
    (Session.start surveyor.config progress.found.searchPaths progress.course) header
  exact congrArg (takeWalk progress.silence) hwalk

theorem preprocess_silence (program : String) (header : Path) :
    (surveyor.noting false).preprocess program header progress.silence =
      (surveyor.preprocess program header progress).silence := by
  have hfound : Preprocess.functions (surveyor.noting false).runner progress.silence.course program
      header progress.silence.found.searchPaths (surveyor.noting false).config.annotations =
      Preprocess.functions surveyor.runner progress.course program header
        progress.found.searchPaths surveyor.config.annotations := rfl
  unfold preprocess
  rw [hfound]
  cases Preprocess.functions surveyor.runner progress.course program header
      progress.found.searchPaths surveyor.config.annotations with
  | mk found course =>
      cases found with
      | ok found => rfl
      | error failure => cases failure <;> rfl

theorem readHeader_silence (header : Path) :
    (surveyor.noting false).readHeader header progress.silence =
      (surveyor.readHeader header progress).silence := by
  have hwalked := Progress.andThen_silence
    (fun progress => surveyor.walkHeader_silence progress header) (surveyor.check progress)
  have hprogram : (surveyor.noting false).config.preprocessor = surveyor.config.preprocessor := rfl
  unfold readHeader
  rw [check_silence, hwalked, hprogram]
  cases surveyor.config.preprocessor with
  | none => rfl
  | some program =>
      simp only
      have hexpanded := Progress.andThen_silence fun progress =>
        surveyor.preprocess_silence progress program header
      rw [Progress.andThen_silence surveyor.check_silence, hexpanded]

theorem locatePaths_silence (library : String) :
    (surveyor.noting false).locatePaths library progress.silence =
      (surveyor.locatePaths library progress).silence := by
  have hsearch := Locate.searchPaths_silent surveyor.config false surveyor.runner progress.course
    progress.sink library
  unfold locatePaths
  rw [show Locate.searchPaths (surveyor.noting false).config (surveyor.noting false).runner
    progress.silence.course progress.silence.sink library = _ from hsearch]
  cases Locate.searchPaths surveyor.config surveyor.runner progress.course progress.sink
      library with
  | mk found after =>
      cases found with
      | ok paths => rfl
      | error failure => rfl

theorem readMainHeader_silence (library : String) :
    (surveyor.noting false).readMainHeader library progress.silence =
      (surveyor.readMainHeader library progress).silence := by
  have hheader : SearchPaths.mainHeader? (surveyor.noting false).files library
      progress.silence.found.searchPaths =
      SearchPaths.mainHeader? surveyor.files library progress.found.searchPaths := rfl
  unfold readMainHeader
  rw [hheader]
  cases SearchPaths.mainHeader? surveyor.files library progress.found.searchPaths with
  | error failure => rfl
  | ok header =>
      exact surveyor.readHeader_silence
        { progress with found := { progress.found with header := some header } } header

theorem headerStages_silence (library : String) :
    (surveyor.noting false).headerStages library progress.silence =
      (surveyor.headerStages library progress).silence := by
  unfold headerStages
  rw [check_silence,
    Progress.andThen_silence fun progress => surveyor.locatePaths_silence progress library,
    Progress.andThen_silence fun progress => surveyor.readMainHeader_silence progress library]

theorem takeBinary_silence (binary : BinarySignatures) :
    (surveyor.noting false).takeBinary binary progress.silence =
      (surveyor.takeBinary binary progress).silence := by
  have hmerged : Merge.functions (surveyor.noting false).config.precedence
      progress.silence.found.functions binary progress.silence.sink =
      ((Merge.functions surveyor.config.precedence progress.found.functions binary
        progress.sink).1, .empty false) := Merge.functions_silent _ binary progress.sink
  unfold takeBinary
  rw [hmerged]
  rfl

theorem readObject_silence (object : Path) :
    (surveyor.noting false).readObject object progress.silence =
      (surveyor.readObject object progress).silence := by
  unfold readObject
  rw [show BinarySignatures.read (surveyor.noting false).files object progress.silence.sink = _ from
    BinarySignatures.read_silent surveyor.files object progress.sink]
  cases BinarySignatures.read surveyor.files object progress.sink with
  | error failure => rfl
  | ok found =>
      exact Progress.andThen_silence (fun progress => surveyor.takeBinary_silence progress found.1)
        (surveyor.check { progress with sink := found.2 })

theorem binaryStages_silence (object : Path) :
    (surveyor.noting false).binaryStages object progress.silence =
      (surveyor.binaryStages object progress).silence := by
  unfold binaryStages
  rw [check_silence,
    Progress.andThen_silence fun progress => surveyor.readObject_silence progress object]

/-- A survey that notes what it absorbs finds the same as one that does not, which has no
diagnostics. -/
theorem noting_observes :
    (∀ (library : String) (object : Option Path),
      (surveyor.noting false).discover library object =
        { (surveyor.noting true).discover library object with diagnostics := [] }) ∧
    (∀ library : String, (surveyor.noting false).discoverHeaders library =
      { (surveyor.noting true).discoverHeaders library with diagnostics := [] }) ∧
    (∀ header : Path, (surveyor.noting false).parseHeader header =
      { (surveyor.noting true).parseHeader header with diagnostics := [] }) ∧
    ∀ object : Path, (surveyor.noting false).inspectObject object =
      { (surveyor.noting true).inspectObject object with diagnostics := [] } := by
  have hheaders (library : String) := (surveyor.noting true).headerStages_silence
    ((surveyor.noting true).start library) library
  refine ⟨fun library object => ?_, fun library => ?_, fun header => ?_, fun object => ?_⟩
  · cases object with
    | none => exact congrArg Progress.finish (hheaders library)
    | some object =>
        have h := Progress.andThen_silence
          (fun progress => (surveyor.noting true).binaryStages_silence progress object)
          ((surveyor.noting true).headerStages library ((surveyor.noting true).start library))
        rw [← hheaders library] at h
        exact congrArg Progress.finish h
  · exact congrArg Progress.finish (hheaders library)
  · exact congrArg Progress.finish ((surveyor.noting true).readHeader_silence
      { (surveyor.noting true).start (libraryOf header) with found :=
        { Survey.start (libraryOf header) with
          header := some header, searchPaths := surveyor.pathsAround header } } header)
  · exact congrArg Progress.finish ((surveyor.noting true).binaryStages_silence
      ((surveyor.noting true).start (libraryOf object)) object)

end Surveyor
end LibSurvey
