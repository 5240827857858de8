import LibSurvey.Proofs.Survey.Shape
import LibSurvey.Proofs.Survey.Tracks

/-!
A survey that is cancelled beside the same survey undisturbed. Both are one until a look finds the
cancellation set; what was found until then is kept, and nothing is found that the undisturbed
survey would not find.
-/

namespace LibSurvey

namespace Surveyor

open Progress (Tracks Unwalked)

/-- The same surveyor, never cancelled. -/
def undisturbed (surveyor : Surveyor) : Surveyor :=
  { surveyor with cancellation := .never }

variable (surveyor : Surveyor) (progress : Progress)

/-- The looks of walking a header. -/
def walkLooks (header : Path) : List Look :=
  Event.lookList progress.course
    ((Session.start surveyor.config progress.found.searchPaths progress.course).walkEvents
      surveyor.files .byTokens header)

/-- The looks of calling the preprocessor. -/
def preprocessLooks (program : String) (header : Path) : List Look :=
  surveyor.runner.looks progress.course
    (Preprocess.request program header progress.found.searchPaths)

def readLooks (header : Path) : List Look :=
  let checked := surveyor.undisturbed.check progress
  let walked := checked.andThen (surveyor.undisturbed.walkHeader header)
  let rechecked := walked.andThen surveyor.undisturbed.check
  [⟨.walking header, progress.course⟩] ++ surveyor.walkLooks checked header ++
    match surveyor.config.preprocessor with
    | none => []
    | some program =>
      [⟨.preprocessing header, walked.course⟩] ++ surveyor.preprocessLooks rechecked program header

/-- The looks of asking the package tool. -/
def locateLooks (library : String) : List Look :=
  Locate.looks surveyor.runner surveyor.config.packageTool progress.course
    (LibraryName.packages library)

def mainLooks (library : String) : List Look :=
  match SearchPaths.mainHeader? surveyor.files library progress.found.searchPaths with
  | .error _ => []
  | .ok header =>
    surveyor.readLooks
      { progress with found := { progress.found with header := some header } } header

def headerLooks (library : String) : List Look :=
  let checked := surveyor.undisturbed.check progress
  let located := checked.andThen (surveyor.undisturbed.locatePaths library)
  [⟨.locating, progress.course⟩] ++ surveyor.locateLooks checked library ++
    surveyor.mainLooks located library

def objectLooks (object : Path) : List Look :=
  ⟨.opening object, progress.course⟩ ::
    match Object.open? surveyor.files object with
    | .error _ => []
    | .ok _ => [⟨.opened object, progress.course.looked⟩]

/-- All looks of an undisturbed survey in order. -/
def looks (library : String) (object : Option Path) : List Look :=
  let begun := surveyor.start library
  surveyor.headerLooks begun library ++
    match object with
    | none => []
    | some object =>
      surveyor.objectLooks (surveyor.undisturbed.headerStages library begun) object

variable {progress}

theorem check_unset (h : surveyor.cancellation.isSet progress.course = false) :
    surveyor.check progress = progress.looked := by
  simp [check, Progress.looked, h]

theorem check_set (h : surveyor.cancellation.isSet progress.course = true) :
    surveyor.check progress = progress.looked.cancel := by
  simp [check, Progress.looked, Progress.cancel, h]

@[simp] theorem check_undisturbed (progress : Progress) :
    surveyor.undisturbed.check progress = progress.looked :=
  surveyor.undisturbed.check_unset rfl

theorem tracks_check (occasion : Occasion) (going : progress.found.cancelled = false) :
    Tracks surveyor.cancellation [⟨occasion, progress.course⟩] (surveyor.check progress)
      (surveyor.undisturbed.check progress) := by
  rw [check_undisturbed]
  refine ⟨going, fun unseen => ?_, fun seen => ?_⟩
  · have hunset : surveyor.cancellation.isSet progress.course = false := by simpa using unseen
    exact surveyor.check_unset hunset
  · have hset : surveyor.cancellation.isSet progress.course = true := by simpa using seen
    rw [surveyor.check_set hset]
    exact ⟨rfl, Survey.within_cancelled _⟩

theorem within_check : progress.found.Within (surveyor.check progress).found :=
  .of_eq rfl rfl rfl

theorem unwalked_check (h : progress.Unwalked) : (surveyor.check progress).Unwalked :=
  ⟨h.constants, h.macros⟩

theorem tracks_walkHeader (header : Path) :
    Tracks surveyor.cancellation (surveyor.walkLooks progress header)
      (surveyor.walkHeader header progress) (surveyor.undisturbed.walkHeader header progress) := by
  let session := Session.start surveyor.config progress.found.searchPaths progress.course
  let events := session.walkEvents surveyor.files .byTokens header
  have hfull : session.walk surveyor.undisturbed.around .byTokens header =
      ⟨session.performAll surveyor.files .byTokens events, false⟩ :=
    (Session.walk_eq_replay session header).trans
      (Session.replay_unseen (Cancellation.not_seen_never _))
  have hactual : session.walk surveyor.around .byTokens header =
      session.replay surveyor.around .byTokens events := Session.walk_eq_replay session header
  refine ⟨?_, fun unseen => ?_, fun seen => ?_⟩
  · exact congrArg Walked.cancelled hfull
  · have hwalk : session.walk surveyor.around .byTokens header =
        session.walk surveyor.undisturbed.around .byTokens header := by
      rw [hfull, hactual]
      exact Session.replay_unseen unseen
    exact congrArg (takeWalk progress) hwalk
  · obtain ⟨cancelled, before, after, hevents, hfindings⟩ :=
      @Session.replay_seen surveyor.around .byTokens session events seen
    -- The events that the cancelled walk did not reach would only have added to its findings.
    have within : (session.walk surveyor.around .byTokens header).session.findings.signatures.Within
        (session.walk surveyor.undisturbed.around .byTokens header).session.findings.signatures := by
      rw [hactual, hfindings, hfull, hevents, Session.performAll_append]
      exact Session.within_performAll _ after
    rw [← hactual] at cancelled
    exact ⟨cancelled, within.constants, within.macros,
      fun name found => within_addHeaderFunctions within.functions⟩

/-- The first walk of a survey adds to what is known. -/
theorem within_walkHeader (unwalked : progress.Unwalked) (header : Path) :
    progress.found.Within (surveyor.walkHeader header progress).found := by
  refine ⟨fun name h => ?_, fun name h => ?_, fun name found h => known_addHeaderFunctions _ h⟩
  · rw [unwalked.constants] at h
    simp at h
  · rw [unwalked.macros] at h
    simp at h

/-- What comes of a preprocessor's answer. -/
def takePreprocessed (progress : Progress) :
    Except Failure (List (String × Signature)) × Course → Progress
  | (.ok found, course) =>
    { progress with
      found := { progress.found with
        functions := addHeaderFunctions progress.found.functions found }
      course }
  | (.error .cancelled, course) => { progress with course }.cancel
  | (.error failure, course) => { progress with course }.note .preprocess failure

theorem preprocess_eq (progress : Progress) (program : String) (header : Path) :
    surveyor.preprocess program header progress =
      takePreprocessed progress (Preprocess.functions surveyor.runner progress.course program
        header progress.found.searchPaths surveyor.config.annotations) := rfl

theorem within_takePreprocessed
    (answer : Except Failure (List (String × Signature)) × Course) :
    progress.found.Within (takePreprocessed progress answer).found := by
  unfold takePreprocessed
  split
  · exact ⟨fun _ h => h, fun _ h => h, fun _ _ h => known_addHeaderFunctions _ h⟩
  · exact .of_eq rfl rfl rfl
  · exact .refl _

theorem tracks_preprocess (going : progress.found.cancelled = false) (program : String)
    (header : Path) :
    Tracks surveyor.cancellation (surveyor.preprocessLooks progress program header)
      (surveyor.preprocess program header progress)
      (surveyor.undisturbed.preprocess program header progress) := by
  rw [preprocess_eq, preprocess_eq]
  refine Progress.tracks_of_answer (takePreprocessed progress)
    (Preprocess.interrupts_functions surveyor.runner progress.course program header
      progress.found.searchPaths surveyor.config.annotations) ?_ ?_
  · intro answer course hanswer
    cases answer with
    | ok found => exact going
    | error failure => cases failure <;> first | exact going | exact absurd rfl hanswer
  · intro course
    exact ⟨rfl, (Survey.within_cancelled progress.found).trans (within_takePreprocessed _)⟩

theorem within_andThen {survey : Survey} {next : Progress → Progress}
    (h : survey.Within progress.found) (step : progress.found.Within (next progress).found) :
    survey.Within (progress.andThen next).found :=
  Progress.andThen_induction (P := fun progress => survey.Within progress.found) h
    fun _ => h.trans step

theorem within_readHeader (unwalked : progress.Unwalked) (header : Path) :
    progress.found.Within (surveyor.readHeader header progress).found := by
  have walked : progress.found.Within
      ((surveyor.check progress).andThen (surveyor.walkHeader header)).found :=
    within_andThen surveyor.within_check
      (surveyor.within_walkHeader (surveyor.unwalked_check unwalked) header)
  unfold readHeader
  cases surveyor.config.preprocessor with
  | none => exact walked
  | some program =>
      exact within_andThen (within_andThen walked surveyor.within_check) (within_takePreprocessed _)

theorem tracks_readHeader (going : progress.found.cancelled = false)
    (unwalked : progress.Unwalked) (header : Path) :
    Tracks surveyor.cancellation (surveyor.readLooks progress header)
      (surveyor.readHeader header progress) (surveyor.undisturbed.readHeader header progress) := by
  have checked := surveyor.tracks_check (.walking header) going
  have walked := checked.andThen (surveyor.tracks_walkHeader header)
    (within_walkHeader _ (unwalked_check _ unwalked) header)
  have hprogram : surveyor.undisturbed.config.preprocessor = surveyor.config.preprocessor := rfl
  unfold readHeader readLooks
  rw [hprogram]
  cases surveyor.config.preprocessor with
  | none => simpa using walked
  | some program =>
      have rechecked := walked.andThen
        (surveyor.tracks_check (.preprocessing header) walked.going) (within_check _)
      have preprocessed := rechecked.andThen
        (surveyor.tracks_preprocess rechecked.going program header)
        (within_takePreprocessed _)
      simpa using preprocessed

/-- What comes of a package tool's answer. -/
def takeLocated (config : Config) (progress : Progress) :
    Except Failure (List Path) × Course → Progress
  | (.ok dirs, course) =>
    { progress with
      found := { progress.found with
        searchPaths := SearchPaths.all ⟨config.extraDirs, dirs, config.systemDirs⟩ }
      course }
  | (.error .cancelled, course) => { progress with course }.cancel
  | (.error failure, course) =>
    { found := { progress.found with
        searchPaths := SearchPaths.all ⟨config.extraDirs, [], config.systemDirs⟩ }
      sink := progress.sink.record .locate failure.message
      course }

theorem locatePaths_eq (progress : Progress) (library : String) :
    surveyor.locatePaths library progress =
      takeLocated surveyor.config progress
        (Locate.query surveyor.config surveyor.runner progress.course library) := by
  unfold locatePaths Locate.searchPaths
  cases Locate.query surveyor.config surveyor.runner progress.course library with
  | mk answer course =>
      cases answer with
      | ok dirs => rfl
      | error failure => cases failure <;> rfl

/-- Locating finds nothing but directories. -/
theorem takeLocated_found (config : Config) (progress : Progress)
    (answer : Except Failure (List Path) × Course) :
    ∃ (searchPaths : List Path) (cancelled : Bool),
      (takeLocated config progress answer).found =
        { progress.found with searchPaths, cancelled } := by
  unfold takeLocated
  split
  · exact ⟨_, _, rfl⟩
  · exact ⟨_, _, rfl⟩
  · exact ⟨_, _, rfl⟩

theorem within_locatePaths (library : String) :
    progress.found.Within (surveyor.locatePaths library progress).found := by
  rw [locatePaths_eq]
  obtain ⟨searchPaths, cancelled, hfound⟩ := takeLocated_found surveyor.config progress
    (Locate.query surveyor.config surveyor.runner progress.course library)
  rw [hfound]
  exact .of_eq rfl rfl rfl

theorem unwalked_locatePaths (unwalked : progress.Unwalked) (library : String) :
    (surveyor.locatePaths library progress).Unwalked := by
  rw [locatePaths_eq]
  obtain ⟨searchPaths, cancelled, hfound⟩ := takeLocated_found surveyor.config progress
    (Locate.query surveyor.config surveyor.runner progress.course library)
  refine ⟨?_, ?_⟩
  · rw [hfound]
    exact unwalked.constants
  · rw [hfound]
    exact unwalked.macros

theorem tracks_locatePaths (going : progress.found.cancelled = false) (library : String) :
    Tracks surveyor.cancellation (surveyor.locateLooks progress library)
      (surveyor.locatePaths library progress)
      (surveyor.undisturbed.locatePaths library progress) := by
  have grows : progress.found.Within (surveyor.undisturbed.locatePaths library progress).found :=
    surveyor.undisturbed.within_locatePaths library
  rw [locatePaths_eq] at grows
  rw [locatePaths_eq, locatePaths_eq]
  refine Progress.tracks_of_answer (takeLocated surveyor.config progress)
    (Locate.interrupts_queryNames surveyor.runner surveyor.config.packageTool false
      (by simp) progress.course (LibraryName.packages library)) ?_ ?_
  · intro answer course hanswer
    cases answer with
    | ok dirs => exact going
    | error failure => cases failure <;> first | exact going | exact absurd rfl hanswer
  · intro course
    exact ⟨rfl, (Survey.within_cancelled progress.found).trans grows⟩

theorem tracks_readMainHeader (going : progress.found.cancelled = false)
    (unwalked : progress.Unwalked) (library : String) :
    Tracks surveyor.cancellation (surveyor.mainLooks progress library)
      (surveyor.readMainHeader library progress)
      (surveyor.undisturbed.readMainHeader library progress) := by
  have hfiles : surveyor.undisturbed.files = surveyor.files := rfl
  unfold readMainHeader mainLooks
  rw [hfiles]
  cases SearchPaths.mainHeader? surveyor.files library progress.found.searchPaths with
  | error failure =>
      exact ⟨going, fun _ => rfl, fun seen => absurd seen Cancellation.seen_nil⟩
  | ok header =>
      let given : Progress :=
        { progress with found := { progress.found with header := some header } }
      have going_given : given.found.cancelled = false := going
      have unwalked_given : given.Unwalked := ⟨unwalked.constants, unwalked.macros⟩
      exact surveyor.tracks_readHeader going_given unwalked_given header

theorem within_readMainHeader (unwalked : progress.Unwalked) (library : String) :
    progress.found.Within (surveyor.readMainHeader library progress).found := by
  unfold readMainHeader
  split
  · exact .refl _
  next header _ =>
      let given : Progress :=
        { progress with found := { progress.found with header := some header } }
      have within_given : progress.found.Within given.found := .of_eq rfl rfl rfl
      have unwalked_given : given.Unwalked := ⟨unwalked.constants, unwalked.macros⟩
      exact within_given.trans (surveyor.within_readHeader unwalked_given header)

theorem tracks_headerStages (going : progress.found.cancelled = false)
    (unwalked : progress.Unwalked) (library : String) :
    Tracks surveyor.cancellation (surveyor.headerLooks progress library)
      (surveyor.headerStages library progress)
      (surveyor.undisturbed.headerStages library progress) := by
  have checked := surveyor.tracks_check .locating going
  have located := checked.andThen (surveyor.tracks_locatePaths checked.going library)
    (surveyor.undisturbed.within_locatePaths library)
  have unwalked_located : ((surveyor.undisturbed.check progress).andThen
      (surveyor.undisturbed.locatePaths library)).Unwalked :=
    Progress.andThen_induction (P := Unwalked) (unwalked_check _ unwalked)
      fun _ => unwalked_locatePaths _ (unwalked_check _ unwalked) library
  exact located.andThen (surveyor.tracks_readMainHeader located.going unwalked_located library)
    (within_readMainHeader _ unwalked_located library)

theorem readObject_failed {object : Path} {failure : Failure}
    (h : Object.open? surveyor.files object = .error failure) :
    surveyor.readObject object progress =
      { progress with found := { progress.found with binaryFailure := some failure } }.note
        .debugInfo failure := by
  simp [readObject, BinarySignatures.read, h, Except.map]

theorem readObject_opened {object : Path} {file : Object.File}
    (h : Object.open? surveyor.files object = .ok file) :
    surveyor.readObject object progress =
      (surveyor.check { progress with
          sink := (BinarySignatures.ofFile object file progress.sink).2 }).andThen
        (surveyor.takeBinary (BinarySignatures.ofFile object file progress.sink).1) := by
  simp [readObject, BinarySignatures.read, h, Except.map]

theorem binaryStages_unset (going : progress.found.cancelled = false)
    (h : surveyor.cancellation.isSet progress.course = false) (object : Path) :
    surveyor.binaryStages object progress = surveyor.readObject object progress.looked := by
  rw [binaryStages, surveyor.check_unset h, Progress.andThen_going (by simpa using going)]

theorem binaryStages_undisturbed (going : progress.found.cancelled = false) (object : Path) :
    (surveyor.undisturbed.binaryStages object progress).found.cancelled = false := by
  rw [surveyor.undisturbed.binaryStages_unset going rfl]
  cases hopen : Object.open? surveyor.files object with
  | error failure =>
      rw [surveyor.undisturbed.readObject_failed hopen]
      exact going
  | ok file =>
      rw [surveyor.undisturbed.readObject_opened hopen, check_undisturbed,
        Progress.andThen_going (by simpa using going)]
      exact going

/-- An object that is read before the survey is cancelled is read as if it could not be. -/
theorem binaryStages_unseen (going : progress.found.cancelled = false) (object : Path)
    (h : ¬surveyor.cancellation.Seen (surveyor.objectLooks progress object)) :
    surveyor.binaryStages object progress = surveyor.undisturbed.binaryStages object progress := by
  rw [objectLooks, Cancellation.seen_cons, not_or] at h
  obtain ⟨hopening, hopened⟩ := h
  rw [surveyor.binaryStages_unset going (Bool.eq_false_iff.mpr hopening),
    surveyor.undisturbed.binaryStages_unset going rfl]
  cases hopen : Object.open? surveyor.files object with
  | error failure =>
      rw [surveyor.readObject_failed hopen, surveyor.undisturbed.readObject_failed hopen]
  | ok file =>
      have hunset : surveyor.cancellation.isSet progress.course.looked = false := by
        simpa [hopen] using hopened
      rw [surveyor.readObject_opened hopen, surveyor.undisturbed.readObject_opened hopen,
        check_undisturbed, surveyor.check_unset hunset]
      rfl

/-- An object tells nothing to a survey that is cancelled before or after it was read. -/
theorem binaryStages_seen (going : progress.found.cancelled = false) (object : Path)
    (h : surveyor.cancellation.Seen (surveyor.objectLooks progress object)) :
    (surveyor.binaryStages object progress).found =
      { progress.found with cancelled := true } := by
  rw [objectLooks, Cancellation.seen_cons] at h
  by_cases hopening : surveyor.cancellation.isSet progress.course = true
  · rw [binaryStages, surveyor.check_set hopening, Progress.andThen_cancelled rfl]
    rfl
  · have hopened := h.resolve_left hopening
    rw [surveyor.binaryStages_unset going (Bool.eq_false_iff.mpr hopening)]
    cases hopen : Object.open? surveyor.files object with
    | error failure => simp [hopen] at hopened
    | ok file =>
        have hset : surveyor.cancellation.isSet progress.course.looked = true := by
          simpa [hopen] using hopened
        rw [surveyor.readObject_opened hopen, surveyor.check_set hset,
          Progress.andThen_cancelled rfl]
        rfl

theorem tracks_start (library : String) :
    Tracks surveyor.cancellation (surveyor.headerLooks (surveyor.start library) library)
      (surveyor.headerStages library (surveyor.start library))
      (surveyor.undisturbed.headerStages library (surveyor.start library)) :=
  surveyor.tracks_headerStages rfl ⟨rfl, rfl⟩ library

theorem discover_none (library : String) :
    surveyor.discover library none =
      (surveyor.headerStages library (surveyor.start library)).finish := rfl

theorem discover_object (library : String) (object : Path) :
    surveyor.discover library (some object) =
      ((surveyor.headerStages library (surveyor.start library)).andThen
        (surveyor.binaryStages object)).finish := rfl

@[simp] theorem start_undisturbed (library : String) :
    surveyor.undisturbed.start library = surveyor.start library := rfl

theorem discover_unseen (library : String) (object : Option Path)
    (h : ¬surveyor.cancellation.Seen (surveyor.looks library object)) :
    surveyor.discover library object = surveyor.undisturbed.discover library object := by
  have headers := surveyor.tracks_start library
  have hheaders : ¬surveyor.cancellation.Seen
      (surveyor.headerLooks (surveyor.start library) library) := fun seen =>
    h ((Cancellation.seen_append _ _).mpr (.inl seen))
  cases object with
  | none => rw [discover_none, discover_none, start_undisturbed, headers.unseen hheaders]
  | some object =>
      have hobject := fun seen => h ((Cancellation.seen_append _ _).mpr (.inr seen))
      rw [discover_object, discover_object, start_undisturbed, headers.unseen hheaders,
        Progress.andThen_going headers.going, Progress.andThen_going headers.going,
        surveyor.binaryStages_unseen headers.going object hobject]

theorem discover_undisturbed (library : String) (object : Option Path) :
    (surveyor.undisturbed.discover library object).cancelled = false := by
  have headers := surveyor.tracks_start library
  cases object with
  | none =>
      rw [discover_none, start_undisturbed, Progress.finish_cancelled]
      exact headers.going
  | some object =>
      rw [discover_object, start_undisturbed, Progress.andThen_going headers.going,
        Progress.finish_cancelled]
      exact surveyor.binaryStages_undisturbed headers.going object

theorem discover_seen (library : String) (object : Option Path)
    (h : surveyor.cancellation.Seen (surveyor.looks library object)) :
    (surveyor.discover library object).cancelled = true ∧
      (surveyor.discover library object).Within (surveyor.undisturbed.discoverHeaders library) := by
  have headers := surveyor.tracks_start library
  -- A survey that stops at the headers never comes to the object.
  by_cases hheaders : surveyor.cancellation.Seen
      (surveyor.headerLooks (surveyor.start library) library)
  · obtain ⟨stopped, within⟩ := headers.seen hheaders
    cases object with
    | none => exact ⟨stopped, Progress.within_finish within⟩
    | some object =>
        rw [discover_object, Progress.andThen_cancelled stopped]
        exact ⟨stopped, Progress.within_finish within⟩
  · have hobject := ((Cancellation.seen_append _ _).mp h).resolve_left hheaders
    cases object with
    | none => exact absurd hobject Cancellation.seen_nil
    | some object =>
        have hfound := surveyor.binaryStages_seen headers.going object hobject
        rw [discover_object, headers.unseen hheaders, Progress.andThen_going headers.going]
        refine ⟨by rw [Progress.finish_cancelled, hfound], Progress.within_finish ?_⟩
        rw [hfound]
        exact Survey.within_cancelled _

/-- A survey is cancelled exactly if one of its looks finds the cancellation set; it is the
undisturbed one otherwise. A cancelled survey has nothing from an object, and what it has from
headers is what the undisturbed survey of the headers finds as well. -/
theorem discover_cancelled (library : String) (object : Option Path) :
    ((surveyor.discover library object).cancelled = true ↔
      surveyor.cancellation.Seen (surveyor.looks library object)) ∧
    ((surveyor.discover library object).cancelled = false →
      surveyor.discover library object = surveyor.undisturbed.discover library object) ∧
    ((surveyor.discover library object).cancelled = true →
      (surveyor.discover library object).architecture = none ∧
      (surveyor.discover library object).binaryFailure = none ∧
      (surveyor.discover library object).Unmerged ∧
      (surveyor.discover library object).Within
        (surveyor.undisturbed.discoverHeaders library)) := by
  by_cases h : surveyor.cancellation.Seen (surveyor.looks library object)
  · obtain ⟨cancelled, within⟩ := surveyor.discover_seen library object h
    have headers := (surveyor.ending_discover library object).headersOnly cancelled
    refine ⟨iff_of_true cancelled h, fun going => ?_, fun _ => ?_⟩
    · exact absurd (going.symm.trans cancelled) Bool.false_ne_true
    · exact ⟨headers.architecture, headers.binaryFailure, headers.unmerged, within⟩
  · have hwhole := surveyor.discover_unseen library object h
    have going : (surveyor.discover library object).cancelled = false := by
      rw [hwhole]
      exact surveyor.discover_undisturbed library object
    refine ⟨iff_of_false (Bool.eq_false_iff.mp going) h, fun _ => hwhole, fun cancelled => ?_⟩
    exact absurd (going.symm.trans cancelled) Bool.false_ne_true

end Surveyor
end LibSurvey
