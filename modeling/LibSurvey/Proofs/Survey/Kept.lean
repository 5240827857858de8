import LibSurvey.Proofs.FileTree
import LibSurvey.Proofs.Survey.Cancelled

/-!
What a survey keeps of its walk. Once the main header is walked, what the walk found is in the survey,
whether the walk came to its end or was cut short and wherever the survey itself stops after it; only an
object that is read changes functions again.
-/

namespace LibSurvey

namespace Survey

/-- A survey has what a walk found. -/
structure Keeps (survey : Survey) (signatures : SignatureSet) : Prop where
  constants : survey.constants = signatures.constants
  macros : survey.macros = signatures.macros
  functions : survey.architecture = none → ∀ (name : String) (signature : Signature),
    signatures.functions[name]? = some signature →
      survey.functions[name]? = some (.typed signature .header)

theorem Keeps.of_eq {survey other : Survey} {signatures : SignatureSet}
    (h : survey.Keeps signatures) (constants : other.constants = survey.constants)
    (macros : other.macros = survey.macros) (functions : other.functions = survey.functions)
    (architecture : other.architecture = survey.architecture) : other.Keeps signatures := by
  refine ⟨constants.trans h.constants, macros.trans h.macros, fun hnone name signature hname => ?_⟩
  rw [functions]
  exact h.functions (architecture ▸ hnone) name signature hname

end Survey

namespace Surveyor

open Progress (Tracks)

variable (surveyor : Surveyor) {progress : Progress} {signatures : SignatureSet}

theorem keeps_andThen {next : Progress → Progress} (h : progress.found.Keeps signatures)
    (step : (next progress).found.Keeps signatures) :
    (progress.andThen next).found.Keeps signatures :=
  Progress.andThen_induction (P := fun progress => progress.found.Keeps signatures) h fun _ => step

theorem keeps_finish (h : progress.found.Keeps signatures) : progress.finish.Keeps signatures :=
  h.of_eq rfl rfl rfl rfl

theorem keeps_check (h : progress.found.Keeps signatures) :
    (surveyor.check progress).found.Keeps signatures :=
  h.of_eq rfl rfl rfl rfl

/-- What a survey that has come so far finds by walking a header. -/
def walked (searchPaths : List Path) (course : Course) (header : Path) : SignatureSet :=
  ((Session.start surveyor.config searchPaths course).walk surveyor.around .byTokens
    header).session.findings.signatures

theorem keeps_walkHeader (empty : progress.found.functions = ∅) (header : Path) :
    (surveyor.walkHeader header progress).found.Keeps
      (surveyor.walked progress.found.searchPaths progress.course header) := by
  refine ⟨rfl, rfl, fun _ name signature hname => ?_⟩
  change (addHeaderFunctions progress.found.functions
    (surveyor.walked progress.found.searchPaths progress.course header).functions.toList)[name]? = _
  rw [getElem?_addHeaderFunctions, Merge.lookup_toList, empty, hname]
  simp

theorem keeps_takePreprocessed (h : progress.found.Keeps signatures)
    (answer : Except Failure (List (String × Signature)) × Course) :
    (takePreprocessed progress answer).found.Keeps signatures := by
  unfold takePreprocessed
  split
  · refine ⟨h.constants, h.macros, fun hnone name signature hname => ?_⟩
    exact known_addHeaderFunctions _ (h.functions hnone name signature hname)
  · exact h.of_eq rfl rfl rfl rfl
  · exact h

theorem keeps_readObject (h : progress.found.Keeps signatures) (object : Path) :
    (surveyor.readObject object progress).found.Keeps signatures := by
  cases hopen : Object.open? surveyor.files object with
  | error failure =>
      rw [surveyor.readObject_failed hopen]
      exact h.of_eq rfl rfl rfl rfl
  | ok file =>
      rw [surveyor.readObject_opened hopen]
      let parsed : Progress :=
        { progress with sink := (BinarySignatures.ofFile object file progress.sink).2 }
      have checked := @keeps_check surveyor parsed signatures h
      -- Functions are merged with those of the object, whose machine is then known.
      exact keeps_andThen checked ⟨checked.constants, checked.macros, fun hnone => nomatch hnone⟩

theorem keeps_binaryStages (h : progress.found.Keeps signatures) (object : Path) :
    (surveyor.binaryStages object progress).found.Keeps signatures :=
  keeps_andThen (surveyor.keeps_check h) (surveyor.keeps_readObject (surveyor.keeps_check h) object)

/-- A survey that has come to the walk of a header keeps what the walk finds. -/
theorem keeps_readHeader (empty : progress.found.functions = ∅)
    (going : progress.found.cancelled = false)
    (unset : surveyor.cancellation.isSet progress.course = false) (header : Path) :
    (surveyor.readHeader header progress).found.Keeps
      (surveyor.walked progress.found.searchPaths progress.course.looked header) := by
  have walked : ((surveyor.check progress).andThen (surveyor.walkHeader header)).found.Keeps
      (surveyor.walked progress.found.searchPaths progress.course.looked header) := by
    have unfound : progress.looked.found.functions = ∅ := empty
    rw [surveyor.check_unset unset, Progress.andThen_going (by simpa using going)]
    exact surveyor.keeps_walkHeader unfound header
  unfold readHeader
  cases surveyor.config.preprocessor with
  | none => exact walked
  | some program =>
      have checked := keeps_andThen walked (surveyor.keeps_check walked)
      exact keeps_andThen checked (keeps_takePreprocessed checked _)

/-- An undisturbed survey when it has located where headers are. -/
def located (library : String) : Progress :=
  (surveyor.undisturbed.check (surveyor.start library)).andThen
    (surveyor.undisturbed.locatePaths library)

/-- The looks of locating where headers are and the one before the main header is walked. -/
def looksToWalk (library : String) (header : Path) : List Look :=
  let begun := surveyor.start library
  [⟨.locating, begun.course⟩] ++
    surveyor.locateLooks (surveyor.undisturbed.check begun) library ++
      [⟨.walking header, (surveyor.located library).course⟩]

theorem located_functions (library : String) : (surveyor.located library).found.functions = ∅ := by
  unfold located
  refine Progress.andThen_induction (P := fun progress => progress.found.functions = ∅) rfl fun _ => ?_
  rw [locatePaths_eq]
  obtain ⟨searchPaths, cancelled, hfound⟩ := takeLocated_found surveyor.undisturbed.config
    (surveyor.undisturbed.check (surveyor.start library))
    (Locate.query surveyor.undisturbed.config surveyor.undisturbed.runner
      (surveyor.undisturbed.check (surveyor.start library)).course library)
  rw [hfound]
  rfl

theorem tracks_located (library : String) :
    Tracks surveyor.cancellation
      ([⟨.locating, (surveyor.start library).course⟩] ++
        surveyor.locateLooks (surveyor.undisturbed.check (surveyor.start library)) library)
      ((surveyor.check (surveyor.start library)).andThen (surveyor.locatePaths library))
      (surveyor.located library) := by
  have begun : (surveyor.start library).found.cancelled = false := rfl
  have checked := surveyor.tracks_check .locating begun
  exact checked.andThen (surveyor.tracks_locatePaths checked.going library)
    (surveyor.undisturbed.within_locatePaths library)

/-- A survey that comes to the walk of its main header keeps what the walk finds there. -/
theorem keeps_headerStages (library : String) {header : Path}
    (hheader : SearchPaths.mainHeader? surveyor.files library
      (surveyor.located library).found.searchPaths = .ok header)
    (unseen : ¬surveyor.cancellation.Seen (surveyor.looksToWalk library header)) :
    (surveyor.headerStages library (surveyor.start library)).found.Keeps
      (surveyor.walked (surveyor.located library).found.searchPaths
        (surveyor.located library).course.looked header) := by
  have tracked := surveyor.tracks_located library
  rw [looksToWalk, Cancellation.seen_append, Cancellation.seen_cons, not_or, not_or] at unseen
  obtain ⟨hlocating, hwalking, -⟩ := unseen
  rw [headerStages, tracked.unseen hlocating, Progress.andThen_going tracked.going, readMainHeader,
    hheader]
  let given : Progress :=
    { surveyor.located library with
      found := { (surveyor.located library).found with header := some header } }
  have empty : given.found.functions = ∅ := surveyor.located_functions library
  exact surveyor.keeps_readHeader empty tracked.going (Bool.eq_false_iff.mpr hwalking) header

/-- What a survey found by walking its main header stays in it, also if the walk was cut short or the
survey is cancelled later. -/
theorem discover_keeps (library : String) (object : Option Path) {header : Path}
    (hheader : SearchPaths.mainHeader? surveyor.files library
      (surveyor.located library).found.searchPaths = .ok header)
    (unseen : ¬surveyor.cancellation.Seen (surveyor.looksToWalk library header)) :
    (surveyor.discover library object).Keeps
      (surveyor.walked (surveyor.located library).found.searchPaths
        (surveyor.located library).course.looked header) := by
  have headers := surveyor.keeps_headerStages library hheader unseen
  cases object with
  | none =>
      rw [discover_none]
      exact keeps_finish headers
  | some object =>
      rw [discover_object]
      exact keeps_finish (keeps_andThen headers (surveyor.keeps_binaryStages headers object))

/-- Without tools, a survey of a header that includes another; it is cancelled from this look on. -/
def halting (look : Nat) : Surveyor where
  config := { Config.default with extraDirs := [⟨"a"⟩] }
  files := (FileTree.ofTexts
    [("a/foo.h", "#include \"rest.h\"\nint f(void);\n"), ("a/rest.h", "int g(void);\n")]).view
  tools := fun _ => .missing "none"
  cancellation := .fromLook look

/-- The look before the second header comes when the first has been read. -/
example :
    ((halting 5).discover "foo" none).cancelled = true ∧
    ((halting 5).discover "foo" none).functions.keys = ["f"] ∧
    ((halting 6).discover "foo" none).functions.keys = ["f", "g"] := by
  decide +kernel

end Surveyor
end LibSurvey
