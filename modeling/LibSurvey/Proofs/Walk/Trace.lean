import LibSurvey.Header.Session

/-!
What a walk along includes does, as a list of events in depth-first order, and the session that they
leave. The list takes no notice of cancellation; a walk performs it up to the first look that finds
the walk cancelled. Which files the list reaches remains a separate obligation.
-/

namespace LibSurvey

/-- What a walk meets on its way. -/
inductive Event where
  /-- A path below the depth limit, which is left alone. -/
  | tooDeep (path : Path)
  /-- A file that has been seen before. -/
  | known (path : Path)
  | unreadable (path : Path) (error : OsError)
  /-- A file that is read, with so many levels left for what it includes. -/
  | parsed (path : Path) (room : Nat) (content : ByteArray)
  | unresolved (name : String) (includer : Path)

namespace Event

/-- Whether the walk looks for cancellation before it goes on. -/
def looks : Event → Bool
  | .tooDeep _ | .unresolved _ _ => false
  | .known _ | .unreadable _ _ | .parsed _ _ _ => true

/-- The path of a file that is seen for the first time. -/
def met? : Event → Option Path
  | .unreadable path _ | .parsed path _ _ => some path
  | .tooDeep _ | .known _ | .unresolved _ _ => none

/-- A file that is seen for the first time is read or found unreadable. -/
theorem cases_of_met? {event : Event} {path : Path} (h : event.met? = some path) :
    (∃ error, event = .unreadable path error) ∨ ∃ room content, event = .parsed path room content := by
  cases event with
  | unreadable p error => exact .inl ⟨error, by rw [Option.some.inj h]⟩
  | parsed p room content => exact .inr ⟨room, content, by rw [Option.some.inj h]⟩
  | tooDeep p => exact absurd h (by simp [met?])
  | known p => exact absurd h (by simp [met?])
  | unresolved name includer => exact absurd h (by simp [met?])

end Event

/-- What a file declares, whatever the session thinks of the way it was read. -/
def Reading.declared (reading : Reading) (annotations : Annotations) (bytes : List UInt8) :
    List Emission :=
  match reading with
  | .byLines own => lineEmissions (own.getD annotations) bytes
  | .byTokens =>
    match Declarations.ofBytes? annotations bytes with
    | .ok emissions => emissions
    | .error _ => lineEmissions annotations bytes

theorem Reading.emissions_fst (reading : Reading) (session : Session) (path : Path)
    (bytes : List UInt8) :
    (reading.emissions session path bytes).1 = reading.declared session.annotations bytes := by
  cases reading with
  | byLines own => rfl
  | byTokens =>
      unfold emissions declared
      cases Declarations.ofBytes? session.annotations bytes <;> rfl

/-- Reading a file leaves the session alone, except that it may note how it had to be read. -/
theorem Reading.emissions_snd (reading : Reading) (session : Session) (path : Path)
    (bytes : List UInt8) :
    ∃ diagnostics, (reading.emissions session path bytes).2 =
      { session with findings := { session.findings with diagnostics } } := by
  cases reading with
  | byLines own => exact ⟨_, rfl⟩
  | byTokens =>
      unfold emissions
      cases Declarations.ofBytes? session.annotations bytes with
      | ok emissions => exact ⟨_, rfl⟩
      | error fault => exact ⟨_, rfl⟩

namespace Session

variable (files : FileView) (reading : Reading)

/-- The session after it has looked and remembered a path. -/
def meet (session : Session) (path : Path) : Session :=
  { session with
    course := session.course.looked
    visited := files.identity path :: session.visited }

def perform (session : Session) : Event → Session
  | .tooDeep path => session.note reading.stage ("depth limit reached at " ++ path.text)
  | .known _ => { session with course := session.course.looked }
  | .unreadable path error =>
    (session.meet files path).note reading.stage
      (path.text ++ ": " ++ (Failure.io error.message).message)
  | .parsed path _ content =>
    let (emissions, session) := reading.emissions (session.meet files path) path content.toList
    { session with findings := session.findings.apply emissions }
  | .unresolved name includer => session.note reading.stage (reading.unresolved name includer)

def performAll (session : Session) (events : List Event) : Session :=
  events.foldl (perform files reading) session

/-- The events of following includes in order, with the events of a walk for each file they name. -/
def traceAll (trace : Session → Path → List Event) (includer : Path) :
    Session → List String → List Event
  | _, [] => []
  | session, name :: rest =>
    match session.resolve? files name includer with
    | none =>
      let event := Event.unresolved name includer
      event :: traceAll trace includer (session.perform files reading event) rest
    | some target =>
      let events := trace session target
      events ++ traceAll trace includer (session.performAll files reading events) rest

/-- The events of walking a file and what it includes, so many levels deep: first those of the file
itself, then those of its includes. -/
def trace : Nat → Session → Path → List Event
  | 0, _, path => [.tooDeep path]
  | levels + 1, session, path =>
    if session.visited.any (·.same (files.identity path)) then [.known path]
    else
      match files.read path with
      | .error error => [.unreadable path error]
      | .ok content =>
        let event := Event.parsed path levels content
        event :: traceAll files reading (trace levels) path (session.perform files reading event)
          (Emission.includes (reading.declared session.annotations content.toList))

/-- The session after events in order, up to the first look that finds the walk cancelled. -/
def replay (around : Surroundings) (reading : Reading) (session : Session) : List Event → Walked
  | [] => ⟨session, false⟩
  | event :: rest =>
    if event.looks && around.cancellation.isSet session.course then
      ⟨{ session with course := session.course.looked }, true⟩
    else (session.perform around.files reading event).replay around reading rest

variable {files : FileView} {reading : Reading} {around : Surroundings}

@[simp] theorem performAll_nil (session : Session) :
    session.performAll files reading [] = session := rfl

@[simp] theorem performAll_cons (session : Session) (event : Event) (events : List Event) :
    session.performAll files reading (event :: events) =
      (session.perform files reading event).performAll files reading events := rfl

theorem performAll_append (session : Session) (a b : List Event) :
    session.performAll files reading (a ++ b) =
      (session.performAll files reading a).performAll files reading b :=
  List.foldl_append

/-- Events that are all performed leave the session that they leave without cancellation. -/
theorem replay_session {session : Session} {events : List Event}
    (h : (session.replay around reading events).cancelled = false) :
    (session.replay around reading events).session =
      session.performAll around.files reading events := by
  induction events generalizing session with
  | nil => rfl
  | cons event events ih =>
      rw [replay] at h ⊢
      split at h
      · exact absurd h (by simp)
      · rw [if_neg ‹_›]
        exact ih h

theorem replay_append (session : Session) (a b : List Event) :
    session.replay around reading (a ++ b) =
      if (session.replay around reading a).cancelled then session.replay around reading a
      else (session.performAll around.files reading a).replay around reading b := by
  induction a generalizing session with
  | nil => rfl
  | cons event a ih =>
      rw [List.cons_append, replay, replay]
      by_cases h : event.looks && around.cancellation.isSet session.course
      · simp [h]
      · simp only [h, ite_false, Bool.false_eq_true]
        exact ih _

/-- Following includes performs their events if each walk performs the events of its file. -/
theorem followAll_eq_replay {walk : Session → Path → Walked} {trace : Session → Path → List Event}
    (h : ∀ session path, walk session path = session.replay around reading (trace session path))
    (includer : Path) (names : List String) (session : Session) :
    session.followAll around.files reading walk includer names =
      session.replay around reading (traceAll around.files reading trace includer session names) := by
  induction names generalizing session with
  | nil => rfl
  | cons name names ih =>
      rw [followAll, traceAll]
      cases hr : session.resolve? around.files name includer with
      | none =>
          simp only [replay, Event.looks, Bool.false_and, Bool.false_eq_true, ite_false]
          exact ih _
      | some target =>
          simp only
          -- A walk that is cut short is where both sides end; otherwise the rest goes on from it.
          rw [replay_append, ← h]
          cases hc : (walk session target).cancelled with
          | true => rfl
          | false =>
              have hs := h session target
              rw [hs] at hc
              rw [hs, replay_session hc, if_neg Bool.false_ne_true, if_neg Bool.false_ne_true]
              exact ih _

theorem trace_succ (levels : Nat) (session : Session) (path : Path) :
    ∃ event events, trace files reading (levels + 1) session path = event :: events ∧
      event.looks = true := by
  rw [trace]
  split
  · exact ⟨_, _, rfl, rfl⟩
  · split
    · exact ⟨_, _, rfl, rfl⟩
    · exact ⟨_, _, rfl, rfl⟩

/-- A walk performs its events. -/
theorem walkLevels_eq_replay (levels : Nat) (session : Session) (path : Path) :
    walkLevels around reading levels session path =
      session.replay around reading (trace around.files reading levels session path) := by
  induction levels generalizing session path with
  | zero => simp [walkLevels, trace, replay, Event.looks, perform]
  | succ levels ih =>
      cases hset : around.cancellation.isSet session.course with
      | true =>
          obtain ⟨event, events, htrace, hlooks⟩ :=
            @trace_succ around.files reading levels session path
          rw [htrace, walkLevels, replay, hset, hlooks]
          rfl
      | false =>
          rw [walkLevels, trace, hset, if_neg Bool.false_ne_true]
          simp only [visit?]
          cases hseen : session.visited.any (·.same (around.files.identity path)) with
          | true => simp [replay, hset, perform]
          | false =>
              simp only [Bool.false_eq_true, ite_false]
              cases hread : around.files.read path with
              | error error => simp [replay, hset, perform, meet]
              | ok content =>
                  have hdeclared : reading.declared session.annotations content.toList =
                      (reading.emissions (session.meet around.files path) path content.toList).1 :=
                    (reading.emissions_fst (session.meet around.files path) path content.toList).symm
                  simp only
                  rw [replay, hset, Bool.and_false, if_neg Bool.false_ne_true,
                    ← followAll_eq_replay ih, hdeclared]
                  rfl

theorem perform_parsed (session : Session) (path : Path) (room : Nat) (content : ByteArray) :
    ∃ diagnostics, session.perform files reading (.parsed path room content) =
      { session.meet files path with
        findings := Findings.apply { session.findings with diagnostics }
          (reading.declared session.annotations content.toList) } := by
  obtain ⟨diagnostics, h⟩ :=
    reading.emissions_snd (session.meet files path) path content.toList
  refine ⟨diagnostics, ?_⟩
  simp only [perform, h, Reading.emissions_fst]
  rfl

/-- All that an event changes in a session. -/
theorem perform_eq (session : Session) (event : Event) :
    ∃ findings, session.perform files reading event =
      { session with
        findings
        visited := (event.met?.map files.identity).toList ++ session.visited
        course := if event.looks then session.course.looked else session.course } := by
  cases event with
  | parsed path room content =>
      obtain ⟨diagnostics, h⟩ :=
        @perform_parsed files reading session path room content
      exact ⟨_, h⟩
  | tooDeep path => exact ⟨_, rfl⟩
  | known path => exact ⟨_, rfl⟩
  | unreadable path error => exact ⟨_, rfl⟩
  | unresolved name includer => exact ⟨_, rfl⟩

@[simp] theorem perform_searchPaths (session : Session) (event : Event) :
    (session.perform files reading event).searchPaths = session.searchPaths := by
  obtain ⟨findings, h⟩ := session.perform_eq event
  rw [h]

@[simp] theorem perform_maxDepth (session : Session) (event : Event) :
    (session.perform files reading event).maxDepth = session.maxDepth := by
  obtain ⟨findings, h⟩ := session.perform_eq event
  rw [h]

@[simp] theorem perform_annotations (session : Session) (event : Event) :
    (session.perform files reading event).annotations = session.annotations := by
  obtain ⟨findings, h⟩ := session.perform_eq event
  rw [h]

theorem perform_visited (session : Session) (event : Event) :
    (session.perform files reading event).visited =
      (event.met?.map files.identity).toList ++ session.visited := by
  obtain ⟨findings, h⟩ := session.perform_eq event
  rw [h]

theorem perform_course (session : Session) (event : Event) :
    (session.perform files reading event).course =
      if event.looks then session.course.looked else session.course := by
  obtain ⟨findings, h⟩ := session.perform_eq event
  rw [h]

@[simp] theorem performAll_maxDepth (session : Session) (events : List Event) :
    (session.performAll files reading events).maxDepth = session.maxDepth := by
  induction events generalizing session with
  | nil => rfl
  | cons event events ih => rw [performAll_cons, ih, perform_maxDepth]

@[simp] theorem performAll_annotations (session : Session) (events : List Event) :
    (session.performAll files reading events).annotations = session.annotations := by
  induction events generalizing session with
  | nil => rfl
  | cons event events ih => rw [performAll_cons, ih, perform_annotations]

/-- A walk is cancelled only if it finds the cancellation set at one of its looks. -/
theorem isSet_of_replay_cancelled {session : Session} {events : List Event}
    (h : (session.replay around reading events).cancelled = true) :
    ∃ looks, around.cancellation.isSet
      ⟨session.course.looks + looks, session.course.elapsedMs⟩ = true := by
  induction events generalizing session with
  | nil => exact absurd h (by simp [replay])
  | cons event events ih =>
      rw [replay] at h
      split at h
      case isTrue hset =>
        exact ⟨0, by simpa using (Bool.and_eq_true_iff.mp hset).2⟩
      case isFalse =>
        obtain ⟨looks, hlooks⟩ := ih h
        rw [perform_course] at hlooks
        split at hlooks
        · exact ⟨looks + 1, by simpa [Course.looked, Nat.add_assoc, Nat.add_comm 1] using hlooks⟩
        · exact ⟨looks, hlooks⟩

end Session
end LibSurvey
