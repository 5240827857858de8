import LibSurvey.Proofs.Walk.History
import LibSurvey.Survey

/-!
Where a survey looks for cancellation. The looks are listed as an undisturbed run makes them, so the
list does not depend on what they see. A tool, a search or a walk that none of its looks finds
cancelled goes as if it could not be; any other ends as cancelled. What a survey makes of that
remains a separate obligation.
-/

namespace LibSurvey

inductive Occasion where
  /-- Before the directories of a library are located. -/
  | locating
  /-- Before a tool starts. -/
  | starting (call : ToolCall)
  /-- While a tool is found running. -/
  | polling (call : ToolCall)
  /-- Before the walk of a header. -/
  | walking (header : Path)
  /-- Before a header that the walk comes to. -/
  | visiting (header : Path)
  /-- Before the preprocessor is called. -/
  | preprocessing (header : Path)
  /-- Before an object is read. -/
  | opening (object : Path)
  /-- After an object was read. -/
  | opened (object : Path)

structure Look where
  occasion : Occasion
  /-- How far the survey has come. -/
  course : Course

/-- One of the looks finds the cancellation set. -/
def Cancellation.Seen (cancellation : Cancellation) (looks : List Look) : Prop :=
  ∃ look ∈ looks, cancellation.isSet look.course = true

namespace Cancellation

variable {cancellation : Cancellation}

@[simp] theorem seen_nil : ¬cancellation.Seen [] := by
  simp [Seen]

@[simp] theorem seen_cons (look : Look) (looks : List Look) :
    cancellation.Seen (look :: looks) ↔
      cancellation.isSet look.course = true ∨ cancellation.Seen looks := by
  simp [Seen]

@[simp] theorem seen_append (a b : List Look) :
    cancellation.Seen (a ++ b) ↔ cancellation.Seen a ∨ cancellation.Seen b := by
  simp [Seen, or_and_right, exists_or]

theorem not_seen_never (looks : List Look) : ¬never.Seen looks := by
  simp [Seen, isSet]

/-- An answer beside the one to the same question undisturbed. They are one unless a look finds the
cancellation set, which is then the answer. -/
structure Interrupts {α : Type} (cancellation : Cancellation) (looks : List Look)
    (actual full : Except Failure α × Course) : Prop where
  whole : full.1 ≠ .error .cancelled
  unseen : ¬cancellation.Seen looks → actual = full
  seen : cancellation.Seen looks → actual.1 = .error .cancelled

namespace Interrupts

variable {α β : Type} {looks more : List Look} {actual full : Except Failure α × Course}

theorem nil (h : full.1 ≠ .error .cancelled) : cancellation.Interrupts [] full full :=
  ⟨h, fun _ => rfl, fun seen => absurd seen seen_nil⟩

theorem cons (h : cancellation.Interrupts looks actual full) (look : Look) (stopped : Course) :
    cancellation.Interrupts (look :: looks)
      (if cancellation.isSet look.course then (.error .cancelled, stopped) else actual)
      (if never.isSet look.course then (.error .cancelled, stopped) else full) := by
  have hfull : (if never.isSet look.course then (.error .cancelled, stopped) else full) = full :=
    if_neg Bool.false_ne_true
  rw [hfull]
  refine ⟨h.whole, fun unseen => ?_, fun seen => ?_⟩
  · rw [seen_cons, not_or] at unseen
    rw [if_neg unseen.1]
    exact h.unseen unseen.2
  · rw [seen_cons] at seen
    split
    · rfl
    · exact h.seen (seen.resolve_left ‹_›)

/-- A question that is asked after another one. -/
theorem andThen {k l : Except Failure α × Course → Except Failure β × Course}
    (h : cancellation.Interrupts looks actual full)
    (stop : ∀ course, (k (.error .cancelled, course)).1 = .error .cancelled)
    (step : cancellation.Interrupts more (k full) (l full)) :
    cancellation.Interrupts (looks ++ more) (k actual) (l full) := by
  refine ⟨step.whole, fun unseen => ?_, fun seen => ?_⟩
  · rw [seen_append, not_or] at unseen
    rw [h.unseen unseen.1]
    exact step.unseen unseen.2
  · by_cases first : cancellation.Seen looks
    · have hstopped := h.seen first
      obtain ⟨answer, course⟩ := actual
      obtain rfl : answer = .error .cancelled := hstopped
      exact stop course
    · rw [h.unseen first]
      exact step.seen (((seen_append looks more).mp seen).resolve_left first)

theorem map (h : cancellation.Interrupts looks actual full) (f : α → β) :
    cancellation.Interrupts looks (actual.1.map f, actual.2) (full.1.map f, full.2) := by
  refine ⟨?_, fun unseen => by rw [h.unseen unseen], fun seen => by rw [h.seen seen]; rfl⟩
  have hwhole := h.whole
  obtain ⟨answer, course⟩ := full
  cases answer with
  | ok value => simp [Except.map]
  | error failure => simpa [Except.map] using hwhole

end Interrupts
end Cancellation

namespace ToolRunner

def undisturbed (runner : ToolRunner) : ToolRunner :=
  { runner with cancellation := .never }

/-- The looks at a tool that is found running so many times more. -/
def pollLooks (runner : ToolRunner) (call : ToolCall) (waitedMs : Nat) (course : Course) :
    Nat → List Look
  | 0 => []
  | polls + 1 =>
    ⟨.polling call, course⟩ ::
      if runner.isOver waitedMs then []
      else runner.pollLooks call (waitedMs + pollMs) (course.looked.after pollMs) polls

def looks (runner : ToolRunner) (course : Course) (call : ToolCall) : List Look :=
  ⟨.starting call, course⟩ ::
    match runner.behaviour call with
    | .missing _ => []
    | .finishes outcome => runner.pollLooks call 0 course.looked (pollsFor outcome.elapsedMs)

theorem interrupts_wait (runner : ToolRunner) (call : ToolCall) {program : String}
    {done : Except Failure String} (h : done ≠ .error .cancelled) (waitedMs polls : Nat)
    (course : Course) :
    runner.cancellation.Interrupts (runner.pollLooks call waitedMs course polls)
      (runner.wait program done waitedMs course polls)
      (runner.undisturbed.wait program done waitedMs course polls) := by
  induction polls generalizing waitedMs course with
  | zero => exact .nil h
  | succ polls ih =>
      refine .cons ?_ ⟨.polling call, course⟩ course.looked
      have hover : runner.undisturbed.isOver waitedMs = runner.isOver waitedMs := rfl
      rw [hover]
      split
      · exact .nil (by simp)
      · exact ih (waitedMs + pollMs) (course.looked.after pollMs)

theorem interrupts_run (runner : ToolRunner) (course : Course) (call : ToolCall) :
    runner.cancellation.Interrupts (runner.looks course call) (runner.run course call)
      (runner.undisturbed.run course call) := by
  refine .cons ?_ ⟨.starting call, course⟩ course.looked
  have hbehaviour : runner.undisturbed.behaviour = runner.behaviour := rfl
  rw [hbehaviour]
  cases runner.behaviour call with
  | missing reason => exact .nil (by simp)
  | finishes outcome =>
      refine runner.interrupts_wait call ?_ 0 (pollsFor outcome.elapsedMs) course.looked
      unfold ToolOutcome.answer
      split <;> simp

end ToolRunner

namespace Locate

/-- What comes of the answer under one name. -/
def proceed (runner : ToolRunner) (program : String) (answered : Bool) (failed : Option Failure)
    (names : List String) : Except Failure String × Course → Except Failure (List Path) × Course
  | (.ok output, course) =>
    let dirs := SearchPaths.ofFlags output
    if dirs.isEmpty then queryNames runner program true failed course names
    else (.ok dirs, course)
  | (.error failure, course) =>
    if stops failure then (.error failure, course)
    else queryNames runner program answered (some failure) course names

/-- The looks of asking under each name in turn. -/
def looks (runner : ToolRunner) (program : String) (course : Course) : List String → List Look
  | [] => []
  | name :: rest =>
    runner.looks course ⟨program, ["--cflags", name], []⟩ ++
      match runner.undisturbed.run course ⟨program, ["--cflags", name], []⟩ with
      | (.ok output, course) =>
        if (SearchPaths.ofFlags output).isEmpty then looks runner program course rest else []
      | (.error failure, course) =>
        if stops failure then [] else looks runner program course rest

theorem interrupts_queryNames (runner : ToolRunner) (program : String) (answered : Bool)
    {failed : Option Failure} (h : failed ≠ some .cancelled) (course : Course)
    (names : List String) :
    runner.cancellation.Interrupts (looks runner program course names)
      (queryNames runner program answered failed course names)
      (queryNames runner.undisturbed program answered failed course names) := by
  induction names generalizing answered failed course with
  | nil =>
      refine .nil ?_
      unfold queryNames
      cases failed with
      | none => simp
      | some failure =>
          cases answered with
          | true => simp
          | false => simpa using h
  | cons name names ih =>
      have hrun := runner.interrupts_run course ⟨program, ["--cflags", name], []⟩
      refine hrun.andThen (k := proceed runner program answered failed names)
        (l := proceed runner.undisturbed program answered failed names) (fun _ => rfl) ?_
      -- The undisturbed answer decides whether another name is asked.
      have hwhole := hrun.whole
      generalize runner.undisturbed.run course ⟨program, ["--cflags", name], []⟩ = full at hwhole
      obtain ⟨answer, after⟩ := full
      cases answer with
      | ok output =>
          simp only [proceed]
          split
          · exact ih true h after
          · exact .nil (by simp)
      | error failure =>
          have hother : failure ≠ .cancelled := by simpa using hwhole
          simp only [proceed]
          split
          · exact .nil (by simpa using hother)
          · exact ih answered (by simpa using hother) after

end Locate

namespace Preprocess

variable (runner : ToolRunner) (course : Course) (program : String) (header : Path)
  (dirs : List Path) (annotations : Annotations)

theorem functions_eq_map :
    functions runner course program header dirs annotations =
      ((expand runner course program header dirs).1.map
        fun text => functionsOf (emissions annotations text),
        (expand runner course program header dirs).2) := by
  unfold functions
  cases expand runner course program header dirs with
  | mk answer course =>
      cases answer with
      | ok text => rfl
      | error failure => rfl

theorem interrupts_functions :
    runner.cancellation.Interrupts (runner.looks course (request program header dirs))
      (functions runner course program header dirs annotations)
      (functions runner.undisturbed course program header dirs annotations) := by
  rw [functions_eq_map, functions_eq_map]
  exact (runner.interrupts_run course (request program header dirs)).map _

end Preprocess

/-- The path whose turn it is when a walk looks for cancellation. -/
def Event.turn? : Event → Option Path
  | .tooDeep _ | .unresolved _ _ => none
  | .known path | .unreadable path _ | .parsed path _ _ => some path

theorem Event.looks_eq (event : Event) : event.looks = event.turn?.isSome := by
  cases event <;> rfl

/-- The looks of a walk with these events. -/
def Event.lookList (course : Course) : List Event → List Look
  | [] => []
  | event :: rest =>
    match event.turn? with
    | some path => ⟨.visiting path, course⟩ :: lookList course.looked rest
    | none => lookList course rest

namespace Session

variable {around : Surroundings} {reading : Reading} {session : Session} {events : List Event}

theorem replay_unseen
    (h : ¬around.cancellation.Seen (Event.lookList session.course events)) :
    session.replay around reading events =
      ⟨session.performAll around.files reading events, false⟩ := by
  induction events generalizing session with
  | nil => rfl
  | cons event events ih =>
      have hcourse := @perform_course around.files reading session event
      rw [Event.looks_eq] at hcourse
      rw [replay, performAll_cons, Event.looks_eq]
      rw [Event.lookList] at h
      cases hturn : event.turn? with
      | none =>
          rw [hturn] at h hcourse
          simp only [Option.isSome_none, Bool.false_and, Bool.false_eq_true, ite_false] at hcourse ⊢
          exact ih (by rwa [hcourse])
      | some path =>
          rw [hturn] at h hcourse
          simp only [Cancellation.seen_cons, not_or] at h
          simp only [Option.isSome_some, Bool.true_and, ite_true] at hcourse ⊢
          rw [if_neg h.1]
          exact ih (by rw [hcourse]; exact h.2)

/-- A walk that is cancelled has performed a first part of its events. -/
theorem replay_seen (h : around.cancellation.Seen (Event.lookList session.course events)) :
    (session.replay around reading events).cancelled = true ∧
      ∃ before after, events = before ++ after ∧
        (session.replay around reading events).session.findings =
          (session.performAll around.files reading before).findings := by
  induction events generalizing session with
  | nil => exact absurd h Cancellation.seen_nil
  | cons event events ih =>
      have hcourse := @perform_course around.files reading session event
      rw [Event.looks_eq] at hcourse
      rw [replay, Event.looks_eq]
      rw [Event.lookList] at h
      -- Either the first event is not reached, or the session after it is cancelled later.
      by_cases hset : (event.turn?.isSome && around.cancellation.isSet session.course) = true
      · rw [if_pos hset]
        exact ⟨rfl, [], event :: events, rfl, rfl⟩
      · have hlater : around.cancellation.Seen (Event.lookList
            (session.perform around.files reading event).course events) := by
          rw [hcourse]
          cases hturn : event.turn? with
          | none => simpa [hturn] using h
          | some path =>
              rw [hturn] at h hset
              simp only [Cancellation.seen_cons] at h
              exact h.resolve_left (by simpa using hset)
        obtain ⟨hcancelled, before, after, rfl, hfindings⟩ := ih hlater
        rw [if_neg hset]
        exact ⟨hcancelled, event :: before, after, rfl, hfindings⟩

end Session
end LibSurvey
