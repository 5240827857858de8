import LibSurvey.Proofs.Findings.History
import LibSurvey.Proofs.Survey.Looks
import LibSurvey.Proofs.Survey.Ending

/-!
A survey under way beside the same survey undisturbed. A stage goes on where the stage before it
stopped, and neither loses what was found; that each stage of a survey does so remains a separate
obligation.
-/

namespace LibSurvey

/-- A set of signatures as far as it has been collected. -/
structure SignatureSet.Within (part whole : SignatureSet) : Prop where
  constants : ∀ name : String, name ∈ part.constants → name ∈ whole.constants
  macros : ∀ name : String, name ∈ part.macros → name ∈ whole.macros
  functions : ∀ (name : String) (signature : Signature),
    part.functions[name]? = some signature → whole.functions[name]? = some signature

namespace SignatureSet

variable {a b c : SignatureSet}

theorem Within.refl (set : SignatureSet) : set.Within set :=
  ⟨fun _ h => h, fun _ h => h, fun _ _ h => h⟩

theorem Within.trans (h : a.Within b) (k : b.Within c) : a.Within c :=
  ⟨fun name hname => k.constants name (h.constants name hname),
    fun name hname => k.macros name (h.macros name hname),
    fun name signature hname => k.functions name signature (h.functions name signature hname)⟩

theorem within_apply (set : SignatureSet) (emissions : List Emission) :
    set.Within (set.apply emissions) := by
  obtain ⟨history, -, htells⟩ := (Findings.tells_nil ⟨set, .empty false⟩).apply emissions
  refine ⟨fun name hname => ?_, fun name hname => ?_, fun name signature hname => ?_⟩
  · rw [Std.TreeMap.mem_iff_isSome_getElem?] at hname ⊢
    rw [SignatureSet.apply, htells.constants, Findings.getElem?_insertMany]
    simp [hname]
  · rw [Std.TreeMap.mem_iff_isSome_getElem?] at hname ⊢
    rw [SignatureSet.apply, htells.macros, Findings.getElem?_insertMany]
    simp [hname]
  · rw [SignatureSet.apply, htells.functions, hname]
    rfl

end SignatureSet

namespace Session

variable {files : FileView} {reading : Reading}

theorem within_perform (session : Session) (event : Event) :
    session.findings.signatures.Within
      (session.perform files reading event).findings.signatures := by
  cases event with
  | parsed path room content =>
      obtain ⟨diagnostics, h⟩ := @perform_parsed files reading session path room content
      rw [h, Findings.apply_signatures]
      exact SignatureSet.within_apply _ _
  | tooDeep path => exact .refl _
  | known path => exact .refl _
  | unreadable path error => exact .refl _
  | unresolved name includer => exact .refl _

theorem within_performAll (session : Session) (events : List Event) :
    session.findings.signatures.Within
      (session.performAll files reading events).findings.signatures := by
  induction events generalizing session with
  | nil => exact .refl _
  | cons event events ih => exact (session.within_perform event).trans (ih _)

end Session

namespace Survey

/-- A survey as far as it has come. -/
structure Within (part whole : Survey) : Prop where
  constants : ∀ name : String, name ∈ part.constants → name ∈ whole.constants
  macros : ∀ name : String, name ∈ part.macros → name ∈ whole.macros
  functions : ∀ (name : String) (found : FoundFunction),
    part.functions[name]? = some found → whole.functions[name]? = some found

theorem Within.of_eq {part whole : Survey} (constants : part.constants = whole.constants)
    (macros : part.macros = whole.macros) (functions : part.functions = whole.functions) :
    part.Within whole := by
  refine ⟨fun _ h => ?_, fun _ h => ?_, fun _ _ h => ?_⟩
  · rwa [← constants]
  · rwa [← macros]
  · rwa [← functions]

theorem Within.refl (survey : Survey) : survey.Within survey :=
  .of_eq rfl rfl rfl

theorem within_cancelled (survey : Survey) : Within { survey with cancelled := true } survey :=
  .of_eq rfl rfl rfl

theorem Within.trans {a b c : Survey} (h : a.Within b) (k : b.Within c) : a.Within c :=
  ⟨fun name hname => k.constants name (h.constants name hname),
    fun name hname => k.macros name (h.macros name hname),
    fun name found hname => k.functions name found (h.functions name found hname)⟩

end Survey

/-- A survey under way beside the same one undisturbed, after these looks. -/
structure Progress.Tracks (cancellation : Cancellation) (looks : List Look)
    (actual full : Progress) : Prop where
  going : full.found.cancelled = false
  unseen : ¬cancellation.Seen looks → actual = full
  seen : cancellation.Seen looks → actual.found.cancelled = true ∧ actual.found.Within full.found

namespace Progress

variable {cancellation : Cancellation} {looks more : List Look} {actual full : Progress}

theorem andThen_going {progress : Progress} (h : progress.found.cancelled = false)
    (next : Progress → Progress) : progress.andThen next = next progress := by
  simp [andThen, h]

theorem andThen_cancelled {progress : Progress} (h : progress.found.cancelled = true)
    (next : Progress → Progress) : progress.andThen next = progress := by
  simp [andThen, h]

/-- A survey that is still going when the next stage comes is the undisturbed one. -/
theorem Tracks.andThen {next next' : Progress → Progress}
    (h : Tracks cancellation looks actual full)
    (step : Tracks cancellation more (next full) (next' full))
    (grows : full.found.Within (next' full).found) :
    Tracks cancellation (looks ++ more) (actual.andThen next) (full.andThen next') := by
  rw [andThen_going h.going]
  refine ⟨step.going, fun unseen => ?_, fun seen => ?_⟩
  · rw [Cancellation.seen_append, not_or] at unseen
    rw [h.unseen unseen.1, andThen_going h.going]
    exact step.unseen unseen.2
  · -- Either the survey had stopped before the stage, or the stage itself is cut short.
    by_cases first : cancellation.Seen looks
    · obtain ⟨stopped, within⟩ := h.seen first
      rw [andThen_cancelled stopped]
      exact ⟨stopped, within.trans grows⟩
    · have later := ((Cancellation.seen_append looks more).mp seen).resolve_left first
      rw [h.unseen first, andThen_going h.going]
      exact step.seen later

/-- What comes of an answer that cancellation may interrupt. -/
theorem tracks_of_answer {α : Type} {answer full : Except Failure α × Course}
    (take : Except Failure α × Course → Progress)
    (h : cancellation.Interrupts looks answer full)
    (goesOn : ∀ (answer : Except Failure α) (course : Course), answer ≠ .error .cancelled →
      (take (answer, course)).found.cancelled = false)
    (stops : ∀ course : Course, (take (.error .cancelled, course)).found.cancelled = true ∧
      (take (.error .cancelled, course)).found.Within (take full).found) :
    Tracks cancellation looks (take answer) (take full) := by
  refine ⟨goesOn full.1 full.2 h.whole, fun unseen => congrArg take (h.unseen unseen),
    fun seen => ?_⟩
  have hstopped := h.seen seen
  obtain ⟨answer, course⟩ := answer
  obtain rfl : answer = .error .cancelled := hstopped
  exact stops course

@[simp] theorem finish_cancelled (progress : Progress) :
    progress.finish.cancelled = progress.found.cancelled := rfl

theorem within_finish (h : actual.found.Within full.found) : actual.finish.Within full.finish :=
  ⟨h.constants, h.macros, h.functions⟩

/-- The same survey, one look later. -/
def looked (progress : Progress) : Progress :=
  { progress with course := progress.course.looked }

@[simp] theorem looked_found (progress : Progress) : progress.looked.found = progress.found := rfl

@[simp] theorem looked_course (progress : Progress) :
    progress.looked.course = progress.course.looked := rfl

/-- No header has been walked. -/
structure Unwalked (progress : Progress) : Prop where
  constants : progress.found.constants = ∅
  macros : progress.found.macros = ∅

end Progress

namespace Surveyor

theorem getElem?_addHeaderFunctions (known : FoundFunctions) (found : List (String × Signature))
    (name : String) :
    (addHeaderFunctions known found)[name]? =
      known[name]?.or ((found.lookup name).map (.typed · .header)) := by
  induction found generalizing known with
  | nil => simp [addHeaderFunctions]
  | cons entry found ih =>
      have hrest := ih (known.insertIfNew entry.1 (.typed entry.2 .header))
      rw [Findings.getElem?_insertIfNew, Option.or_assoc] at hrest
      refine hrest.trans (congrArg _ ?_)
      obtain ⟨key, signature⟩ := entry
      by_cases h : name = key
      · subst h
        simp
      · have hkey : (name == key) = false := beq_false_of_ne h
        simp [List.lookup_cons, hkey]

/-- Header functions are added to what is known, and more of them add more. -/
theorem within_addHeaderFunctions {known : FoundFunctions} {part whole : FunctionSet}
    (h : ∀ (name : String) (signature : Signature),
      part[name]? = some signature → whole[name]? = some signature)
    {name : String} {found : FoundFunction}
    (hfound : (addHeaderFunctions known part.toList)[name]? = some found) :
    (addHeaderFunctions known whole.toList)[name]? = some found := by
  rw [getElem?_addHeaderFunctions, Merge.lookup_toList] at hfound ⊢
  cases hknown : known[name]? with
  | some other => simpa [hknown] using hfound
  | none =>
      rw [hknown, Option.none_or, Option.map_eq_some_iff] at hfound
      obtain ⟨signature, hpart, rfl⟩ := hfound
      simp [h name signature hpart]

theorem known_addHeaderFunctions {known : FoundFunctions} (list : List (String × Signature))
    {name : String} {found : FoundFunction} (h : known[name]? = some found) :
    (addHeaderFunctions known list)[name]? = some found := by
  rw [getElem?_addHeaderFunctions, h]
  rfl

end Surveyor
end LibSurvey
