import LibSurvey.Proofs.Findings
import LibSurvey.Proofs.Walk.Reach

/-!
Walks one after the other in one session, and the history of all their events. A session keeps what
it has seen, so no later walk meets a file again. What the walks find is told by the history alone.
-/

namespace LibSurvey

/-- The path of a file that is parsed. -/
def Event.parsed? : Event → Option Path
  | .parsed path _ _ => some path
  | .tooDeep _ | .known _ | .unreadable _ _ | .unresolved _ _ => none

theorem Event.eq_of_parsed? {event : Event} {path : Path} (h : event.parsed? = some path) :
    ∃ room content, event = .parsed path room content := by
  cases event with
  | parsed p room content => exact ⟨room, content, by rw [Option.some.inj h]⟩
  | tooDeep p => exact absurd h (by simp [parsed?])
  | known p => exact absurd h (by simp [parsed?])
  | unreadable p error => exact absurd h (by simp [parsed?])
  | unresolved name includer => exact absurd h (by simp [parsed?])

theorem Event.met?_of_parsed? {event : Event} {path : Path} (h : event.parsed? = some path) :
    event.met? = some path := by
  obtain ⟨room, content, rfl⟩ := eq_of_parsed? h
  rfl

/-- An event of a walk that reads in this way from this root. -/
structure Entry where
  reading : Reading
  root : Path
  event : Event

/-- What the file of an entry declares, if the entry parses one. -/
def Entry.emissions? (annotations : Annotations) (entry : Entry) : Option (List Emission) :=
  match entry.event with
  | .parsed _ _ content => some (entry.reading.declared annotations content.toList)
  | .tooDeep _ | .known _ | .unreadable _ _ | .unresolved _ _ => none

namespace Session

/-- The events of a walk within the session's depth. -/
def walkEvents (files : FileView) (reading : Reading) (session : Session) (root : Path) :
    List Event :=
  trace files reading (session.maxDepth + 1) session root

/-- Walks in order, up to the first that is cancelled. -/
def walks (around : Surroundings) (session : Session) : List (Reading × Path) → Walked
  | [] => ⟨session, false⟩
  | (reading, root) :: rest =>
    let walked := session.walk around reading root
    if walked.cancelled then walked else walked.session.walks around rest

/-- All events of walks in order. -/
def history (files : FileView) (session : Session) : List (Reading × Path) → List Entry
  | [] => []
  | (reading, root) :: rest =>
    let events := session.walkEvents files reading root
    events.map (Entry.mk reading root) ++
      (session.performAll files reading events).history files rest

def performEntries (files : FileView) (session : Session) (entries : List Entry) : Session :=
  entries.foldl (fun session entry => session.perform files entry.reading entry.event) session

variable {files : FileView} {reading : Reading} {around : Surroundings}

theorem performEntries_append (session : Session) (a b : List Entry) :
    session.performEntries files (a ++ b) =
      (session.performEntries files a).performEntries files b :=
  List.foldl_append

theorem performEntries_map (session : Session) (root : Path) (events : List Event) :
    session.performEntries files (events.map (Entry.mk reading root)) =
      session.performAll files reading events :=
  List.foldl_map

theorem walk_eq_replay (session : Session) (root : Path) :
    session.walk around reading root =
      session.replay around reading (session.walkEvents around.files reading root) :=
  walkLevels_eq_replay _ session root

theorem walk_session {session : Session} {root : Path}
    (h : (session.walk around reading root).cancelled = false) :
    (session.walk around reading root).session =
      session.performAll around.files reading (session.walkEvents around.files reading root) := by
  rw [walk_eq_replay] at h ⊢
  exact replay_session h

theorem walks_session {session : Session} {calls : List (Reading × Path)}
    (h : (session.walks around calls).cancelled = false) :
    (session.walks around calls).session =
      session.performEntries around.files (session.history around.files calls) := by
  induction calls generalizing session with
  | nil => rfl
  | cons call calls ih =>
      obtain ⟨reading, root⟩ := call
      rw [walks] at h ⊢
      cases hc : (session.walk around reading root).cancelled with
      | true => simp [hc] at h
      | false =>
          simp only [hc, Bool.false_eq_true, ite_false] at h ⊢
          rw [ih h, history, performEntries_append, performEntries_map, walk_session hc]

theorem performAll_course (session : Session) (events : List Event) :
    ∃ looks, (session.performAll files reading events).course =
      ⟨session.course.looks + looks, session.course.elapsedMs⟩ := by
  induction events generalizing session with
  | nil => exact ⟨0, rfl⟩
  | cons event events ih =>
      obtain ⟨looks, h⟩ := ih (session.perform files reading event)
      rw [performAll_cons, h, perform_course]
      split
      · exact ⟨looks + 1, by simp [Course.looked, Nat.add_assoc, Nat.add_comm 1]⟩
      · exact ⟨looks, rfl⟩

/-- Walks are cancelled only if one of them finds the cancellation set at one of its looks. -/
theorem isSet_of_walks_cancelled {session : Session} {calls : List (Reading × Path)}
    (h : (session.walks around calls).cancelled = true) :
    ∃ looks, around.cancellation.isSet
      ⟨session.course.looks + looks, session.course.elapsedMs⟩ = true := by
  induction calls generalizing session with
  | nil => exact absurd h (by simp [walks])
  | cons call calls ih =>
      obtain ⟨reading, root⟩ := call
      rw [walks] at h
      cases hc : (session.walk around reading root).cancelled with
      | true =>
          rw [walk_eq_replay] at hc
          exact isSet_of_replay_cancelled hc
      | false =>
          simp only [hc, Bool.false_eq_true, ite_false] at h
          obtain ⟨later, hlater⟩ := ih h
          rw [walk_session hc] at hlater
          obtain ⟨looks, hlooks⟩ :=
            session.performAll_course (session.walkEvents around.files reading root)
          rw [hlooks] at hlater
          exact ⟨looks + later, by simpa [Nat.add_assoc] using hlater⟩

theorem walks_never (files : FileView) (session : Session) (calls : List (Reading × Path)) :
    (session.walks ⟨files, .never⟩ calls).cancelled = false := by
  refine Bool.eq_false_iff.mpr fun h => ?_
  obtain ⟨looks, hset⟩ := isSet_of_walks_cancelled h
  exact absurd hset (by simp [Cancellation.isSet])

theorem walk_never (files : FileView) (reading : Reading) (session : Session) (root : Path) :
    (session.walk ⟨files, .never⟩ reading root).cancelled = false := by
  have h := walks_never files session [(reading, root)]
  rw [walks] at h
  cases hc : (session.walk ⟨files, .never⟩ reading root).cancelled with
  | true => simp [hc] at h
  | false => rfl

/-- Over all walks of a session, each file is met at most once. -/
theorem nodup_history {session : Session} (h : session.keys.Nodup)
    (calls : List (Reading × Path)) :
    (((session.history files calls).filterMap (·.event.met?)).map files.key ++
      session.keys).Nodup := by
  induction calls generalizing session with
  | nil => exact h
  | cons call calls ih =>
      obtain ⟨reading, root⟩ := call
      have hnext : (session.performAll files reading
          (session.walkEvents files reading root)).keys.Nodup := nodup_trace _ session root h
      have hlater := ih hnext
      -- The keys that the first walk adds stand reversed in the session, which changes no duplicates.
      rw [keys_performAll] at hlater
      rw [history, List.filterMap_append, List.map_append, List.filterMap_map]
      refine (List.Perm.nodup_iff ?_).mp hlater
      rw [← List.append_assoc]
      refine List.Perm.append_right _ ?_
      exact (List.perm_append_comm).trans ((List.reverse_perm _).append_right _)

theorem parsed_sublist_met (entries : List Entry) :
    (entries.filterMap (·.event.parsed?)).Sublist (entries.filterMap (·.event.met?)) := by
  induction entries with
  | nil => exact .refl _
  | cons entry entries ih =>
      cases hp : entry.event.parsed? with
      | none =>
          cases hm : entry.event.met? with
          | none => simpa [hp, hm] using ih
          | some path => simpa [hp, hm] using ih.cons path
      | some path => simpa [hp, Event.met?_of_parsed? hp] using ih.cons_cons path

/-- Every file that is met is reached from the root of its walk by includes within the depth. -/
theorem chain_of_mem_history {session : Session} {calls : List (Reading × Path)} {entry : Entry}
    {p : Path} (mem : entry ∈ session.history files calls) (met : entry.event.met? = some p) :
    ∃ n ≤ session.maxDepth,
      Chain files entry.reading session (fun _ => True) n entry.root p := by
  induction calls generalizing session with
  | nil => exact absurd mem List.not_mem_nil
  | cons call calls ih =>
      obtain ⟨reading, root⟩ := call
      rw [history] at mem
      rcases List.mem_append.mp mem with mem | mem
      · obtain ⟨event, hevent, rfl⟩ := List.mem_map.mp mem
        obtain ⟨n, hn, hchain⟩ := chain_of_met hevent met
        exact ⟨n, Nat.le_of_lt_succ hn, hchain.mono fun _ _ => trivial⟩
      · obtain ⟨n, hn, hchain⟩ := ih mem
        rw [performAll_maxDepth] at hn
        exact ⟨n, hn, hchain.congr (includes_performAll entry.reading session _)⟩

theorem perform_signatures (session : Session) (entry : Entry) :
    (session.perform files entry.reading entry.event).findings.signatures =
      ((entry.emissions? session.annotations).toList).foldl SignatureSet.apply
        session.findings.signatures := by
  obtain ⟨reading, root, event⟩ := entry
  cases event with
  | parsed path room content =>
      obtain ⟨diagnostics, h⟩ := @perform_parsed files reading session path room content
      rw [h]
      exact Findings.apply_signatures _ _
  | tooDeep path => rfl
  | known path => rfl
  | unreadable path error => rfl
  | unresolved name includer => rfl

/-- The signatures after a history are those of its files, applied one file after the other. -/
theorem performEntries_signatures (session : Session) (entries : List Entry) :
    (session.performEntries files entries).findings.signatures =
      (entries.filterMap (Entry.emissions? session.annotations)).foldl SignatureSet.apply
        session.findings.signatures := by
  induction entries generalizing session with
  | nil => rfl
  | cons entry entries ih =>
      rw [performEntries, List.foldl_cons]
      have := ih (session.perform files entry.reading entry.event)
      rw [performEntries, perform_annotations, perform_signatures] at this
      rw [this]
      cases h : entry.emissions? session.annotations with
      | none => simp [h]
      | some emissions => simp [h]

end Session
end LibSurvey
