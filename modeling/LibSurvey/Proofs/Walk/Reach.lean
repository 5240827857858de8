import LibSurvey.Proofs.FileTree
import LibSurvey.Proofs.Walk.Trace
import Mathlib.Logic.Relation

/-!
Which files the events of a walk reach. Files count by the components of their canonical names; each
is met at most once, only along includes, and the includes of a file with room left are all met.
That equal names are one file is a law of the file system and remains a separate obligation.
-/

namespace LibSurvey

namespace Session

def keys (session : Session) : List (List Path.Component) :=
  session.visited.map (·.components)

/-- Reading the first file shows an include that leads to the second. -/
def Includes (files : FileView) (reading : Reading) (session : Session) (p q : Path) : Prop :=
  ∃ content name, files.read p = .ok content ∧
    name ∈ Emission.includes (reading.declared session.annotations content.toList) ∧
    session.resolve? files name p = some q

/-- The files that reading a file shows to be included. -/
def included (files : FileView) (reading : Reading) (session : Session) (p : Path) : List Path :=
  match files.read p with
  | .ok content =>
    (Emission.includes (reading.declared session.annotations content.toList)).filterMap
      (session.resolve? files · p)
  | .error _ => []

/-- So many includes in a row, each in a file of a kind. -/
inductive Chain (files : FileView) (reading : Reading) (session : Session) (kind : Path → Prop) :
    Nat → Path → Path → Prop where
  | here {p : Path} : Chain files reading session kind 0 p p
  | step {n : Nat} {p q r : Path} : kind p → session.Includes files reading p q →
      Chain files reading session kind n q r → Chain files reading session kind (n + 1) p r

/-- Any includes in a row. -/
def Reaches (files : FileView) (reading : Reading) (session : Session) : Path → Path → Prop :=
  Relation.ReflTransGen (session.Includes files reading)

variable {files : FileView} {reading : Reading}

@[simp] theorem resolve?_perform (session : Session) (event : Event) (name : String)
    (includer : Path) :
    (session.perform files reading event).resolve? files name includer =
      session.resolve? files name includer := by
  simp [resolve?]

@[simp] theorem resolve?_performAll (session : Session) (events : List Event) (name : String)
    (includer : Path) :
    (session.performAll files reading events).resolve? files name includer =
      session.resolve? files name includer := by
  induction events generalizing session with
  | nil => rfl
  | cons event events ih => rw [performAll_cons, ih, resolve?_perform]

@[simp] theorem includes_perform (other : Reading) (session : Session) (event : Event)
    (p q : Path) :
    (session.perform files reading event).Includes files other p q ↔
      session.Includes files other p q := by
  simp [Includes]

@[simp] theorem includes_performAll (other : Reading) (session : Session) (events : List Event)
    (p q : Path) :
    (session.performAll files reading events).Includes files other p q ↔
      session.Includes files other p q := by
  induction events generalizing session with
  | nil => rfl
  | cons event events ih => rw [performAll_cons, ih, includes_perform]

theorem includes_iff_mem (session : Session) (p q : Path) :
    session.Includes files reading p q ↔ q ∈ session.included files reading p := by
  unfold Includes included
  cases files.read p with
  | ok content => simp [List.mem_filterMap]
  | error error => simp

namespace Chain

variable {session : Session} {kind other : Path → Prop} {n : Nat} {p q : Path}

theorem mono (h : Chain files reading session kind n p q) (le : ∀ p, kind p → other p) :
    Chain files reading session other n p q := by
  induction h with
  | here => exact .here
  | step hkind hincludes _ ih => exact .step (le _ hkind) hincludes ih

theorem congr {t : Session}
    (includes : ∀ p q, session.Includes files reading p q ↔ t.Includes files reading p q)
    (h : Chain files reading session kind n p q) : Chain files reading t kind n p q := by
  induction h with
  | here => exact .here
  | step hkind hincludes _ ih => exact .step hkind ((includes _ _).mp hincludes) ih

theorem reaches (h : Chain files reading session kind n p q) :
    session.Reaches files reading p q := by
  induction h with
  | here => exact .refl
  | step _ hincludes _ ih => exact .head hincludes ih

end Chain

theorem keys_perform (session : Session) (event : Event) :
    (session.perform files reading event).keys =
      (event.met?.map files.key).toList ++ session.keys := by
  rw [keys, perform_visited, keys]
  cases event.met? <;> rfl

theorem keys_performAll (session : Session) (events : List Event) :
    (session.performAll files reading events).keys =
      ((events.filterMap Event.met?).map files.key).reverse ++ session.keys := by
  induction events generalizing session with
  | nil => rfl
  | cons event events ih =>
      rw [performAll_cons, ih, keys_perform]
      cases h : event.met? with
      | none => simp [h]
      | some path => simp [h]

theorem keys_subset_performAll (session : Session) (events : List Event) :
    session.keys ⊆ (session.performAll files reading events).keys := by
  rw [keys_performAll]
  exact List.subset_append_right _ _

theorem mem_keys_of_met {session : Session} {events : List Event} {event : Event} {path : Path}
    (mem : event ∈ events) (met : event.met? = some path) :
    files.key path ∈ (session.performAll files reading events).keys := by
  rw [keys_performAll]
  have : path ∈ events.filterMap Event.met? := List.mem_filterMap.mpr ⟨event, mem, met⟩
  simp only [List.mem_append, List.mem_reverse, List.mem_map]
  exact .inl ⟨path, this, rfl⟩

theorem seen_iff {session : Session} {path : Path} :
    session.visited.any (·.same (files.identity path)) = true ↔ files.key path ∈ session.keys := by
  simp only [List.any_eq_true, Path.same, decide_eq_true_eq, keys, FileView.key, List.mem_map]

/-- The events of following includes keep a property of sessions if those of each walk do. -/
theorem traceAll_induction {P : Session → Prop} {trace : Session → Path → List Event}
    (note : ∀ session name includer, P session →
      P (session.perform files reading (.unresolved name includer)))
    (walk : ∀ session path, P session → P (session.performAll files reading (trace session path)))
    (includer : Path) (names : List String) (session : Session) (h : P session) :
    P (session.performAll files reading (traceAll files reading trace includer session names)) := by
  induction names generalizing session with
  | nil => exact h
  | cons name names ih =>
      rw [traceAll]
      cases session.resolve? files name includer with
      | none => exact ih _ (note _ _ _ h)
      | some target =>
          simp only [performAll_append]
          exact ih _ (walk _ _ h)

/-- No file is remembered twice. -/
theorem nodup_trace (levels : Nat) (session : Session) (path : Path) (h : session.keys.Nodup) :
    (session.performAll files reading (trace files reading levels session path)).keys.Nodup := by
  induction levels generalizing session path with
  | zero => exact h
  | succ levels ih =>
      rw [trace]
      by_cases hseen : files.key path ∈ session.keys
      · rw [if_pos (seen_iff.mpr hseen)]
        exact h
      · rw [if_neg (mt seen_iff.mp hseen)]
        -- The file is remembered before its includes are followed, and only because it is new.
        have hcons : (files.key path :: session.keys).Nodup := List.nodup_cons.mpr ⟨hseen, h⟩
        cases files.read path with
        | error error =>
            simpa [keys_perform, Event.met?] using hcons
        | ok content =>
            refine traceAll_induction (P := fun session => session.keys.Nodup) ?_ ih path _ _ ?_
            · intro session name includer h
              simpa [keys_perform, Event.met?] using h
            · simpa [keys_perform, Event.met?] using hcons

theorem traceAll_cons_none {trace : Session → Path → List Event} {session : Session}
    {includer : Path} {name : String} (h : session.resolve? files name includer = none)
    (names : List String) :
    traceAll files reading trace includer session (name :: names) =
      .unresolved name includer :: traceAll files reading trace includer
        (session.perform files reading (.unresolved name includer)) names := by
  rw [traceAll, h]

theorem traceAll_cons_some {trace : Session → Path → List Event} {session : Session}
    {includer target : Path} {name : String}
    (h : session.resolve? files name includer = some target) (names : List String) :
    traceAll files reading trace includer session (name :: names) =
      trace session target ++ traceAll files reading trace includer
        (session.performAll files reading (trace session target)) names := by
  rw [traceAll, h]

/-- The events of one include stand together among those of all. -/
theorem traceAll_split {trace : Session → Path → List Event} {includer target : Path}
    {name : String} {names : List String} (mem : name ∈ names) {session : Session}
    (found : session.resolve? files name includer = some target) :
    ∃ before after, traceAll files reading trace includer session names =
      before ++ (trace (session.performAll files reading before) target ++ after) := by
  induction names generalizing session with
  | nil => exact absurd mem List.not_mem_nil
  | cons first names ih =>
      rcases List.mem_cons.mp mem with rfl | hlater
      · exact ⟨[], _, traceAll_cons_some found names⟩
      · cases hr : session.resolve? files first includer with
        | none =>
            have hkept : (session.perform files reading (.unresolved first includer)).resolve? files
                name includer = some target := by rw [resolve?_perform, found]
            obtain ⟨before, after, h⟩ := ih hlater hkept
            refine ⟨.unresolved first includer :: before, after, ?_⟩
            rw [traceAll_cons_none hr, h]
            rfl
        | some other =>
            have hkept : (session.performAll files reading (trace session other)).resolve? files name
                includer = some target := by rw [resolve?_performAll, found]
            obtain ⟨before, after, h⟩ := ih hlater hkept
            refine ⟨trace session other ++ before, after, ?_⟩
            rw [traceAll_cons_some hr, h, performAll_append, List.append_assoc]

/-- An event of following includes is a note on one of them or belongs to the walk of one. -/
theorem mem_traceAll {trace : Session → Path → List Event} {includer : Path} {names : List String}
    {session : Session} {event : Event}
    (mem : event ∈ traceAll files reading trace includer session names) :
    (∃ name, event = .unresolved name includer) ∨
    ∃ name target before after, name ∈ names ∧
      session.resolve? files name includer = some target ∧
      traceAll files reading trace includer session names =
        before ++ (trace (session.performAll files reading before) target ++ after) ∧
      event ∈ trace (session.performAll files reading before) target := by
  induction names generalizing session with
  | nil => exact absurd mem List.not_mem_nil
  | cons first names ih =>
      cases hr : session.resolve? files first includer with
      | none =>
          rw [traceAll_cons_none hr] at mem ⊢
          rcases List.mem_cons.mp mem with rfl | mem
          · exact .inl ⟨first, rfl⟩
          · rcases ih mem with hnote | ⟨name, target, before, after, hname, htarget, hsplit, hevent⟩
            · exact .inl hnote
            · rw [resolve?_perform] at htarget
              refine .inr ⟨name, target, .unresolved first includer :: before, after,
                List.mem_cons_of_mem _ hname, htarget, ?_, hevent⟩
              rw [hsplit]
              rfl
      | some other =>
          rw [traceAll_cons_some hr] at mem ⊢
          rcases List.mem_append.mp mem with mem | mem
          · exact .inr ⟨first, other, [], _, List.mem_cons_self, hr, rfl, mem⟩
          · rcases ih mem with hnote | ⟨name, target, before, after, hname, htarget, hsplit, hevent⟩
            · exact .inl hnote
            · rw [resolve?_performAll] at htarget
              rw [← performAll_append] at hsplit hevent
              refine .inr ⟨name, target, trace session other ++ before, after,
                List.mem_cons_of_mem _ hname, htarget, ?_, hevent⟩
              rw [hsplit, List.append_assoc]

theorem trace_known {session : Session} {path : Path} (seen : files.key path ∈ session.keys)
    (levels : Nat) : trace files reading (levels + 1) session path = [.known path] := by
  rw [trace, if_pos (seen_iff.mpr seen)]

theorem trace_unreadable {session : Session} {path : Path} {error : OsError}
    (fresh : files.key path ∉ session.keys) (read : files.read path = .error error) (levels : Nat) :
    trace files reading (levels + 1) session path = [.unreadable path error] := by
  rw [trace, if_neg (mt seen_iff.mp fresh), read]

theorem trace_parsed {session : Session} {path : Path} {content : ByteArray}
    (fresh : files.key path ∉ session.keys) (read : files.read path = .ok content) (levels : Nat) :
    trace files reading (levels + 1) session path =
      .parsed path levels content ::
        traceAll files reading (trace files reading levels) path
          (session.perform files reading (.parsed path levels content))
          (Emission.includes (reading.declared session.annotations content.toList)) := by
  rw [trace, if_neg (mt seen_iff.mp fresh), read]

/-- An event of a walk is about the file itself or belongs to the walk of a file that it includes. -/
theorem mem_trace_succ {levels : Nat} {session : Session} {path : Path} {event : Event}
    (mem : event ∈ trace files reading (levels + 1) session path) :
    event = .known path ∨
    (∃ error, files.read path = .error error ∧ event = .unreadable path error) ∨
    (∃ name, event = .unresolved name path) ∨
    ∃ content, files.read path = .ok content ∧
      .parsed path levels content ∈ trace files reading (levels + 1) session path ∧
      (event = .parsed path levels content ∨
        ∃ target before after, session.Includes files reading path target ∧
          files.key path ∈ (session.performAll files reading before).keys ∧
          trace files reading (levels + 1) session path =
            before ++ (trace files reading levels (session.performAll files reading before) target ++
              after) ∧
          event ∈ trace files reading levels (session.performAll files reading before) target) := by
  by_cases hseen : files.key path ∈ session.keys
  · rw [trace_known hseen] at mem
    exact .inl (List.mem_singleton.mp mem)
  · cases hread : files.read path with
    | error error =>
        rw [trace_unreadable hseen hread] at mem
        exact .inr (.inl ⟨error, rfl, List.mem_singleton.mp mem⟩)
    | ok content =>
        rw [trace_parsed hseen hread] at mem ⊢
        rcases List.mem_cons.mp mem with rfl | mem
        · exact .inr (.inr (.inr ⟨content, rfl, List.mem_cons_self, .inl rfl⟩))
        · rcases mem_traceAll mem with
            ⟨name, rfl⟩ | ⟨name, target, before, after, hname, htarget, hsplit, hevent⟩
          · exact .inr (.inr (.inl ⟨name, rfl⟩))
          · rw [resolve?_perform] at htarget
            refine .inr (.inr (.inr ⟨content, rfl, List.mem_cons_self, .inr
              ⟨target, .parsed path levels content :: before, after,
                ⟨content, name, hread, hname, htarget⟩,
                mem_keys_of_met List.mem_cons_self rfl, ?_, hevent⟩⟩))
            rw [hsplit]
            rfl

/-- The walk of a file with levels left walks all that it includes. -/
theorem trace_split {levels : Nat} {session : Session} {path target : Path} {content : ByteArray}
    (mem : .parsed path levels content ∈ trace files reading (levels + 1) session path)
    (includes : session.Includes files reading path target) :
    ∃ before after, trace files reading (levels + 1) session path =
      before ++ (trace files reading levels (session.performAll files reading before) target ++
        after) := by
  obtain ⟨shown, name, hread, hname, htarget⟩ := includes
  by_cases hseen : files.key path ∈ session.keys
  · rw [trace_known hseen] at mem
    exact absurd (List.mem_singleton.mp mem) (by simp)
  · rw [trace_parsed hseen hread]
    have hkept : (session.perform files reading (.parsed path levels shown)).resolve? files name
        path = some target := by rw [resolve?_perform, htarget]
    obtain ⟨before, after, h⟩ := traceAll_split hname hkept
    refine ⟨.parsed path levels shown :: before, after, ?_⟩
    rw [h]
    rfl

/-- A walk of a file within the limit meets it, unless it has been met before. -/
theorem key_mem_keys_trace (levels : Nat) (session : Session) (path : Path) :
    files.key path ∈
      (session.performAll files reading (trace files reading (levels + 1) session path)).keys := by
  by_cases hseen : files.key path ∈ session.keys
  · exact keys_subset_performAll _ _ hseen
  · cases hread : files.read path with
    | error error =>
        rw [trace_unreadable hseen hread]
        exact mem_keys_of_met List.mem_cons_self rfl
    | ok content =>
        rw [trace_parsed hseen hread]
        exact mem_keys_of_met List.mem_cons_self rfl

theorem keys_performAll_between (session : Session) (before events after : List Event) :
    ((session.performAll files reading before).performAll files reading events).keys ⊆
      (session.performAll files reading (before ++ (events ++ after))).keys := by
  rw [performAll_append, performAll_append]
  exact keys_subset_performAll _ _

/-- Events tell truly what can be read. -/
theorem read_of_parsed {levels : Nat} {session : Session} {path p : Path} {room : Nat}
    {content : ByteArray} (mem : .parsed p room content ∈ trace files reading levels session path) :
    files.read p = .ok content := by
  induction levels generalizing session path with
  | zero => exact absurd (List.mem_singleton.mp mem) (by simp)
  | succ levels ih =>
      rcases mem_trace_succ mem with h | ⟨error, -, h⟩ | ⟨name, h⟩ |
        ⟨shown, hread, -, h | ⟨target, before, after, -, -, -, h⟩⟩
      · exact absurd h (by simp)
      · exact absurd h (by simp)
      · exact absurd h (by simp)
      · obtain ⟨rfl, -, rfl⟩ := Event.parsed.inj h
        exact hread
      · exact ih h

theorem read_of_unreadable {levels : Nat} {session : Session} {path p : Path} {error : OsError}
    (mem : .unreadable p error ∈ trace files reading levels session path) :
    files.read p = .error error := by
  induction levels generalizing session path with
  | zero => exact absurd (List.mem_singleton.mp mem) (by simp)
  | succ levels ih =>
      rcases mem_trace_succ mem with h | ⟨shown, hread, h⟩ | ⟨name, h⟩ |
        ⟨content, -, -, h | ⟨target, before, after, -, -, -, h⟩⟩
      · exact absurd h (by simp)
      · obtain ⟨rfl, rfl⟩ := Event.unreadable.inj h
        exact hread
      · exact absurd h (by simp)
      · exact absurd h (by simp)
      · exact ih h

/-- A walk has parsed a file by this path with levels left for what it includes. -/
def ParsedAbove (events : List Event) (path : Path) : Prop :=
  ∃ room content, .parsed path (room + 1) content ∈ events

/-- What a parsed file includes is met, unless it stands at the limit. -/
theorem key_mem_of_parsed {levels : Nat} {session : Session} {path p q : Path} {room : Nat}
    {content : ByteArray} (mem : .parsed p room content ∈ trace files reading levels session path)
    (includes : session.Includes files reading p q) :
    files.key q ∈ (session.performAll files reading (trace files reading levels session path)).keys ∨
      room = 0 ∧ .tooDeep q ∈ trace files reading levels session path := by
  induction levels generalizing session path with
  | zero => exact absurd (List.mem_singleton.mp mem) (by simp)
  | succ levels ih =>
      rcases mem_trace_succ mem with h | ⟨error, -, h⟩ | ⟨name, h⟩ |
        ⟨shown, hread, hself, h | ⟨target, before, after, -, -, hsplit, h⟩⟩
      · exact absurd h (by simp)
      · exact absurd h (by simp)
      · exact absurd h (by simp)
      · obtain ⟨rfl, rfl, rfl⟩ := Event.parsed.inj h
        obtain ⟨before, after, hsplit⟩ := trace_split hself includes
        rw [hsplit]
        cases room with
        | zero => exact .inr ⟨rfl, by simp [trace]⟩
        | succ room =>
            exact .inl (keys_performAll_between _ _ _ _ (key_mem_keys_trace room _ q))
      · rw [hsplit]
        rcases ih h ((includes_performAll _ _ _ _ _).mpr includes) with hkey | ⟨hroom, hdeep⟩
        · exact .inl (keys_performAll_between _ _ _ _ hkey)
        · exact .inr ⟨hroom, by simp [hdeep]⟩

/-- Every file that is met is reached through files that were parsed above the limit. -/
theorem chain_of_met {levels : Nat} {session : Session} {path p : Path} {event : Event}
    (mem : event ∈ trace files reading levels session path) (met : event.met? = some p) :
    ∃ n < levels, Chain files reading session
      (ParsedAbove (trace files reading levels session path)) n path p := by
  induction levels generalizing session path with
  | zero =>
      obtain rfl := List.mem_singleton.mp mem
      exact absurd met (by simp [Event.met?])
  | succ levels ih =>
      rcases mem_trace_succ mem with rfl | ⟨error, -, rfl⟩ | ⟨name, rfl⟩ |
        ⟨content, hread, hself, rfl | ⟨target, before, after, hincludes, -, hsplit, h⟩⟩
      · exact absurd met (by simp [Event.met?])
      · obtain rfl := Option.some.inj met
        exact ⟨0, Nat.succ_pos _, .here⟩
      · exact absurd met (by simp [Event.met?])
      · obtain rfl := Option.some.inj met
        exact ⟨0, Nat.succ_pos _, .here⟩
      · obtain ⟨n, hn, hchain⟩ := ih h
        have hlater : ∀ q, ParsedAbove (trace files reading levels
            (session.performAll files reading before) target) q →
            ParsedAbove (trace files reading (levels + 1) session path) q := by
          rintro q ⟨room, content, hq⟩
          exact ⟨room, content, by rw [hsplit]; simp [hq]⟩
        -- The target was walked, so the file that includes it had a level left.
        obtain ⟨room, rfl⟩ : ∃ room, levels = room + 1 := Nat.exists_eq_succ_of_ne_zero (by omega)
        refine ⟨n + 1, Nat.succ_lt_succ hn, .step ⟨room, content, hself⟩ hincludes ?_⟩
        exact (hchain.congr (includes_performAll reading session before)).mono hlater

end Session
end LibSurvey
