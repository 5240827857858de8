import LibSurvey.Proofs.Walk.History
import Mathlib.Data.List.Forall2

/-!
The walk by tokens and the walk by lines, side by side. Where every file that is read has to be read
by its lines, both take the same way and find the same; only the notes on that reading, and the
stage and the words of the other notes on the way, tell them apart. Which files have to be read by
their lines remains a separate obligation.
-/

namespace LibSurvey

/-- What the two walks note of one thing. -/
inductive Diagnostic.Matches : Diagnostic → Diagnostic → Prop where
  | evaluated (message : String) : Matches ⟨.evaluate, message⟩ ⟨.evaluate, message⟩
  | passedOver (message : String) :
    Matches ⟨Reading.byTokens.stage, message⟩ ⟨Reading.byLines.stage, message⟩
  | unresolved (name : String) (includer : Path) :
    Matches ⟨Reading.byTokens.stage, Reading.byTokens.unresolved name includer⟩
      ⟨Reading.byLines.stage, Reading.byLines.unresolved name includer⟩

theorem Diagnostic.filter_evaluate_of_matches {tokens lines : List Diagnostic}
    (h : List.Forall₂ Matches tokens lines) :
    tokens.filter (·.stage = .evaluate) = lines.filter (·.stage = .evaluate) := by
  induction h with
  | nil => rfl
  | cons same _ ih =>
      cases same with
      | evaluated message => simpa using ih
      | passedOver message => simpa [Reading.stage] using ih
      | unresolved name includer => simpa [Reading.stage] using ih

namespace Diagnostics

def under (sink : Diagnostics) (stage : Stage) : List Diagnostic :=
  sink.entries.filter (·.stage = stage)

/-- The entries under all other stages. -/
def beside (sink : Diagnostics) (stage : Stage) : List Diagnostic :=
  sink.entries.filter (·.stage ≠ stage)

/-- The diagnostics of the two walks match, but for those of the first on how files had to be read. -/
structure Agree (tokens lines : Diagnostics) : Prop where
  enabled : tokens.enabled = lines.enabled
  entries : List.Forall₂ Diagnostic.Matches (tokens.beside .parse) lines.entries

namespace Agree

variable {tokens lines : Diagnostics}

theorem empty (enabled : Bool) : Agree (.empty enabled) (.empty enabled) :=
  ⟨rfl, .nil⟩

theorem record (h : tokens.Agree lines) {a b : Diagnostic} (same : a.Matches b) :
    (tokens.record a.stage a.message).Agree (lines.record b.stage b.message) := by
  have kept : [a].filter (·.stage ≠ .parse) = [a] := by cases same <;> rfl
  unfold Diagnostics.record
  rw [h.enabled]
  split
  · refine ⟨rfl, ?_⟩
    rw [beside, List.filter_append, kept]
    exact List.rel_append h.entries (.cons same .nil)
  · exact h

theorem record_parse (h : tokens.Agree lines) (message : String) :
    (tokens.record .parse message).Agree lines := by
  unfold Diagnostics.record
  split
  · exact ⟨h.enabled, by simpa [beside, List.filter_append] using h.entries⟩
  · exact h

theorem length (h : tokens.Agree lines) :
    (tokens.beside .parse).length = lines.entries.length :=
  List.Forall₂.length_eq h.entries

theorem evaluated (h : tokens.Agree lines) : tokens.under .evaluate = lines.under .evaluate := by
  have split : tokens.under .evaluate =
      (tokens.beside .parse).filter (·.stage = .evaluate) := by
    rw [under, beside, List.filter_filter]
    refine List.filter_congr fun entry _ => ?_
    cases entry.stage <;> rfl
  rw [split]
  exact Diagnostic.filter_evaluate_of_matches h.entries

end Agree
end Diagnostics

namespace Findings

/-- Findings of the two walks that differ at most in what was noted. -/
structure Alike (tokens lines : Findings) : Prop where
  signatures : tokens.signatures = lines.signatures
  diagnostics : tokens.diagnostics.Agree lines.diagnostics

namespace Alike

variable {tokens lines : Findings}

theorem note (h : tokens.Alike lines) {a b : Diagnostic} (same : a.Matches b) :
    (tokens.note a.stage a.message).Alike (lines.note b.stage b.message) :=
  ⟨h.signatures, h.diagnostics.record same⟩

theorem note_parse (h : tokens.Alike lines) (message : String) :
    (tokens.note .parse message).Alike lines :=
  ⟨h.signatures, h.diagnostics.record_parse message⟩

theorem evaluate (h : tokens.Alike lines) (name expression : String) :
    (tokens.evaluate name expression).1 = (lines.evaluate name expression).1 ∧
      (tokens.evaluate name expression).2.Alike (lines.evaluate name expression).2 := by
  unfold Findings.evaluate
  rw [h.signatures]
  cases lines.signatures.evaluate expression with
  | ok value => exact ⟨rfl, h⟩
  | error failure => exact ⟨rfl, h.note (.evaluated _)⟩

theorem define (h : tokens.Alike lines) (name : String) (value : Option Int64) :
    (tokens.define name value).Alike (lines.define name value) := by
  refine ⟨define_congr h.signatures name value, ?_⟩
  cases value with
  | none => exact h.diagnostics
  | some value => exact h.diagnostics

theorem enumerate (h : tokens.Alike lines) (next : Option Int64) (items : List Enumerator) :
    (tokens.enumerate next items).Alike (lines.enumerate next items) := by
  induction items generalizing tokens lines next with
  | nil => exact h
  | cons item items ih =>
      rw [Findings.enumerate, Findings.enumerate]
      cases item.value with
      | none => exact ih (h.define _ _) _
      | some expression =>
          obtain ⟨hvalue, hfindings⟩ := h.evaluate item.name expression
          simp only [hvalue]
          exact ih (hfindings.define _ _) _

theorem applyOne (h : tokens.Alike lines) (emission : Emission) :
    (tokens.applyOne emission).Alike (lines.applyOne emission) := by
  cases emission with
  | included name => exact h
  | constant name expression =>
      obtain ⟨hvalue, hfindings⟩ := h.evaluate name expression
      simp only [Findings.applyOne, hvalue]
      exact hfindings.define _ _
  | functionMacro name definition =>
      exact ⟨applyOne_congr h.signatures (.functionMacro name definition), h.diagnostics⟩
  | enumeration items => exact h.enumerate _ _
  | function name signature =>
      exact ⟨applyOne_congr h.signatures (.function name signature), h.diagnostics⟩

theorem apply (h : tokens.Alike lines) (emissions : List Emission) :
    (tokens.apply emissions).Alike (lines.apply emissions) := by
  induction emissions generalizing tokens lines with
  | nil => exact h
  | cons emission emissions ih => exact ih (h.applyOne emission)

end Alike
end Findings

namespace Session

/-- The events that are performed: those up to the first look that finds the walk cancelled. -/
def performed (around : Surroundings) (reading : Reading) (session : Session) :
    List Event → List Event
  | [] => []
  | event :: rest =>
    if event.looks && around.cancellation.isSet session.course then []
    else event :: (session.perform around.files reading event).performed around reading rest

/-- A file that cannot be read by its tokens. -/
def Rejects (session : Session) (content : ByteArray) : Prop :=
  ∃ fault, Declarations.ofBytes? session.annotations content.toList = .error fault

instance (session : Session) (content : ByteArray) : Decidable (session.Rejects content) :=
  match h : Declarations.ofBytes? session.annotations content.toList with
  | .error fault => isTrue ⟨fault, h⟩
  | .ok _ => isFalse fun ⟨_, hfault⟩ => nomatch h.symm.trans hfault

/-- Every file that is read in performing the events has to be read by its lines. -/
def RejectsAll (around : Surroundings) (session : Session) (events : List Event) : Prop :=
  ∀ path room content, .parsed path room content ∈ session.performed around .byTokens events →
    session.Rejects content

/-- Sessions of the two walks that differ at most in what was noted. -/
def Alike (tokens lines : Session) : Prop :=
  ∃ findings, tokens.findings.Alike findings ∧ lines = { tokens with findings }

variable {around : Surroundings} {reading : Reading} {files : FileView}

theorem performed_append (session : Session) (a b : List Event) :
    session.performed around reading (a ++ b) =
      session.performed around reading a ++
        if (session.replay around reading a).cancelled then []
        else (session.performAll around.files reading a).performed around reading b := by
  induction a generalizing session with
  | nil => rfl
  | cons event a ih =>
      rw [List.cons_append, performed, performed, replay]
      by_cases h : event.looks && around.cancellation.isSet session.course
      · simp [h]
      · simp only [h, ite_false, Bool.false_eq_true, List.cons_append]
        rw [ih, performAll_cons]

namespace RejectsAll

variable {session : Session} {event : Event} {events a b : List Event}

theorem head {path : Path} {room : Nat} {content : ByteArray}
    (h : session.RejectsAll around (.parsed path room content :: events))
    (going : around.cancellation.isSet session.course = false) : session.Rejects content := by
  refine h path room content ?_
  rw [performed, going, Bool.and_false, if_neg Bool.false_ne_true]
  exact List.mem_cons_self

theorem tail (h : session.RejectsAll around (event :: events))
    (going : (event.looks && around.cancellation.isSet session.course) = false) :
    (session.perform around.files .byTokens event).RejectsAll around events := by
  intro path room content mem
  rw [Rejects, perform_annotations]
  refine h path room content ?_
  rw [performed, going, if_neg Bool.false_ne_true]
  exact List.mem_cons_of_mem _ mem

theorem left (h : session.RejectsAll around (a ++ b)) : session.RejectsAll around a := by
  intro path room content mem
  refine h path room content ?_
  rw [performed_append]
  exact List.mem_append_left _ mem

theorem right (h : session.RejectsAll around (a ++ b))
    (going : (session.replay around .byTokens a).cancelled = false) :
    (session.performAll around.files .byTokens a).RejectsAll around b := by
  intro path room content mem
  rw [Rejects, performAll_annotations]
  refine h path room content ?_
  rw [performed_append, going, if_neg Bool.false_ne_true]
  exact List.mem_append_right _ mem

end RejectsAll

namespace Alike

variable {tokens lines : Session}

theorem note (h : tokens.Alike lines) {a b : Diagnostic} (same : a.Matches b) :
    (tokens.note a.stage a.message).Alike (lines.note b.stage b.message) := by
  obtain ⟨findings, hfindings, rfl⟩ := h
  exact ⟨_, hfindings.note same, rfl⟩

theorem looked (h : tokens.Alike lines) :
    Alike { tokens with course := tokens.course.looked }
      { lines with course := lines.course.looked } := by
  obtain ⟨findings, hfindings, rfl⟩ := h
  exact ⟨findings, hfindings, rfl⟩

theorem meet (h : tokens.Alike lines) (path : Path) :
    (tokens.meet files path).Alike (lines.meet files path) := by
  obtain ⟨findings, hfindings, rfl⟩ := h
  exact ⟨findings, hfindings, rfl⟩

/-- A file that has to be read by its lines declares the same in both walks. -/
theorem parsed (h : tokens.Alike lines) (path : Path) (room : Nat) {content : ByteArray}
    (rejects : tokens.Rejects content) :
    (tokens.perform files .byTokens (.parsed path room content)).Alike
      (lines.perform files .byLines (.parsed path room content)) := by
  obtain ⟨findings, hfindings, rfl⟩ := h
  obtain ⟨fault, hfault⟩ := rejects
  have hmet : Declarations.ofBytes? (tokens.meet files path).annotations content.toList =
      .error fault := hfault
  simp only [perform, Reading.emissions, hmet]
  exact ⟨_, (hfindings.note_parse _).apply _, rfl⟩

theorem perform (h : tokens.Alike lines) (event : Event)
    (rejects : ∀ path room content, event = .parsed path room content → tokens.Rejects content) :
    (tokens.perform files .byTokens event).Alike (lines.perform files .byLines event) := by
  cases event with
  | tooDeep path => exact h.note (.passedOver _)
  | known path => exact h.looked
  | unreadable path error => exact (h.meet path).note (.passedOver _)
  | parsed path room content => exact h.parsed path room (rejects path room content rfl)
  | unresolved name includer => exact h.note (.unresolved name includer)

end Alike
end Session

/-- Both walks end, or both are cancelled, with sessions that are alike. -/
structure Walked.Alike (tokens lines : Walked) : Prop where
  cancelled : tokens.cancelled = lines.cancelled
  session : tokens.session.Alike lines.session

namespace Session

variable {around : Surroundings} {tokens lines : Session}

theorem Alike.isSet (h : tokens.Alike lines) :
    around.cancellation.isSet lines.course = around.cancellation.isSet tokens.course := by
  obtain ⟨findings, -, rfl⟩ := h
  rfl

/-- The first event is performed in both walks or finds both cancelled. -/
theorem Alike.replay_cons (h : tokens.Alike lines) {event : Event} {a b : List Event}
    (rejects : tokens.RejectsAll around (event :: a))
    (rest : (event.looks && around.cancellation.isSet tokens.course) = false →
      (tokens.perform around.files .byTokens event).Alike
        (lines.perform around.files .byLines event) →
      (tokens.perform around.files .byTokens event).RejectsAll around a →
      Walked.Alike ((tokens.perform around.files .byTokens event).replay around .byTokens a)
        ((lines.perform around.files .byLines event).replay around .byLines b)) :
    Walked.Alike (tokens.replay around .byTokens (event :: a))
      (lines.replay around .byLines (event :: b)) := by
  rw [replay, replay, h.isSet]
  cases hset : event.looks && around.cancellation.isSet tokens.course with
  | true => exact ⟨rfl, h.looked⟩
  | false =>
      refine rest hset (h.perform event ?_) (rejects.tail hset)
      rintro path room content rfl
      exact rejects.head hset

theorem replay_append_alike {a b c d : List Event}
    (first : Walked.Alike (tokens.replay around .byTokens a) (lines.replay around .byLines b))
    (rest : (tokens.replay around .byTokens a).cancelled = false →
      (tokens.performAll around.files .byTokens a).Alike
        (lines.performAll around.files .byLines b) →
      Walked.Alike ((tokens.performAll around.files .byTokens a).replay around .byTokens c)
        ((lines.performAll around.files .byLines b).replay around .byLines d)) :
    Walked.Alike (tokens.replay around .byTokens (a ++ c))
      (lines.replay around .byLines (b ++ d)) := by
  rw [Session.replay_append, Session.replay_append, ← first.cancelled]
  cases hc : (tokens.replay around .byTokens a).cancelled with
  | true => exact first
  | false =>
      have hsession := first.session
      rw [replay_session hc, replay_session (first.cancelled ▸ hc)] at hsession
      exact rest hc hsession

variable {files : FileView}

theorem Alike.resolve? (h : tokens.Alike lines) (name : String) (includer : Path) :
    lines.resolve? files name includer = tokens.resolve? files name includer := by
  obtain ⟨findings, -, rfl⟩ := h
  rfl

theorem Alike.keys (h : tokens.Alike lines) : lines.keys = tokens.keys := by
  obtain ⟨findings, -, rfl⟩ := h
  rfl

/-- A file that has to be read by its lines shows the same includes in both walks. -/
theorem Alike.declared (h : tokens.Alike lines) {content : ByteArray}
    (rejects : tokens.Rejects content) :
    Reading.byLines.declared lines.annotations content.toList =
      Reading.byTokens.declared tokens.annotations content.toList := by
  obtain ⟨findings, -, rfl⟩ := h
  obtain ⟨fault, hfault⟩ := rejects
  simp only [Reading.declared, hfault, Option.getD_none]

/-- Both walks follow the same includes if they agree on each file. -/
theorem Alike.replay_traceAll {tokenTrace lineTrace : Session → Path → List Event}
    (walk : ∀ {tokens lines : Session}, tokens.Alike lines → ∀ path,
      tokens.RejectsAll around (tokenTrace tokens path) →
      Walked.Alike (tokens.replay around .byTokens (tokenTrace tokens path))
        (lines.replay around .byLines (lineTrace lines path)))
    (includer : Path) (names : List String) (h : tokens.Alike lines)
    (rejects : tokens.RejectsAll around
      (traceAll around.files .byTokens tokenTrace includer tokens names)) :
    Walked.Alike
      (tokens.replay around .byTokens
        (traceAll around.files .byTokens tokenTrace includer tokens names))
      (lines.replay around .byLines
        (traceAll around.files .byLines lineTrace includer lines names)) := by
  induction names generalizing tokens lines with
  | nil => exact ⟨rfl, h⟩
  | cons name names ih =>
      have hlines : lines.resolve? around.files name includer =
          tokens.resolve? around.files name includer := h.resolve? name includer
      cases hr : tokens.resolve? around.files name includer with
      | none =>
          rw [traceAll_cons_none hr] at rejects ⊢
          rw [traceAll_cons_none (hlines.trans hr)]
          exact h.replay_cons rejects fun _ => ih
      | some target =>
          rw [traceAll_cons_some hr] at rejects ⊢
          rw [traceAll_cons_some (hlines.trans hr)]
          exact replay_append_alike (walk h target rejects.left) fun going alike =>
            ih alike (rejects.right going)

/-- The two walks of a file keep the sessions alike and are cancelled at the same look. -/
theorem Alike.replay_trace (h : tokens.Alike lines) (levels : Nat) (path : Path)
    (rejects : tokens.RejectsAll around (trace around.files .byTokens levels tokens path)) :
    Walked.Alike
      (tokens.replay around .byTokens (trace around.files .byTokens levels tokens path))
      (lines.replay around .byLines (trace around.files .byLines levels lines path)) := by
  induction levels generalizing tokens lines path with
  | zero => exact h.replay_cons rejects fun _ alike _ => ⟨rfl, alike⟩
  | succ levels ih =>
      by_cases hseen : around.files.key path ∈ tokens.keys
      · rw [trace_known hseen] at rejects ⊢
        rw [trace_known (h.keys ▸ hseen)]
        exact h.replay_cons rejects fun _ alike _ => ⟨rfl, alike⟩
      · have hfresh : around.files.key path ∉ lines.keys := h.keys ▸ hseen
        cases hread : around.files.read path with
        | error error =>
            rw [trace_unreadable hseen hread] at rejects ⊢
            rw [trace_unreadable hfresh hread]
            exact h.replay_cons rejects fun _ alike _ => ⟨rfl, alike⟩
        | ok content =>
            rw [trace_parsed hseen hread] at rejects ⊢
            rw [trace_parsed hfresh hread]
            refine h.replay_cons rejects fun going alike later => ?_
            -- The includes are the same only now that the file is known to be read.
            rw [h.declared (rejects.head going)]
            exact alike.replay_traceAll ih path _ later

theorem alike_start (config : Config) (searchPaths : List Path) (course : Course) :
    (start config searchPaths course).Alike (start config searchPaths course) :=
  ⟨_, ⟨rfl, .empty _⟩, rfl⟩

/-- In a fresh session, a walk by tokens that has to read every file by its lines is the walk by
lines: it ends or is cancelled at the same look, has seen the same files and found the same, and its
notes match, but for those on the reading. -/
theorem walks_agree (around : Surroundings) (config : Config) (searchPaths : List Path)
    (course : Course) (root : Path)
    (rejects : (start config searchPaths course).RejectsAll around
      ((start config searchPaths course).walkEvents around.files .byTokens root)) :
    let tokens := (start config searchPaths course).walk around .byTokens root
    let lines := (start config searchPaths course).walk around .byLines root
    tokens.cancelled = lines.cancelled ∧
    tokens.session.course = lines.session.course ∧
    tokens.session.visited = lines.session.visited ∧
    tokens.session.findings.signatures = lines.session.findings.signatures ∧
    (tokens.session.findings.diagnostics.beside .parse).length =
      lines.session.findings.diagnostics.entries.length ∧
    tokens.session.findings.diagnostics.under .evaluate =
      lines.session.findings.diagnostics.under .evaluate := by
  have h := (alike_start config searchPaths course).replay_trace _ root rejects
  intro tokens lines
  obtain ⟨hcancelled, findings, hfindings, hlines⟩ : tokens.Alike lines := by
    simpa only [tokens, lines, walk_eq_replay, walkEvents] using h
  rw [hlines]
  exact ⟨hcancelled, rfl, rfl, hfindings.signatures, hfindings.diagnostics.length,
    hfindings.diagnostics.evaluated⟩

/-- Two headers that include each other and never close their braces. -/
def unclosed : Surroundings where
  files := (FileTree.ofTexts [
    ("a.h", "#include \"b.h\"\n#include \"c.h\"\n#define A MISSING\nstruct S \x7b\n"),
    ("b.h", "#include \"a.h\"\n#define B 1\nstruct T \x7b\n")]).view
  cancellation := .never

def noting : Session :=
  start { Config.default with diagnostics := true } [] .start

/-- Both walks find what the lines of the two headers declare. -/
theorem walks_agree_unclosed :
    noting.RejectsAll unclosed (noting.walkEvents unclosed.files .byTokens ⟨"a.h"⟩) ∧
    (noting.walk unclosed .byTokens ⟨"a.h"⟩).session.visited =
      (noting.walk unclosed .byLines ⟨"a.h"⟩).session.visited ∧
    (noting.walk unclosed .byTokens ⟨"a.h"⟩).session.findings.signatures =
      (noting.walk unclosed .byLines ⟨"a.h"⟩).session.findings.signatures ∧
    (noting.walk unclosed .byTokens ⟨"a.h"⟩).session.findings.diagnostics.under .evaluate =
      (noting.walk unclosed .byLines ⟨"a.h"⟩).session.findings.diagnostics.under .evaluate ∧
    (noting.walk unclosed .byLines ⟨"a.h"⟩).session.findings.diagnostics.entries.map (·.stage) =
      [.evaluate, .fallback] := by
  have rejects : noting.RejectsAll unclosed
      (noting.walkEvents unclosed.files .byTokens ⟨"a.h"⟩) := by
    have all : (noting.performed unclosed .byTokens
        (noting.walkEvents unclosed.files .byTokens ⟨"a.h"⟩)).all (fun
          | .parsed _ _ content => decide (noting.Rejects content)
          | _ => true) = true := by
      decide +kernel
    intro path room content mem
    exact of_decide_eq_true (List.all_eq_true.mp all _ mem)
  obtain ⟨-, -, hvisited, hsignatures, -, hevaluated⟩ :=
    walks_agree unclosed { Config.default with diagnostics := true } [] .start ⟨"a.h"⟩ rejects
  exact ⟨rejects, hvisited, hsignatures, hevaluated, by decide +kernel⟩

end Session
end LibSurvey
