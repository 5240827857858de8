import LibSurvey.Proofs.Walk.History

/-!
What a first walk reaches. Without a cut at the depth limit it parses all that can be read along
includes; with one it parses what is included by files that it parsed above the limit. That equal
names are one file is assumed of the file system; how includes of one file resolve from its several
paths is assumed only where a theorem says so.
-/

namespace LibSurvey

namespace Session

variable {files : FileView} {reading : Reading} {session : Session} {root : Path}

/-- From all paths of one file, includes lead to the same files. -/
def Unaliased (files : FileView) (reading : Reading) (session : Session) (root : Path) : Prop :=
  ∀ p q, session.Reaches files reading root p → session.Reaches files reading root q →
    files.key p = files.key q →
      ∀ name, (session.resolve? files name p).map files.key =
        (session.resolve? files name q).map files.key

theorem isFile_of_resolve? {name : String} {includer target : Path}
    (h : session.resolve? files name includer = some target) : files.isFile target = true := by
  unfold resolve? at h
  split at h
  · exact List.find?_some h
  · simp only at h
    split at h
    · obtain rfl := Option.some.inj h
      assumption
    · exact absurd h (by simp)

/-- Files that a walk reaches under one name read alike. -/
theorem read_of_key_eq (coherent : files.Coherent) {p q : Path} {content : ByteArray}
    (hp : session.Reaches files reading root p) (hq : session.Reaches files reading root q)
    (key : files.key p = files.key q) (read : files.read p = .ok content) :
    files.read q = .ok content := by
  obtain ⟨a, ha⟩ := Option.isSome_iff_exists.mp (coherent.name_of_read read)
  cases hb : files.canonical? q with
  | some b =>
      refine coherent.read_of_same ha hb ?_ read
      have : a.components = b.components := by
        simpa [FileView.key, FileView.identity, ha, hb] using key
      simpa [Path.same] using this
  | none =>
      -- A path without a name is no include and cannot be read, so it is the root and all there is.
      rcases Relation.ReflTransGen.cases_tail hq with rfl | ⟨before, -, shown, name, -, -, hname⟩
      · rcases Relation.ReflTransGen.cases_head hp with rfl | ⟨after, ⟨shown, name, hread, -⟩, -⟩
        · exact read
        · exact absurd (coherent.name_of_read hread) (by simp [hb])
      · exact absurd (coherent.name_of_isFile (isFile_of_resolve? hname)) (by simp [hb])

theorem met_of_key_mem (unseen : session.keys = []) {events : List Event} {path : Path}
    (mem : files.key path ∈ (session.performAll files reading events).keys) :
    ∃ event ∈ events, ∃ p, event.met? = some p ∧ files.key p = files.key path := by
  rw [keys_performAll, unseen, List.append_nil, List.mem_reverse, List.mem_map] at mem
  obtain ⟨p, hp, hkey⟩ := mem
  obtain ⟨event, hevent, hmet⟩ := List.mem_filterMap.mp hp
  exact ⟨event, hevent, p, hmet, hkey⟩

theorem parsed_of_met {levels : Nat} {path p : Path} {event : Event} {content : ByteArray}
    (mem : event ∈ trace files reading levels session path) (met : event.met? = some p)
    (read : files.read p = .ok content) : ∃ room, event = .parsed p room content := by
  rcases Event.cases_of_met? met with ⟨error, rfl⟩ | ⟨room, shown, rfl⟩
  · exact absurd ((read_of_unreadable mem).symm.trans read) (by simp)
  · have hsame := (read_of_parsed mem).symm.trans read
    exact ⟨room, by rw [Except.ok.inj hsame]⟩

theorem reaches_of_met {levels : Nat} {p : Path} {event : Event}
    (mem : event ∈ trace files reading levels session root) (met : event.met? = some p) :
    session.Reaches files reading root p := by
  obtain ⟨n, -, hchain⟩ := chain_of_met mem met
  exact hchain.reaches

/-- A file that can be read and is met, by whatever path, is parsed by some path. -/
theorem parsed_of_key_mem (coherent : files.Coherent) (unseen : session.keys = []) {levels : Nat}
    {path : Path} {content : ByteArray} (reaches : session.Reaches files reading root path)
    (read : files.read path = .ok content)
    (mem : files.key path ∈
      (session.performAll files reading (trace files reading levels session root)).keys) :
    ∃ p room, .parsed p room content ∈ trace files reading levels session root ∧
      files.key p = files.key path := by
  obtain ⟨event, hevent, p, hmet, hkey⟩ := met_of_key_mem unseen mem
  have hread := read_of_key_eq coherent reaches (reaches_of_met hevent hmet) hkey.symm read
  obtain ⟨room, rfl⟩ := parsed_of_met hevent hmet hread
  exact ⟨p, room, hevent, hkey⟩

/-- A first walk meets all that its root reaches, if it passes over none but files it meets anyway. -/
theorem key_mem_of_reaches (coherent : files.Coherent) (unseen : session.keys = [])
    (unaliased : session.Unaliased files reading root) {levels : Nat}
    (passed : ∀ path, .tooDeep path ∈ trace files reading (levels + 1) session root →
      files.key path ∈
        (session.performAll files reading (trace files reading (levels + 1) session root)).keys)
    {path : Path} (reaches : session.Reaches files reading root path) :
    files.key path ∈
      (session.performAll files reading (trace files reading (levels + 1) session root)).keys := by
  induction reaches with
  | refl => exact key_mem_keys_trace levels session root
  | @tail p q hp includes ih =>
      obtain ⟨content, name, hread, hname, htarget⟩ := includes
      obtain ⟨p', room, hparsed, hkey⟩ := parsed_of_key_mem coherent unseen hp hread ih
      -- The file was parsed by a path of its own, from which the include leads to the same file.
      have hp' := reaches_of_met hparsed rfl
      have hresolved := unaliased p p' hp hp' hkey.symm name
      rw [htarget, Option.map_some] at hresolved
      obtain ⟨q', hq', hqkey⟩ := Option.map_eq_some_iff.mp hresolved.symm
      have includes' : session.Includes files reading p' q' :=
        ⟨content, name, read_of_parsed hparsed, hname, hq'⟩
      rw [← hqkey]
      rcases key_mem_of_parsed hparsed includes' with h | ⟨-, h⟩
      · exact h
      · exact passed q' h

/-- Such a walk parses exactly the files that its root reaches. -/
theorem parsed_iff_reaches (coherent : files.Coherent) (unseen : session.keys = [])
    (unaliased : session.Unaliased files reading root)
    (passed : ∀ path, .tooDeep path ∈ session.walkEvents files reading root →
      files.key path ∈
        (session.performAll files reading (session.walkEvents files reading root)).keys)
    (file : List Path.Component) :
    (∃ event ∈ session.walkEvents files reading root,
        ∃ path, event.parsed? = some path ∧ files.key path = file) ↔
      ∃ path content, session.Reaches files reading root path ∧
        files.read path = .ok content ∧ files.key path = file := by
  constructor
  · rintro ⟨event, hevent, path, hparsed, rfl⟩
    obtain ⟨room, content, rfl⟩ := Event.eq_of_parsed? hparsed
    exact ⟨path, content, reaches_of_met hevent rfl, read_of_parsed hevent, rfl⟩
  · rintro ⟨path, content, reaches, read, rfl⟩
    have hmem := key_mem_of_reaches coherent unseen unaliased passed reaches
    obtain ⟨p, room, hparsed, hkey⟩ := parsed_of_key_mem coherent unseen reaches read hmem
    exact ⟨_, hparsed, p, rfl, hkey⟩

/-- Walks one after the other in a new session end well unless they are cancelled. Each file takes
effect at most once, is reached from the root of its walk by includes within the depth, and what is
found are the declarations of the files, one file after the other in depth-first order. A first walk
that meets no path below the limit parses exactly the files that its root reaches. -/
theorem walks_fresh (around : Surroundings) (session : Session) (fresh : session.visited = [])
    (calls : List (Reading × Path)) :
    ((session.walks around calls).cancelled = true →
      ∃ looks, around.cancellation.isSet
        ⟨session.course.looks + looks, session.course.elapsedMs⟩ = true) ∧
    ((session.walks around calls).cancelled = false →
      (session.walks around calls).session =
        session.performEntries around.files (session.history around.files calls) ∧
      (session.walks around calls).session.findings.signatures =
        ((session.history around.files calls).filterMap
          (Entry.emissions? session.annotations)).foldl SignatureSet.apply
            session.findings.signatures) ∧
    (((session.history around.files calls).filterMap (·.event.parsed?)).map
      around.files.key).Nodup ∧
    (∀ entry ∈ session.history around.files calls, ∀ path, entry.event.parsed? = some path →
      ∃ n ≤ session.maxDepth,
        Chain around.files entry.reading session (fun _ => True) n entry.root path) ∧
    (∀ reading root, around.files.Coherent → session.Unaliased around.files reading root →
      (∀ path, .tooDeep path ∉ session.walkEvents around.files reading root) →
      ∀ file, (∃ event ∈ session.walkEvents around.files reading root,
          ∃ path, event.parsed? = some path ∧ around.files.key path = file) ↔
        ∃ path content, session.Reaches around.files reading root path ∧
          around.files.read path = .ok content ∧ around.files.key path = file) := by
  have unseen : session.keys = [] := by rw [keys, fresh, List.map_nil]
  refine ⟨isSet_of_walks_cancelled, ?_, ?_, ?_, ?_⟩
  · intro h
    refine ⟨walks_session h, ?_⟩
    rw [walks_session h]
    exact performEntries_signatures _ _
  · have hmet := @nodup_history around.files session (unseen ▸ List.nodup_nil) calls
    exact ((parsed_sublist_met _).map _).nodup (List.nodup_append.mp hmet).1
  · intro entry mem path hpath
    exact chain_of_mem_history mem (Event.met?_of_parsed? hpath)
  · intro reading root coherent unaliased uncut file
    exact parsed_iff_reaches coherent unseen unaliased (fun path h => absurd h (uncut path)) file

/-- Two headers that include each other. -/
def cycle : FileTree :=
  .ofTexts [("a.h", "#include \"b.h\"\n#define A 1\n"), ("b.h", "#include \"a.h\"\n#define B 2\n")]

theorem cycle_included :
    (start .default [] .start).included cycle.view .byTokens ⟨"a.h"⟩ = [⟨"b.h"⟩] ∧
      (start .default [] .start).included cycle.view .byTokens ⟨"b.h"⟩ = [⟨"a.h"⟩] := by
  decide +kernel

theorem cycle_unaliased :
    (start .default [] .start).Unaliased cycle.view .byTokens ⟨"a.h"⟩ := by
  have only : ∀ p, (start .default [] .start).Reaches cycle.view .byTokens ⟨"a.h"⟩ p →
      p = ⟨"a.h"⟩ ∨ p = ⟨"b.h"⟩ := by
    intro p h
    induction h with
    | refl => exact .inl rfl
    | tail _ includes ih =>
        rw [includes_iff_mem] at includes
        rcases ih with rfl | rfl
        · exact .inr (by simpa [cycle_included.1] using includes)
        · exact .inl (by simpa [cycle_included.2] using includes)
  have apart : cycle.view.key ⟨"a.h"⟩ ≠ cycle.view.key ⟨"b.h"⟩ := by decide +kernel
  intro p q hp hq hkey name
  rcases only p hp with rfl | rfl
  · rcases only q hq with rfl | rfl
    · rfl
    · exact absurd hkey apart
  · rcases only q hq with rfl | rfl
    · exact absurd hkey.symm apart
    · rfl

/-- Two walks over a cycle, the second by lines; the first one alone parses both files. -/
theorem walks_fresh_cycle :
    ((start .default [] .start).walks ⟨cycle.view, .never⟩
        [(.byTokens, ⟨"a.h"⟩), (.byLines, ⟨"b.h"⟩)]).session.findings.signatures =
      (((start .default [] .start).history cycle.view
          [(.byTokens, ⟨"a.h"⟩), (.byLines, ⟨"b.h"⟩)]).filterMap
        (Entry.emissions? ⟨[]⟩)).foldl SignatureSet.apply .empty ∧
    ((start .default [] .start).walks ⟨cycle.view, .never⟩
        [(.byTokens, ⟨"a.h"⟩), (.byLines, ⟨"b.h"⟩)]).session.findings.signatures.constants.toList =
      [("A", 1), ("B", 2)] ∧
    ∃ event ∈ (start .default [] .start).walkEvents cycle.view .byTokens ⟨"a.h"⟩,
      ∃ path, event.parsed? = some path ∧ cycle.view.key path = cycle.view.key ⟨"b.h"⟩ := by
  obtain ⟨-, hrun, -, -, hfirst⟩ := walks_fresh ⟨cycle.view, .never⟩ (start .default [] .start) rfl
    [(.byTokens, ⟨"a.h"⟩), (.byLines, ⟨"b.h"⟩)]
  refine ⟨(hrun (walks_never _ _ _)).2, by decide +kernel, ?_⟩
  have uncut : ∀ path, .tooDeep path ∉
      (start .default [] .start).walkEvents cycle.view .byTokens ⟨"a.h"⟩ := by
    have within : ((start .default [] .start).walkEvents cycle.view .byTokens ⟨"a.h"⟩).all
        (fun event => event.looks) = true := by decide +kernel
    intro path h
    exact absurd (List.all_eq_true.mp within _ h) (by simp [Event.looks])
  have reaches : (start .default [] .start).Reaches cycle.view .byTokens ⟨"a.h"⟩ ⟨"b.h"⟩ := by
    refine .single ?_
    rw [includes_iff_mem, cycle_included.1]
    exact List.mem_singleton.mpr rfl
  have hread : cycle.view.read ⟨"b.h"⟩ = .ok "#include \"a.h\"\n#define B 2\n".toUTF8 := by
    rfl
  exact (hfirst .byTokens ⟨"a.h"⟩ (FileTree.coherent_ofTexts _) cycle_unaliased uncut _).mpr
    ⟨_, _, reaches, hread, rfl⟩

end Session
end LibSurvey
