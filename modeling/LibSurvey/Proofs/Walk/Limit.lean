import LibSurvey.Proofs.Walk.Complete

/-!
What the depth limit cuts. A file that a walk first meets at the limit is remembered without what it
includes, and a shorter way to it later makes no difference; so the limit cuts by the way that was
taken first. What is left is exactly what files that were parsed above the limit lead to.
-/

namespace LibSurvey.Session

variable {files : FileView} {reading : Reading} {session : Session} {root : Path}

/-- A chain of files that are parsed above the limit leads from a file that is met to one that is. -/
theorem key_mem_of_chain {levels n : Nat} {p path : Path}
    (chain : Chain files reading session
      (ParsedAbove (trace files reading levels session root)) n p path)
    (met : files.key p ∈
      (session.performAll files reading (trace files reading levels session root)).keys) :
    files.key path ∈
      (session.performAll files reading (trace files reading levels session root)).keys := by
  induction chain with
  | here => exact met
  | step hparsed includes _ ih =>
      obtain ⟨room, content, hparsed⟩ := hparsed
      rcases key_mem_of_parsed hparsed includes with h | ⟨h, -⟩
      · exact ih h
      · exact absurd h (by simp)

/-- Files in a row from a root, last first, none of them twice. -/
inductive Trail (key : Path → List Path.Component) (includes : Path → Path → Prop) (root : Path) :
    List Path → Prop where
  | root : Trail key includes root [root]
  | step {p q : Path} {before : List Path} : Trail key includes root (p :: before) →
      includes p q → key q ∉ (p :: before).map key → Trail key includes root (q :: p :: before)

/-- If no trail is too long, what lies below the limit is met on the way there. -/
theorem key_mem_of_tooDeep {includes : Path → Path → Prop} {levels bound : Nat} {path q : Path}
    {before : List Path}
    (short : ∀ trail, Trail files.key includes root trail → trail.length ≤ bound)
    (sound : ∀ p q, session.Includes files reading p q → includes p q)
    (next : files.key path ∉ before.map files.key → Trail files.key includes root (path :: before))
    (seen : before.map files.key ⊆ session.keys) (length : before.length + levels = bound)
    (mem : .tooDeep q ∈ trace files reading levels session path) :
    files.key q ∈
      (session.performAll files reading (trace files reading levels session path)).keys := by
  induction levels generalizing session path before with
  | zero =>
      obtain rfl := Event.tooDeep.inj (List.mem_singleton.mp mem)
      -- Were the path new, it would end a trail longer than the bound.
      by_contra hfresh
      have htrail := next fun h => hfresh (keys_subset_performAll _ _ (seen h))
      have := short _ htrail
      rw [List.length_cons] at this
      omega
  | succ levels ih =>
      rcases mem_trace_succ mem with h | ⟨error, -, h⟩ | ⟨name, h⟩ |
        ⟨content, hread, hself, h | ⟨target, events, after, hincludes, hkey, hsplit, h⟩⟩
      · exact absurd h (by simp)
      · exact absurd h (by simp)
      · exact absurd h (by simp)
      · exact absurd h (by simp)
      · have hfresh : files.key path ∉ session.keys := by
          intro hseen
          rw [trace_known hseen] at hself
          exact absurd (List.mem_singleton.mp hself) (by simp)
        have htrail := next fun h => hfresh (seen h)
        rw [hsplit]
        refine keys_performAll_between _ _ _ _ (ih ?_ (.step htrail (sound _ _ hincludes)) ?_ ?_ h)
        · intro p q h
          exact sound p q ((includes_performAll _ _ _ _ _).mp h)
        · intro key hmem
          rcases List.mem_cons.mp hmem with rfl | hmem
          · exact hkey
          · exact keys_subset_performAll _ _ (seen hmem)
        · rw [List.length_cons]
          omega

/-- A first walk parses a file exactly if includes within the depth lead to it through files that the
walk itself parsed, by those paths, above the limit. Nothing is cut if no trail without a repeated
file is longer than the depth. -/
theorem parsed_iff_chain (around : Surroundings) (reading : Reading) (session : Session) (root : Path)
    (fresh : session.visited = []) (coherent : around.files.Coherent)
    (uncancelled : (session.walk around reading root).cancelled = false) :
    (session.walk around reading root).session =
      session.performAll around.files reading (session.walkEvents around.files reading root) ∧
    (∀ file, (∃ event ∈ session.walkEvents around.files reading root,
        ∃ path, event.parsed? = some path ∧ around.files.key path = file) ↔
      ∃ n ≤ session.maxDepth, ∃ path content,
        Chain around.files reading session
          (ParsedAbove (session.walkEvents around.files reading root)) n root path ∧
        around.files.read path = .ok content ∧ around.files.key path = file) ∧
    (session.Unaliased around.files reading root →
      (∀ trail, Trail around.files.key (session.Includes around.files reading) root trail →
        trail.length ≤ session.maxDepth + 1) →
      ∀ path content, session.Reaches around.files reading root path →
        around.files.read path = .ok content →
          ∃ event ∈ session.walkEvents around.files reading root,
            ∃ p, event.parsed? = some p ∧ around.files.key p = around.files.key path) := by
  have unseen : session.keys = [] := by rw [keys, fresh, List.map_nil]
  refine ⟨walk_session uncancelled, ?_, ?_⟩
  · intro file
    constructor
    · rintro ⟨event, hevent, path, hparsed, rfl⟩
      obtain ⟨room, content, rfl⟩ := Event.eq_of_parsed? hparsed
      obtain ⟨n, hn, hchain⟩ := chain_of_met hevent rfl
      exact ⟨n, Nat.le_of_lt_succ hn, path, content, hchain, read_of_parsed hevent, rfl⟩
    · rintro ⟨n, -, path, content, hchain, read, rfl⟩
      have hmem := key_mem_of_chain hchain (key_mem_keys_trace session.maxDepth session root)
      obtain ⟨p, room, hparsed, hkey⟩ := parsed_of_key_mem coherent unseen hchain.reaches read hmem
      exact ⟨_, hparsed, p, rfl, hkey⟩
  · intro unaliased short path content reaches read
    have passed : ∀ q, .tooDeep q ∈ session.walkEvents around.files reading root →
        around.files.key q ∈ (session.performAll around.files reading
          (session.walkEvents around.files reading root)).keys := by
      intro q hq
      refine key_mem_of_tooDeep short (fun _ _ h => h) (fun _ => .root) (by simp) ?_ hq
      exact Nat.zero_add _
    exact (parsed_iff_reaches coherent unseen unaliased passed _).mpr
      ⟨path, content, reaches, read, rfl⟩

/-- A header that is included twice, first from the header included before it. -/
def twice : FileTree :=
  .ofTexts [("root.h", "#include \"a.h\"\n#include \"x.h\"\n"), ("a.h", "#include \"x.h\"\n"),
    ("x.h", "#include \"y.h\"\n"), ("y.h", "#define Y 1\n")]

/-- A session for walks two includes deep. -/
def shallow : Session :=
  .start { Config.default with maxIncludeDepth := 2 } [] .start

theorem twice_included :
    shallow.included twice.view .byTokens ⟨"root.h"⟩ = [⟨"a.h"⟩, ⟨"x.h"⟩] ∧
      shallow.included twice.view .byTokens ⟨"x.h"⟩ = [⟨"y.h"⟩] := by
  decide +kernel

/-- Two includes lead to `y.h`, and a walk that goes two includes deep does not parse it. -/
theorem walk_misses_near :
    (shallow.walk ⟨twice.view, .never⟩ .byTokens ⟨"root.h"⟩).cancelled = false ∧
    Chain twice.view .byTokens shallow (fun _ => True) shallow.maxDepth ⟨"root.h"⟩ ⟨"y.h"⟩ ∧
    twice.view.read ⟨"y.h"⟩ = .ok "#define Y 1\n".toUTF8 ∧
    twice.view.key ⟨"y.h"⟩ ∉
      (shallow.walk ⟨twice.view, .never⟩ .byTokens ⟨"root.h"⟩).session.keys := by
  refine ⟨walk_never _ _ _ _, ?_, rfl, by decide +kernel⟩
  have toX : shallow.Includes twice.view .byTokens ⟨"root.h"⟩ ⟨"x.h"⟩ := by
    rw [includes_iff_mem, twice_included.1]
    simp
  have toY : shallow.Includes twice.view .byTokens ⟨"x.h"⟩ ⟨"y.h"⟩ := by
    rw [includes_iff_mem, twice_included.2]
    simp
  exact .step trivial toX (.step trivial toY .here)

/-- The walk parses `x.h`, which the root includes itself. -/
theorem parsed_iff_chain_twice :
    ∃ event ∈ shallow.walkEvents twice.view .byTokens ⟨"root.h"⟩,
      ∃ path, event.parsed? = some path ∧ twice.view.key path = twice.view.key ⟨"x.h"⟩ := by
  have root : ParsedAbove (shallow.walkEvents twice.view .byTokens ⟨"root.h"⟩) ⟨"root.h"⟩ := by
    refine ⟨1, "#include \"a.h\"\n#include \"x.h\"\n".toUTF8, ?_⟩
    have fresh : twice.view.key ⟨"root.h"⟩ ∉ shallow.keys := List.not_mem_nil
    have levels : shallow.maxDepth + 1 = 2 + 1 := rfl
    rw [walkEvents, levels, trace_parsed fresh rfl]
    exact List.mem_cons_self
  have toX : shallow.Includes twice.view .byTokens ⟨"root.h"⟩ ⟨"x.h"⟩ := by
    rw [includes_iff_mem, twice_included.1]
    simp
  obtain ⟨-, hparsed, -⟩ := parsed_iff_chain ⟨twice.view, .never⟩ .byTokens shallow ⟨"root.h"⟩
    rfl (FileTree.coherent_ofTexts _) (walk_never _ _ _ _)
  exact (hparsed _).mpr ⟨1, by decide, ⟨"x.h"⟩, "#include \"y.h\"\n".toUTF8,
    .step root toX .here, rfl, rfl⟩

end LibSurvey.Session
