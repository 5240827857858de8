import LibSurvey.Proofs.Distinct
import LibSurvey.Proofs.FileTree
import LibSurvey.SearchPaths

/-!
Which header the search for a library gives. The headers that a library may have are tried one after
another, and for each of them the directories; so an earlier directory comes first for one and the same
header, but is passed over for a header that is tried before those it holds.
-/

namespace LibSurvey

namespace SearchPaths

open LibraryName (candidates)

variable {files : FileView} {library : String} {dirs : List Path} {candidate : Path}

/-- There is a file of this relative path in the directory. -/
def Holds (files : FileView) (dir candidate : Path) : Prop :=
  files.isFile (dir.join candidate) = true

/-- The first of the headers to try that any of the directories holds. -/
def Preferred (files : FileView) (library : String) (dirs : List Path) (candidate : Path) : Prop :=
  IsFirst (fun candidate => ∃ dir ∈ dirs, Holds files dir candidate) (candidates library) candidate

instance (files : FileView) (dir candidate : Path) : Decidable (Holds files dir candidate) :=
  inferInstanceAs (Decidable (_ = true))

theorem find?_join_eq_some_iff {header : Path} :
    (dirs.map (·.join candidate)).find? files.isFile = some header ↔
      ∃ dir, IsFirst (Holds files · candidate) dirs dir ∧ dir.join candidate = header := by
  rw [List.find?_map, Option.map_eq_some_iff]
  exact exists_congr fun dir => and_congr_left' isFirst_iff_find?.symm

theorem find?_join_eq_none_iff :
    (dirs.map (·.join candidate)).find? files.isFile = none ↔
      ¬∃ dir ∈ dirs, Holds files dir candidate := by
  simp [Holds]

theorem mainHeader?_eq_ok_iff {header : Path} :
    mainHeader? files library dirs = .ok header ↔
      ∃ candidate dir, Preferred files library dirs candidate ∧
        IsFirst (Holds files · candidate) dirs dir ∧ dir.join candidate = header := by
  have hfind : mainHeader? files library dirs = .ok header ↔
      (candidates library).findSome? (fun candidate =>
        (dirs.map (·.join candidate)).find? files.isFile) = some header := by
    unfold mainHeader?
    cases (candidates library).findSome? fun candidate =>
      (dirs.map (·.join candidate)).find? files.isFile <;> simp
  rw [hfind, List.findSome?_eq_some_iff]
  simp only [find?_join_eq_some_iff, find?_join_eq_none_iff]
  constructor
  · rintro ⟨before, candidate, after, hsplit, ⟨dir, hdir, rfl⟩, hbefore⟩
    exact ⟨candidate, dir, ⟨⟨dir, hdir.mem, hdir.1⟩, before, after, hsplit, hbefore⟩, hdir, rfl⟩
  · rintro ⟨candidate, dir, ⟨-, before, after, hsplit, hbefore⟩, hdir, rfl⟩
    exact ⟨before, candidate, after, hsplit, ⟨dir, hdir, rfl⟩, hbefore⟩

/-- A header is found exactly if some directory holds one that the library may have. -/
theorem exists_mainHeader?_iff :
    (∃ header, mainHeader? files library dirs = .ok header) ↔
      ∃ dir ∈ dirs, ∃ candidate ∈ candidates library, Holds files dir candidate := by
  simp only [mainHeader?_eq_ok_iff]
  constructor
  · rintro ⟨_, candidate, dir, preferred, hdir, -⟩
    exact ⟨dir, hdir.mem, candidate, preferred.mem, hdir.1⟩
  · rintro ⟨dir, hdir, candidate, tried, holds⟩
    obtain ⟨candidate, preferred⟩ := exists_isFirst
      (p := fun candidate => ∃ dir ∈ dirs, Holds files dir candidate) ⟨candidate, tried, dir, hdir, holds⟩
    obtain ⟨dir, hfirst⟩ := exists_isFirst preferred.1
    exact ⟨_, candidate, dir, preferred, hfirst, rfl⟩

/-- The header that is found is the first one to try that any directory holds, in the first directory
that holds it. The first directory that holds any header of the library gives it if it holds this one;
if not, it is passed over for a later one. -/
theorem mainHeader?_preferred (files : FileView) (library : String) (dirs : List Path) :
    ((∃ header, mainHeader? files library dirs = .ok header) ↔
      ∃ dir ∈ dirs, ∃ candidate ∈ candidates library, Holds files dir candidate) ∧
    (∀ header, mainHeader? files library dirs = .ok header ↔
      ∃ candidate dir, Preferred files library dirs candidate ∧
        IsFirst (Holds files · candidate) dirs dir ∧ dir.join candidate = header) ∧
    ∀ before first after candidate, dirs = before ++ first :: after →
      (∀ dir ∈ before, ∀ candidate ∈ candidates library, ¬Holds files dir candidate) →
      Preferred files library dirs candidate →
        (Holds files first candidate →
          mainHeader? files library dirs = .ok (first.join candidate)) ∧
        (¬Holds files first candidate →
          ∃ dir ∈ after, mainHeader? files library dirs = .ok (dir.join candidate)) := by
  refine ⟨exists_mainHeader?_iff, fun header => mainHeader?_eq_ok_iff, ?_⟩
  intro before first after candidate hsplit hbefore preferred
  have passed : ∀ dir ∈ before, ¬Holds files dir candidate :=
    fun dir hdir => hbefore dir hdir candidate preferred.mem
  have found {dir : Path} (h : IsFirst (Holds files · candidate) dirs dir) :
      mainHeader? files library dirs = .ok (dir.join candidate) :=
    mainHeader?_eq_ok_iff.mpr ⟨candidate, dir, preferred, h, rfl⟩
  constructor
  · intro holds
    exact found ⟨holds, before, after, hsplit, passed⟩
  · intro lacks
    obtain ⟨dir, hdir⟩ := exists_isFirst preferred.1
    have hmem : dir ∈ before ++ first :: after := hsplit ▸ hdir.mem
    rw [List.mem_append, List.mem_cons] at hmem
    rcases hmem with hmem | rfl | hmem
    · exact absurd hdir.1 (passed dir hmem)
    · exact absurd hdir.1 lacks
    · exact ⟨dir, hmem, found hdir⟩

/-- Two directories with a header of the same library each. -/
def parted : FileTree :=
  .ofTexts [("extra/foo/foo.h", ""), ("tool/foo.h", "")]

/-- The directory that holds the header to prefer gives it if it comes first, and also if it comes last. -/
theorem mainHeader?_preferred_parted :
    Preferred parted.view "foo" [⟨"tool"⟩, ⟨"extra"⟩] ⟨"foo.h"⟩ ∧
    mainHeader? parted.view "foo" [⟨"tool"⟩, ⟨"extra"⟩] = .ok ⟨"tool/foo.h"⟩ ∧
    Preferred parted.view "foo" [⟨"extra"⟩, ⟨"tool"⟩] ⟨"foo.h"⟩ ∧
    ∃ dir ∈ [(⟨"tool"⟩ : Path)],
      mainHeader? parted.view "foo" [⟨"extra"⟩, ⟨"tool"⟩] = .ok (dir.join ⟨"foo.h"⟩) := by
  have held : Holds parted.view ⟨"tool"⟩ ⟨"foo.h"⟩ := by decide +kernel
  have lacking : ¬Holds parted.view ⟨"extra"⟩ ⟨"foo.h"⟩ := by decide +kernel
  have first : candidates "foo" = ⟨"foo.h"⟩ :: (candidates "foo").tail := by decide +kernel
  have preferred (dirs : List Path) (h : ⟨"tool"⟩ ∈ dirs) :
      Preferred parted.view "foo" dirs ⟨"foo.h"⟩ :=
    ⟨⟨⟨"tool"⟩, h, held⟩, [], (candidates "foo").tail, first, by simp⟩
  have ahead := preferred [⟨"tool"⟩, ⟨"extra"⟩] (by simp)
  have behind := preferred [⟨"extra"⟩, ⟨"tool"⟩] (by simp)
  obtain ⟨-, -, hfirst⟩ := mainHeader?_preferred parted.view "foo" [⟨"tool"⟩, ⟨"extra"⟩]
  obtain ⟨-, -, hpassed⟩ := mainHeader?_preferred parted.view "foo" [⟨"extra"⟩, ⟨"tool"⟩]
  refine ⟨ahead, ?_, behind, ?_⟩
  · exact (hfirst [] ⟨"tool"⟩ [⟨"extra"⟩] ⟨"foo.h"⟩ rfl (by simp) ahead).1 held
  · exact (hpassed [] ⟨"extra"⟩ [⟨"tool"⟩] ⟨"foo.h"⟩ rfl (by simp) behind).2 lacking

/-- The first directory holds a header of the library, and the search gives one that is not there. -/
theorem first_passed_over :
    (∃ candidate ∈ candidates "foo", Holds parted.view ⟨"extra"⟩ candidate) ∧
    mainHeader? parted.view "foo" [⟨"extra"⟩, ⟨"tool"⟩] = .ok ⟨"tool/foo.h"⟩ ∧
    ∀ candidate ∈ candidates "foo", Path.join ⟨"extra"⟩ candidate ≠ ⟨"tool/foo.h"⟩ := by
  have tried : (⟨"foo/foo.h"⟩ : Path) ∈ candidates "foo" := by decide +kernel
  have held : Holds parted.view ⟨"extra"⟩ ⟨"foo/foo.h"⟩ := by decide +kernel
  exact ⟨⟨⟨"foo/foo.h"⟩, tried, held⟩, rfl, by decide +kernel⟩

end SearchPaths
end LibSurvey
