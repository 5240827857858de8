import LibSurvey.Proofs.Distinct
import LibSurvey.Proofs.Text.Words
import LibSurvey.SearchPaths

/-!
Include flags as a package tool prints them, and the search list that is made of them. Whatever stands
between the flags, the directories of a text are those that were printed; a search list holds each
directory once, where it comes first. Which of them hold a header remains a separate obligation.
-/

namespace LibSurvey

/-- A part of what a package tool prints: an include directory that stands next to its flag, one that
follows it as a token of its own, or any other token. -/
inductive Flag where
  | attached (dir : List Char)
  | detached (dir : List Char)
  | other (token : List Char)

namespace Flag

def tokens : Flag → List (List Char)
  | .attached dir => ['-' :: 'I' :: dir]
  | .detached dir => [['-', 'I'], dir]
  | .other token => [token]

def dir? : Flag → Option Path
  | .attached dir => some ⟨String.ofList dir⟩
  | .detached dir => some ⟨String.ofList dir⟩
  | .other _ => none

/-- Nothing is empty or has a blank in it, and what is no flag does not begin like one. -/
inductive Formed : Flag → Prop where
  | attached {dir : List Char} :
      dir ≠ [] → dir.any Text.isBlank = false → Formed (.attached dir)
  | detached {dir : List Char} :
      dir ≠ [] → dir.any Text.isBlank = false → Formed (.detached dir)
  | other {token : List Char} :
      token ≠ [] → token.any Text.isBlank = false → ¬['-', 'I'] <+: token → Formed (.other token)

theorem Formed.solid {flag : Flag} (formed : flag.Formed) :
    ∀ token ∈ flag.tokens, token ≠ [] ∧ token.any Text.isBlank = false := by
  have hflag : ['-', 'I'].any Text.isBlank = false := by decide
  cases formed with
  | @attached dir _ solid =>
      have hattached : (['-', 'I'] ++ dir).any Text.isBlank = false := by
        rw [List.any_append, hflag, solid, Bool.or_false]
      exact List.forall_mem_singleton.mpr ⟨List.cons_ne_nil _ _, hattached⟩
  | detached nonempty solid =>
      exact List.forall_mem_cons.mpr
        ⟨⟨List.cons_ne_nil _ _, hflag⟩, List.forall_mem_singleton.mpr ⟨nonempty, solid⟩⟩
  | other nonempty solid _ => exact List.forall_mem_singleton.mpr ⟨nonempty, solid⟩

end Flag

namespace SearchPaths

variable {dir token : List Char} {flags : List Flag}

theorem flagged?_eq_none (h : ¬['-', 'I'] <+: token) : flagged? token = none := by
  unfold flagged?
  split
  next dir => exact absurd (List.prefix_append ['-', 'I'] dir) h
  · rfl

section Step

/-! One step of reading tokens, by what the first of them is. -/

theorem flaggedDirs_attached (nonempty : dir ≠ []) (rest : List (List Char)) :
    flaggedDirs (('-' :: 'I' :: dir) :: rest) = ⟨String.ofList dir⟩ :: flaggedDirs rest := by
  obtain ⟨c, dir, rfl⟩ := List.exists_cons_of_ne_nil nonempty
  cases rest <;> rfl

theorem flaggedDirs_detached (dir : List Char) (rest : List (List Char)) :
    flaggedDirs (['-', 'I'] :: dir :: rest) = ⟨String.ofList dir⟩ :: flaggedDirs rest := rfl

theorem flaggedDirs_other (h : ¬['-', 'I'] <+: token) (rest : List (List Char)) :
    flaggedDirs (token :: rest) = flaggedDirs rest := by
  cases rest with
  | nil => simp [flaggedDirs, flagged?_eq_none h]
  | cons next rest => rw [flaggedDirs, flagged?_eq_none h]

end Step

/-- The tokens of a flag are read in one step, so that reading stays in step with the flags. -/
theorem flaggedDirs_tokens {flag : Flag} (formed : flag.Formed) (rest : List (List Char)) :
    flaggedDirs (flag.tokens ++ rest) = flag.dir?.toList ++ flaggedDirs rest := by
  cases formed with
  | attached nonempty _ => exact flaggedDirs_attached nonempty rest
  | detached _ _ => exact flaggedDirs_detached _ rest
  | other _ _ plain => exact flaggedDirs_other plain rest

theorem flaggedDirs_flags (formed : ∀ flag ∈ flags, flag.Formed) (rest : List (List Char)) :
    flaggedDirs (flags.flatMap Flag.tokens ++ rest) =
      flags.filterMap Flag.dir? ++ flaggedDirs rest := by
  induction flags with
  | nil => rfl
  | cons flag flags ih =>
      rw [List.forall_mem_cons] at formed
      rw [List.flatMap_cons, List.append_assoc, flaggedDirs_tokens formed.1, ih formed.2]
      cases h : flag.dir? <;> simp [h]

/-- The directories of a text of flags, perhaps with a flag at its end that has no directory. -/
theorem ofFlags_eq (formed : ∀ flag ∈ flags, flag.Formed) {dangling : List (List Char)}
    (last : dangling = [] ∨ dangling = [['-', 'I']]) {text : String}
    (printed : Text.Separated (flags.flatMap Flag.tokens ++ dangling) text.toList) :
    ofFlags text = Path.distinct (flags.filterMap Flag.dir?) := by
  have hlast : flaggedDirs dangling = [] := by
    rcases last with rfl | rfl <;> rfl
  have solid : ∀ token ∈ flags.flatMap Flag.tokens ++ dangling,
      token ≠ [] ∧ token.any Text.isBlank = false := by
    intro token htoken
    rcases List.mem_append.mp htoken with htoken | htoken
    · obtain ⟨flag, hflag, htoken⟩ := List.mem_flatMap.mp htoken
      exact (formed flag hflag).solid token htoken
    · rcases last with rfl | rfl
      · cases htoken
      · rw [List.mem_singleton.mp htoken]
        decide
  rw [ofFlags, Text.words_separated printed solid, flaggedDirs_flags formed, hlast, List.append_nil]

theorem firsts_all (paths : SearchPaths) :
    Firsts Path.components (paths.extra ++ paths.tool ++ paths.system) paths.all :=
  Path.firsts_distinct _

/-- A search list is the same if its tool's directories were listed once each beforehand. -/
theorem all_distinct (extra tool system : List Path) :
    all ⟨extra, Path.distinct tool, system⟩ = all ⟨extra, tool, system⟩ := by
  simp only [all, Path.distinct_eq_foldl, List.foldl_append, foldl_keepNew_firsts]

/-- A search list holds the caller's directories first, then those of the tool that the caller did not
give, then those of convention that neither gave. -/
theorem all_eq_append (paths : SearchPaths) :
    ∃ reported conventional,
      paths.all = Path.distinct paths.extra ++ reported ++ conventional ∧
      (∀ dir ∈ reported, dir ∈ paths.tool ∧ ∀ other ∈ paths.extra, other.same dir = false) ∧
      ∀ dir ∈ conventional, dir ∈ paths.system ∧
        ∀ other ∈ paths.extra ++ paths.tool, other.same dir = false := by
  obtain ⟨reported, hreported, hfromTool⟩ :=
    foldl_keepNew_eq_append Path.components (Path.distinct paths.extra) paths.tool
  obtain ⟨conventional, hconventional, hfromSystem⟩ :=
    foldl_keepNew_eq_append Path.components (Path.distinct (paths.extra ++ paths.tool)) paths.system
  have hboth : Path.distinct (paths.extra ++ paths.tool) = Path.distinct paths.extra ++ reported := by
    rw [← hreported, Path.distinct_eq_foldl, List.foldl_append, ← Path.distinct_eq_foldl]
  have differs {given kept : List Path} (firsts : Firsts Path.components given kept) {dir : Path}
      (h : ∀ other ∈ kept, other.components ≠ dir.components) :
      ∀ other ∈ given, other.same dir = false := by
    intro other hother
    obtain ⟨first, hfirst, hkey⟩ := firsts.exists_same hother
    exact decide_eq_false fun heq => h first hfirst (hkey.trans heq)
  refine ⟨reported, conventional, ?_, ?_, ?_⟩
  · rw [all, Path.distinct_eq_foldl, List.foldl_append, ← Path.distinct_eq_foldl, hconventional, hboth]
  · exact fun dir hdir =>
      ⟨(hfromTool dir hdir).1, differs (Path.firsts_distinct _) (hfromTool dir hdir).2⟩
  · exact fun dir hdir =>
      ⟨(hfromSystem dir hdir).1, differs (Path.firsts_distinct _) (hfromSystem dir hdir).2⟩

/-- The directories of a text are those of the flags printed in it, each once, where it is printed first,
and a search list with them is the one with all that are printed. A search list holds every directory
once, where it comes first, those of the caller before those of the tool before those of convention. -/
theorem ofFlags_printed (flags : List Flag) (dangling : List (List Char)) (text : String)
    (formed : ∀ flag ∈ flags, flag.Formed) (last : dangling = [] ∨ dangling = [['-', 'I']])
    (printed : Text.Separated (flags.flatMap Flag.tokens ++ dangling) text.toList) :
    Firsts Path.components (flags.filterMap Flag.dir?) (ofFlags text) ∧
    (∀ extra system : List Path,
      all ⟨extra, ofFlags text, system⟩ = all ⟨extra, flags.filterMap Flag.dir?, system⟩) ∧
    ∀ paths : SearchPaths,
      Firsts Path.components (paths.extra ++ paths.tool ++ paths.system) paths.all ∧
      ∃ reported conventional,
        paths.all = Path.distinct paths.extra ++ reported ++ conventional ∧
        (∀ dir ∈ reported, dir ∈ paths.tool ∧ ∀ other ∈ paths.extra, other.same dir = false) ∧
        ∀ dir ∈ conventional, dir ∈ paths.system ∧
          ∀ other ∈ paths.extra ++ paths.tool, other.same dir = false := by
  have hdirs := ofFlags_eq formed last printed
  refine ⟨?_, fun extra system => ?_, fun paths => ⟨firsts_all paths, all_eq_append paths⟩⟩
  · rw [hdirs]
    exact Path.firsts_distinct _
  · rw [hdirs, all_distinct]

/-- A directory that looks like a flag, one that is printed twice in different ways, and a flag at the
end. -/
theorem ofFlags_printed_twice :
    Firsts Path.components [⟨"-Ia"⟩, ⟨"inc//b"⟩, ⟨"inc/b"⟩]
      (ofFlags "-I -Ia -DX -Iinc//b -I inc/b -I") ∧
    ofFlags "-I -Ia -DX -Iinc//b -I inc/b -I" = [⟨"-Ia"⟩, ⟨"inc//b"⟩] := by
  have formed : ∀ flag ∈ [.detached ['-', 'I', 'a'], .other ['-', 'D', 'X'],
      .attached ['i', 'n', 'c', '/', '/', 'b'], .detached ['i', 'n', 'c', '/', 'b']],
      Flag.Formed flag := by
    simp only [List.forall_mem_cons]
    refine ⟨.detached ?_ ?_, .other ?_ ?_ ?_, .attached ?_ ?_, .detached ?_ ?_, by simp⟩ <;> decide
  have printed := Text.separated_intercalate (show Text.Blanks [' '] by simp [Text.Blanks, Text.isBlank])
    (List.cons_ne_nil ' ' []) [['-', 'I'], ['-', 'I', 'a'], ['-', 'D', 'X'],
      ['-', 'I', 'i', 'n', 'c', '/', '/', 'b'], ['-', 'I'], ['i', 'n', 'c', '/', 'b'], ['-', 'I']]
  obtain ⟨firsts, -⟩ := ofFlags_printed _ [['-', 'I']] "-I -Ia -DX -Iinc//b -I inc/b -I" formed
    (.inr rfl) printed
  exact ⟨firsts, by decide +kernel⟩

end SearchPaths
end LibSurvey
