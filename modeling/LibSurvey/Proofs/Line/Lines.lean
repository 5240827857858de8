import LibSurvey.Header.Line.Scan
import LibSurvey.Proofs.Text.Lines
import Mathlib.Data.List.ReduceOption

/-!
Lines without comments and without a backslash, which are never joined: the logical lines of such a
text are its lines without the blanks around them, and blank lines count for nothing. Where each line
is passed over by itself, the text declares what its lines declare.
-/

namespace LibSurvey.Line
open Text (PlainLine Uncommented)

theorem uncomment_uncommented {line : List Char} (plain : Uncommented line) (seen : List Char) :
    uncomment false seen line = (line.reverse ++ seen, false) := by
  induction line generalizing seen with
  | nil => rfl
  | cons c rest ih =>
      have hrest := ih (plain.part (List.suffix_cons c rest).isInfix) (c :: seen)
      have hstep : uncomment false seen (c :: rest) = uncomment false (c :: seen) rest := by
        rw [uncomment.eq_def false seen (c :: rest)]
        split
        · rename_i h
          cases h
        · rename_i h
          cases h
          rfl
        · rename_i rest h
          cases h
          exact absurd (List.prefix_append ['/', '*'] rest).isInfix plain.noBlock
        · rename_i rest h
          cases h
          exact absurd (List.prefix_append ['/', '/'] rest).isInfix plain.noLine
        · rename_i h
          cases h
          rfl
      rw [hstep, hrest]
      simp

/-- A line without comments and without a backslash at its end is a logical line of its own, without
the blanks around it. -/
theorem step_whole {line : List Char} (plain : Uncommented line)
    (unjoined : (Text.trimRight line).getLast? ≠ some '\\') (lines : List (List Char)) :
    Joining.step ⟨false, [], lines⟩ line =
      ⟨false, [], if (Text.trim line).isEmpty then lines else Text.trim line :: lines⟩ := by
  have hend : line.reverse.dropWhile Text.isBlank = (Text.trimRight line).reverse := by
    simp [Text.trimRight, Text.dropLastWhile]
  rw [Joining.step, uncomment_uncommented plain, List.append_nil]
  simp only [hend]
  split
  · rename_i h
    refine absurd ?_ unjoined
    rw [← List.head?_reverse, h]
    rfl
  · simp [Joining.finish, Text.trim_trimRight]

theorem step_plain {line : List Char} (plain : PlainLine line) (lines : List (List Char)) :
    Joining.step ⟨false, [], lines⟩ line =
      ⟨false, [], if (Text.trim line).isEmpty then lines else Text.trim line :: lines⟩ := by
  refine step_whole plain.uncommented (fun h => plain.unjoined ?_) lines
  obtain ⟨blanks, -, hparts⟩ := Text.trimRight_append_end line
  rw [← hparts]
  exact List.mem_append_left _ (List.mem_of_getLast? h)

theorem foldl_plain {raws : List (List Char)} (plain : ∀ raw ∈ raws, PlainLine raw)
    (lines : List (List Char)) :
    raws.foldl Joining.step ⟨false, [], lines⟩ =
      ⟨false, [], ((raws.map Text.trim).filter (!·.isEmpty)).reverse ++ lines⟩ := by
  induction raws generalizing lines with
  | nil => rfl
  | cons raw raws ih =>
      rw [List.foldl_cons, step_plain (plain raw List.mem_cons_self),
        ih fun r hr => plain r (List.mem_cons_of_mem raw hr), List.map_cons, List.filter_cons]
      split <;> rename_i h <;> simp [h]

theorem logical_intercalate {lines : List (List Char)} (plain : ∀ line ∈ lines, PlainLine line) :
    logical (['\n'].intercalate lines) = (lines.map Text.trim).filter (!·.isEmpty) := by
  rcases List.eq_nil_or_concat' lines with rfl | ⟨init, last, rfl⟩
  · rfl
  have hraws : ∀ raw ∈ init.map Text.dropReturn ++ (if last.isEmpty then [] else [last]),
      PlainLine raw := by
    intro raw hraw
    rcases List.mem_append.mp hraw with h | h
    · obtain ⟨line, hline, rfl⟩ := List.mem_map.mp h
      obtain ⟨blanks, -, hparts⟩ := Text.dropReturn_append_end line
      exact (plain line (List.mem_append_left _ hline)).part ⟨[], blanks, hparts⟩
    · split at h
      · exact absurd h (by simp)
      · rw [List.mem_singleton.mp h]
        exact plain last (by simp)
  have htrim : ((init.map Text.dropReturn).map Text.trim) = init.map Text.trim := by
    rw [List.map_map]
    exact List.map_congr_left fun line _ => Text.trim_dropReturn line
  have hlast : ((if last.isEmpty then [] else [last]).map Text.trim).filter (!·.isEmpty) =
      [Text.trim last].filter (!·.isEmpty) := by
    cases last with
    | nil => rfl
    | cons c last => simp
  rw [logical, Text.lines_intercalate fun line hline => (plain line hline).whole,
    foldl_plain hraws, List.map_append, htrim, List.filter_append, hlast, ← List.filter_append]
  simp [Joining.finish, Text.trim, Text.trimLeft, Text.trimRight, Text.dropLastWhile]

/-- A text of one line that is not blank. -/
theorem logical_whole {line : List Char} (plain : Uncommented line)
    (unjoined : (Text.trimRight line).getLast? ≠ some '\\') (nonblank : Text.trim line ≠ []) :
    logical line = [Text.trim line] := by
  have nonempty : line ≠ [] := by
    rintro rfl
    exact nonblank rfl
  have hlines : Text.lines line = [line] := by
    have hfree : ∀ part ∈ [] ++ [line], '\n' ∉ part := by simpa using plain.whole
    simpa [nonempty] using Text.lines_intercalate hfree
  rw [logical, hlines, List.foldl_cons, List.foldl_nil, step_whole plain unjoined,
    if_neg (by simpa using nonblank)]
  rfl

variable {annotations : Annotations}

/-- A plain line that declares this, whatever lines follow. -/
structure Declares (annotations : Annotations) (line : List Char) (found : Option Emission) :
    Prop where
  plain : PlainLine line
  blank : Text.trim line = [] → found = none
  step : Text.trim line ≠ [] → ∀ emissions rest,
    scanFrom annotations emissions (Text.trim line :: rest) =
      scanFrom annotations (found.toList ++ emissions) rest

theorem scan_lines {lines : List (List Char)} {found : List (Option Emission)}
    (h : List.Forall₂ (Declares annotations) lines found) :
    scan annotations (['\n'].intercalate lines) = found.reduceOption := by
  have run (emissions : List Emission) :
      scanFrom annotations emissions ((lines.map Text.trim).filter (!·.isEmpty)) =
        emissions.reverse ++ found.reduceOption := by
    induction h generalizing emissions with
    | nil => simp [scanFrom]
    | @cons line first lines others hline _ ih =>
        rw [List.map_cons, List.filter_cons]
        by_cases hblank : Text.trim line = []
        · simp [hblank, hline.blank hblank, List.reduceOption_cons_of_none, ih]
        · rw [if_pos (by simpa using hblank), hline.step hblank, ih]
          cases first with
          | none => simp [List.reduceOption_cons_of_none]
          | some emission => simp [List.reduceOption_cons_of_some]
  have plain : ∀ line ∈ lines, PlainLine line := by
    clear run
    induction h with
    | nil => simp
    | cons hline _ ih => simpa using ⟨hline.plain, ih⟩
  rw [scan, logical_intercalate plain, run]
  rfl

end LibSurvey.Line
