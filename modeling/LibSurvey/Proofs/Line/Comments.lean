import LibSurvey.Proofs.Line.Wrapped
import LibSurvey.Proofs.Token.Lexeme

/-!
Comments cut out of a text. Cut out line by line, with what is open handed on to the next line, they
leave the same lines as cut out of the whole text.
-/

namespace LibSurvey.Line
open Text (Blanks)
open Token (LineEnd)

/-- Where in a text a character stands. -/
inductive Place where
  | code
  | line
  | block
deriving DecidableEq, Repr

/-- A text without its comments. Of a block comment its line feeds stay, and a space where it
closes. -/
def bare : Place → List Char → List Char
  | _, [] => []
  | .code, '/' :: '/' :: rest => bare .line rest
  | .code, '/' :: '*' :: rest => bare .block rest
  | .code, c :: rest => c :: bare .code rest
  | .line, '\n' :: rest => '\n' :: bare .code rest
  | .line, _ :: rest => bare .line rest
  | .block, '*' :: '/' :: rest => ' ' :: bare .code rest
  | .block, '\n' :: rest => '\n' :: bare .block rest
  | .block, _ :: rest => bare .block rest

/-- Where the next line begins. -/
def place (inBlock : Bool) : Place :=
  if inBlock then .block else .code

theorem bare_nil (start : Place) : bare start [] = [] := by
  cases start <;> rfl

section Marks

variable (rest : List Char)

theorem bare_slashes : bare .code ('/' :: '/' :: rest) = bare .line rest := rfl

theorem bare_opening : bare .code ('/' :: '*' :: rest) = bare .block rest := rfl

theorem bare_closing : bare .block ('*' :: '/' :: rest) = ' ' :: bare .code rest := rfl

theorem bare_feed (inBlock : Bool) :
    bare (place inBlock) ('\n' :: rest) = '\n' :: bare (place inBlock) rest := by
  cases inBlock <;> rfl

end Marks

/-- A line comment takes the rest of its line. -/
theorem bare_lineComment {text rest : List Char} (whole : '\n' ∉ text) (hend : LineEnd rest) :
    bare .line (text ++ rest) = bare .code rest := by
  induction text with
  | nil =>
      cases rest with
      | nil => rfl
      | cons c rest =>
          obtain rfl : c = '\n' := hend c rfl
          rfl
  | cons c text ih =>
      rw [List.mem_cons, not_or] at whole
      rw [List.cons_append, bare, ih whole.2]
      exact fun h => whole.1 h.symm

theorem bare_code {c : Char} {rest : List Char}
    (uncommented : c = '/' → rest.head? ≠ some '/' ∧ rest.head? ≠ some '*') :
    bare .code (c :: rest) = c :: bare .code rest := by
  rw [bare]
  · rintro after rfl rfl
    exact (uncommented rfl).1 rfl
  · rintro after rfl rfl
    exact (uncommented rfl).2 rfl

theorem bare_block {c : Char} {rest : List Char} (hfeed : c ≠ '\n')
    (unclosed : c = '*' → rest.head? ≠ some '/') : bare .block (c :: rest) = bare .block rest := by
  rw [bare]
  · rintro after rfl rfl
    exact unclosed rfl rfl
  · exact hfeed

/-- What does not go on with a character within its line does not do so at the end of the line. -/
theorem head?_ne_of_lineEnd {text rest : List Char} {c : Char} (hfeed : c ≠ '\n')
    (hend : LineEnd rest) (h : ∀ more, text = c :: more → False) :
    (text ++ rest).head? ≠ some c := by
  cases text with
  | nil => exact fun hc => hfeed (hend c hc)
  | cons d text =>
      intro hc
      obtain rfl : d = c := by simpa using hc
      exact h text rfl

/-- Cut out of a line, comments leave what they leave of it in the text. -/
theorem bare_line {row rest : List Char} (whole : '\n' ∉ row) (hend : LineEnd rest) (inBlock : Bool)
    (seen : List Char) :
    seen.reverse ++ bare (place inBlock) (row ++ rest) =
      (uncomment inBlock seen row).1.reverse ++ bare (place (uncomment inBlock seen row).2) rest := by
  have code {inBlock : Bool} (h : ¬inBlock = true) : place inBlock = .code := if_neg h
  have block : place true = .block := rfl
  fun_induction uncomment inBlock seen row with
  | case1 => rfl
  | case2 seen row ih =>
      have hrow : '\n' ∉ row := fun h => whole (by simp [h])
      rw [← ih hrow, block, code Bool.false_ne_true, List.cons_append, List.cons_append,
        bare_closing]
      simp
  | case3 inBlock seen row hout ih =>
      -- outside a block, `*/` is two marks, and its slash may begin a comment
      rw [← ih fun h => whole (List.mem_cons_of_mem _ h), code hout, List.cons_append,
        bare_code (by simp)]
      simp
  | case4 seen row ih =>
      -- within one, the star after a slash may close it
      rw [← ih fun h => whole (List.mem_cons_of_mem _ h), block, List.cons_append,
        bare_block (by decide) (by simp)]
  | case5 inBlock seen row hout ih =>
      have hrow : '\n' ∉ row := fun h => whole (by simp [h])
      rw [← ih hrow, code hout, block, List.cons_append, List.cons_append, bare_opening]
  | case6 seen row ih =>
      rw [← ih fun h => whole (List.mem_cons_of_mem _ h), block, List.cons_append,
        bare_block (by decide) (by simp)]
  | case7 inBlock seen row hout =>
      -- a line comment ends where the line does, so nothing is open on the next one
      have hrow : '\n' ∉ row := fun h => whole (by simp [h])
      rw [code hout, List.cons_append, List.cons_append, bare_slashes, bare_lineComment hrow hend]
  | case8 inBlock seen c row hclose hblock hline ih =>
      obtain ⟨hc, hrow⟩ : c ≠ '\n' ∧ '\n' ∉ row := by
        rw [List.mem_cons, not_or] at whole
        exact ⟨Ne.symm whole.1, whole.2⟩
      rw [← ih hrow, List.cons_append]
      cases inBlock with
      | true =>
          rw [block, bare_block hc fun h =>
            head?_ne_of_lineEnd (by decide) hend fun more => hclose more h]
          rfl
      | false =>
          rw [code Bool.false_ne_true, bare_code fun h =>
            ⟨head?_ne_of_lineEnd (by decide) hend fun more => hline more h,
              head?_ne_of_lineEnd (by decide) hend fun more => hblock more h⟩]
          simp

theorem mem_bare {start : Place} {text : List Char} {c : Char} (h : c ∈ bare start text) :
    c = ' ' ∨ c ∈ text := by
  fun_induction bare start text <;> grind

theorem uncomment_reverse {row : List Char} (whole : '\n' ∉ row) (inBlock : Bool) :
    (uncomment inBlock [] row).1.reverse = bare (place inBlock) row := by
  have hend : LineEnd [] := by simp [LineEnd]
  have := bare_line whole hend inBlock []
  simpa [bare_nil] using this.symm

/-- A carriage return at the end of a line is left over or belongs to a comment. -/
theorem uncomment_return (inBlock : Bool) (seen row : List Char) :
    ∃ extra, Blanks extra ∧ uncomment inBlock seen (row ++ ['\r']) =
      (extra ++ (uncomment inBlock seen row).1, (uncomment inBlock seen row).2) := by
  have stays {row : List Char} {c : Char} (hc : c ≠ '\r') (h : ∀ more, row = c :: more → False) :
      ∀ more, row ++ ['\r'] = c :: more → False := by
    intro more hmore
    cases row with
    | nil => exact hc (List.cons.inj hmore).1.symm
    | cons d row => exact h row (by rw [(List.cons.inj hmore).1])
  have hnone : Blanks [] := by simp [Blanks]
  fun_induction uncomment inBlock seen row with
  | case1 inBlock seen =>
      cases inBlock with
      | true => exact ⟨[], hnone, by simp [uncomment]⟩
      | false => exact ⟨['\r'], by simp [Blanks, Text.isBlank], by simp [uncomment]⟩
  | case2 seen row ih => simpa [uncomment] using ih
  | case3 inBlock seen row hout ih => simpa [uncomment, hout] using ih
  | case4 seen row ih => simpa [uncomment] using ih
  | case5 inBlock seen row hout ih => simpa [uncomment, hout] using ih
  | case6 seen row ih => simpa [uncomment] using ih
  | case7 inBlock seen row hout => exact ⟨[], hnone, by simp [uncomment, hout]⟩
  | case8 inBlock seen c row hclose hblock hline ih =>
      rw [List.cons_append, uncomment]
      · exact ih
      · exact fun more h => stays (by decide) (fun more => hclose more h) more
      · exact fun more h => stays (by decide) (fun more => hblock more h) more
      · exact fun more h => stays (by decide) (fun more => hline more h) more

variable {row : List Char}

/-- A line that is not continued is a logical line of its own, without its comments. -/
theorem step_bare (whole : '\n' ∉ row) (noBackslash : '\\' ∉ row) (inBlock : Bool)
    (lines : List (List Char)) :
    Joining.step ⟨inBlock, [], lines⟩ row = ⟨(uncomment inBlock [] row).2, [],
      ([Text.trim (bare (place inBlock) row)].filter (!·.isEmpty)) ++ lines⟩ := by
  have hbare := uncomment_reverse whole inBlock
  have hfree : '\\' ∉ (uncomment inBlock [] row).1 := fun hc => by
    rw [← List.mem_reverse, hbare] at hc
    exact (mem_bare hc).elim (by decide) noBackslash
  rw [Joining.step]
  dsimp only
  split
  · rename_i before hbefore
    refine absurd (List.dropWhile_suffix Text.isBlank |>.subset ?_) hfree
    rw [hbefore]
    exact List.mem_cons_self
  · have hright : Text.trim ((uncomment inBlock [] row).1.dropWhile Text.isBlank).reverse =
        Text.trim (bare (place inBlock) row) := by
      rw [← hbare, ← Text.trim_trimRight (uncomment inBlock [] row).1.reverse, Text.trimRight,
        Text.dropLastWhile, List.reverse_reverse]
    rw [Joining.finish]
    simp only [List.nil_append, hright, List.filter_cons, List.filter_nil]
    split <;> simp_all

theorem step_dropReturn (state : Joining) (row : List Char) :
    Joining.step state (Text.dropReturn row) = Joining.step state row := by
  rw [Text.dropReturn]
  split
  · rename_i hlast
    obtain ⟨extra, hextra, hreturn⟩ := uncomment_return state.inBlock [] row.dropLast
    rw [List.dropLast_append_getLast? '\r' hlast] at hreturn
    have hdrop : (extra ++ (uncomment state.inBlock [] row.dropLast).1).dropWhile Text.isBlank =
        (uncomment state.inBlock [] row.dropLast).1.dropWhile Text.isBlank :=
      Text.trimLeft_blanks_append hextra _
    rw [Joining.step, Joining.step, hreturn]
    dsimp only
    rw [hdrop]
  · rfl

theorem not_mem_bare {start : Place} {text : List Char} (whole : '\n' ∉ text) :
    '\n' ∉ bare start text :=
  fun h => (mem_bare h).elim (by decide) whole

/-- The logical lines of lines that are not continued are those of the text without comments. -/
theorem foldl_bare {rows : List (List Char)}
    (plain : ∀ row ∈ rows, '\n' ∉ row ∧ '\\' ∉ row) (inBlock : Bool) (lines : List (List Char)) :
    ∃ inBlock', rows.foldl Joining.step ⟨inBlock, [], lines⟩ = ⟨inBlock', [],
      (solidLines (bare (place inBlock) (['\n'].intercalate rows))).reverse ++ lines⟩ := by
  induction rows generalizing inBlock lines with
  | nil => exact ⟨inBlock, by cases inBlock <;> rfl⟩
  | cons row rows ih =>
      obtain ⟨⟨whole, noBackslash⟩, hrows⟩ := List.forall_mem_cons.mp plain
      rw [List.foldl_cons, step_bare whole noBackslash]
      cases rows with
      | nil =>
          -- no line feed stands behind the last line
          refine ⟨(uncomment inBlock [] row).2, ?_⟩
          rw [List.foldl_nil, List.intercalate_singleton, solidLines,
            Text.splitAt_free (not_mem_bare whole)]
          simp only [List.map_cons, List.map_nil, List.filter_cons, List.filter_nil]
          split <;> rfl
      | cons next rows =>
          obtain ⟨inBlock', hfold⟩ := ih hrows (uncomment inBlock [] row).2
            ([Text.trim (bare (place inBlock) row)].filter (!·.isEmpty) ++ lines)
          refine ⟨inBlock', ?_⟩
          have hline := bare_line whole
            (show LineEnd ('\n' :: ['\n'].intercalate (next :: rows)) by simp [LineEnd]) inBlock []
          rw [hfold, List.intercalate_cons_cons, List.append_assoc, List.singleton_append]
          rw [List.reverse_nil, List.nil_append, uncomment_reverse whole, bare_feed] at hline
          rw [hline, solidLines, solidLines, Text.splitAt_append (not_mem_bare whole), List.map_cons,
            List.filter_cons, List.filter_cons]
          split <;> simp

/-- Without a backslash no line goes on in another, so the logical lines of a text are the lines of
what its comments leave of it. -/
theorem logical_bare {text : List Char} (noBackslash : '\\' ∉ text) :
    logical text = solidLines (bare .code text) := by
  have htext := Text.intercalate_splitAt '\n' text
  obtain ⟨init, last, hrows⟩ : ∃ init last, Text.splitAt (· = '\n') text = init ++ [last] := by
    rcases List.eq_nil_or_concat' (Text.splitAt (· = '\n') text) with hnil | ⟨init, last, hrows⟩
    · rw [hnil] at htext
      rw [← htext] at hnil
      cases hnil
    · exact ⟨init, last, hrows⟩
  have plain : ∀ row ∈ init ++ [last], '\n' ∉ row ∧ '\\' ∉ row := by
    intro row hrow
    rw [← hrows] at hrow
    have hpart : row <:+: text := htext ▸ Text.infix_intercalate hrow
    exact ⟨fun h => absurd (Text.mem_splitAt hrow '\n' h) (by simp),
      fun h => noBackslash (hpart.subset h)⟩
  -- an empty last line is no line, and would not be a logical one either
  have hlast (inBlock : Bool) (lines : List (List Char)) :
      (if last.isEmpty then [] else [last]).foldl Joining.step ⟨inBlock, [], lines⟩ =
        Joining.step ⟨inBlock, [], lines⟩ last := by
    split
    · rename_i hempty
      rw [List.isEmpty_iff.mp hempty]
      rfl
    · rfl
  obtain ⟨before, hbefore⟩ := foldl_bare (fun row hrow => plain row (List.mem_append_left _ hrow))
    false []
  obtain ⟨inBlock, hfold⟩ := foldl_bare plain false []
  have hstate : (Text.lines text).foldl Joining.step ⟨false, [], []⟩ =
      (init ++ [last]).foldl Joining.step ⟨false, [], []⟩ := by
    rw [Text.lines, hrows, List.reverse_append]
    simp only [List.reverse_singleton, List.singleton_append, List.map_reverse, List.reverse_reverse,
      List.foldl_append, List.foldl_map, step_dropReturn, List.foldl_cons, List.foldl_nil]
    rw [hbefore, hlast]
  rw [logical, hstate, hfold, ← hrows, htext, List.append_nil]
  exact List.reverse_reverse _

end LibSurvey.Line
