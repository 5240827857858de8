import LibSurvey.Proofs.Line.Joined
import LibSurvey.Proofs.Line.Lines
import LibSurvey.Proofs.Line.Parts
import LibSurvey.Proofs.Line.Reflow
import Mathlib.Data.List.Infix

/-!
Prototypes that go on for several lines. Lines are joined as long as a parenthesis stays open, so the
lines that a parameter list is wrapped onto are joined again, and what is read from them is what was
read from the one line.
-/

namespace LibSurvey.Line
open Text (Blanks PlainLine Reflow)

variable {annotations : Annotations}

/-- The lines of a text that are not blank, without the blanks around them. -/
def solidLines (text : List Char) : List (List Char) :=
  ((Text.splitAt (· = '\n') text).map Text.trim).filter (!·.isEmpty)

/-- No parenthesis is closed here that was not opened here. -/
def Unclosed (text : List Char) : Prop :=
  ∀ start, start <+: text → start.count ')' ≤ start.count '('

instance (text : List Char) : Decidable (Unclosed text) :=
  decidable_of_iff (∀ start ∈ text.inits, start.count ')' ≤ start.count '(')
    (forall_congr' fun start => by rw [List.mem_inits])

/-- Lines that leave a parenthesis open up to the last of them are read as one prototype. -/
theorem scan_open {rows : List (List Char)} (plain : ∀ row ∈ rows, PlainLine row)
    (bare : ∀ row ∈ rows, '#' ∉ row ∧ '\x7b' ∉ row)
    (solid : Text.trim (['\n'].intercalate rows) ≠ [])
    (room : ((rows.map Text.trim).filter (!·.isEmpty)).length ≤ maxJoined + 1)
    (stays : ∀ before row after, before ≠ [] → rows = before ++ row :: after →
      0 < balance (['\n'].intercalate before)) :
    scan annotations (['\n'].intercalate rows) =
      ((function? annotations (Text.trim (['\n'].intercalate rows))).map
        fun (name, signature) => Emission.function name signature).toList := by
  have hreflow := @Text.reflow_lines ' ' (by decide) rows
  rw [scan, logical_intercalate plain, function?_reflow hreflow]
  have hbare : ∀ line ∈ (rows.map Text.trim).filter (!·.isEmpty), '#' ∉ line ∧ '\x7b' ∉ line := by
    intro line hline
    obtain ⟨row, hrow, rfl⟩ := List.mem_map.mp (List.mem_of_mem_filter hline)
    have hpart : Text.trim row ⊆ row := by
      obtain ⟨before, after, -, -, htext⟩ := Text.exists_trim row
      exact fun c hc => htext ▸ List.mem_append_right _ (List.mem_append_left _ hc)
    exact ⟨fun h => (bare row hrow).1 (hpart h), fun h => (bare row hrow).2 (hpart h)⟩
  have hstays : ∀ init line tail, init ≠ [] →
      (rows.map Text.trim).filter (!·.isEmpty) = init ++ line :: tail →
      0 < balance ([' '].intercalate init) := by
    intro init line tail hinit hlines
    obtain ⟨first, second, hmap, hfirst, hsecond⟩ := List.filter_eq_append_iff.mp hlines
    obtain ⟨before, after, hrows, rfl, rfl⟩ := List.map_eq_append_iff.mp hmap
    cases after with
    | nil => simp at hsecond
    | cons row after =>
        have hbefore : before ≠ [] := by
          rintro rfl
          exact hinit hfirst.symm
        have hbalance := balance_reflow (@Text.reflow_lines ' ' (by decide) before)
        rw [hfirst, balance_trim] at hbalance
        rw [← hbalance]
        exact stays before row after hbefore hrows
  generalize (rows.map Text.trim).filter (!·.isEmpty) = lines at hreflow room hbare hstays
  cases lines with
  | nil => exact absurd (hreflow.eq_nil_iff.mpr rfl) solid
  | cons line rest =>
      obtain ⟨⟨hhash, hbrace⟩, hrest⟩ := List.forall_mem_cons.mp hbare
      have hdirective {line : List Char} (h : '#' ∉ line) : isDirective line = false :=
        decide_eq_false fun hhead => h (List.mem_of_mem_head? hhead)
      have hjoined := @joinOpen_all line maxJoined rest
        (by simpa using room) (fun next hnext => hdirective (hrest next hnext).1)
        fun init next tail hsplit => hstays (line :: init) next tail (by simp) (by simp [hsplit])
      rw [scanFrom, hdirective hhash, enumBody?_free hbrace, hjoined]
      cases hfound : function? annotations ([' '].intercalate (line :: rest)) <;> simp [scanFrom]

theorem Unclosed.reflow {a b : List Char} (ha : Unclosed a) (h : Reflow a b) : Unclosed b := by
  intro start hstart
  obtain ⟨start', hprefix, hcounts⟩ := h.counts hstart
  rw [← hcounts ')' (by decide), ← hcounts '(' (by decide)]
  exact ha start' hprefix

/-- A text that ends a line within the parentheses leaves one open. -/
theorem balance_within {before inside after start rest : List Char}
    (free : ∀ c ∈ before, c ≠ '(' ∧ c ≠ ')') (unclosed : Unclosed inside)
    (whole : '\n' ∉ before ∧ '\n' ∉ after)
    (h : before ++ '(' :: (inside ++ after) = start ++ '\n' :: rest) : 0 < balance start := by
  have hbefore : balance before = 0 := by
    rw [balance, List.count_eq_zero.mpr fun h => (free _ h).1 rfl,
      List.count_eq_zero.mpr fun h => (free _ h).2 rfl]
    rfl
  have hopen (text : List Char) (htext : text <+: inside) :
      0 < balance ((before ++ ['(']) ++ text) := by
    have hclosed := unclosed text htext
    have hparenthesis : balance ['('] = 1 := by decide
    rw [balance_append, balance_append, hbefore, hparenthesis, balance]
    omega
  rw [List.append_cons] at h
  rcases List.append_eq_append_iff.mp h with ⟨text, rfl, htext⟩ | ⟨text, hstart, htext⟩
  · rcases List.append_eq_append_iff.mp htext with ⟨more, rfl, hmore⟩ | ⟨more, rfl, -⟩
    · exact absurd (hmore ▸ by simp) whole.2
    · exact hopen text (List.prefix_append text more)
  · cases text with
    | nil =>
        rw [List.append_nil] at hstart
        rw [← hstart]
        simpa using hopen [] List.nil_prefix
    | cons c text =>
        obtain rfl : '\n' = c := (List.cons.inj htext).1
        have hline : '\n' ∈ before ++ ['('] := hstart ▸ by simp
        simp [whole.1] at hline

/-- What stands before the first parenthesis of a function has none of either kind. -/
theorem unopened_before {before rest : List Char} {name : String} {signature : Signature}
    (first : '(' ∉ before)
    (h : function? annotations (Text.trim (before ++ '(' :: rest)) = some (name, signature)) :
    ∀ c ∈ before, c ≠ '(' ∧ c ≠ ')' := by
  obtain ⟨shape, hshape, -, -⟩ := shape_of_function? h
  obtain ⟨words, inside, hleads, -⟩ := leads_of_shape? hshape
  obtain ⟨blanks, hblanks, hline⟩ := hleads.parts
  obtain ⟨front, back, hfront, -, htext⟩ := Text.exists_trim (before ++ '(' :: rest)
  have hblank {x : List Char} (hx : Blanks x) : ∀ c ∈ x, c ≠ '(' ∧ c ≠ ')' := fun c hc =>
    ⟨Text.ne_of_isBlank (hx c hc) (by decide), Text.ne_of_isBlank (hx c hc) (by decide)⟩
  have hfree : ∀ c ∈ front ++ (words ++ shape.name ++ blanks), c ≠ '(' ∧ c ≠ ')' := by
    intro c hc
    simp only [List.mem_append] at hc
    rcases hc with hc | hc | hc
    · exact hblank hfront c hc
    · exact hleads.unopened c (List.mem_append.mpr hc)
    · exact hblank hblanks c hc
  -- both cut the line at its first parenthesis
  have hopen {x : List Char} (hx : '(' ∉ x) (y : List Char) :
      (x ++ '(' :: y).takeWhile (· != '(') = x :=
    Text.takeWhile_front (fun c hc => bne_iff_ne.mpr fun h => hx (h ▸ hc)) (by simp)
  have hsame : before = front ++ (words ++ shape.name ++ blanks) := by
    rw [← hopen first rest, htext, hline]
    have := hopen (fun hc => (hfree _ hc).1 rfl) (inside ++ back)
    simpa using this
  exact hsame ▸ hfree

variable {before inside wrapped after : List Char}

/-- A prototype that is read from one line is read the same when the parameters between its
parentheses are wrapped onto some more lines. -/
theorem scan_wrapped {name : String} {signature : Signature}
    (plain : PlainLine (before ++ '(' :: (inside ++ after)))
    (bare : ∀ c ∈ before ++ '(' :: (inside ++ after), c ≠ '#' ∧ c ≠ '\x7b')
    (first : '(' ∉ before) (unclosed : Unclosed inside) (wraps : Reflow inside wrapped)
    (room : (solidLines (before ++ '(' :: (wrapped ++ after))).length ≤ maxJoined + 1)
    (found : scan annotations (before ++ '(' :: (inside ++ after)) = [.function name signature]) :
    scan annotations (before ++ '(' :: (wrapped ++ after)) = [.function name signature] := by
  have hreflow : Reflow (before ++ '(' :: (inside ++ after)) (before ++ '(' :: (wrapped ++ after)) :=
    (Reflow.refl before).append (.keep (wraps.append (.refl after)))
  have hsolid (rest : List Char) : Text.trim (before ++ '(' :: rest) ≠ [] := fun hnil =>
    absurd (Text.blanks_of_trim hnil '(' (by simp)) (by decide)
  have hline : function? annotations (Text.trim (before ++ '(' :: (inside ++ after))) =
      some (name, signature) := by
    have hscan := @scan_open annotations _ (List.forall_mem_singleton.mpr plain)
      (List.forall_mem_singleton.mpr ⟨fun h => (bare _ h).1 rfl, fun h => (bare _ h).2 rfl⟩)
      (by simpa using hsolid _) ?_ ?_
    · rw [List.intercalate_singleton, found] at hscan
      cases hfunction : function? annotations (Text.trim (before ++ '(' :: (inside ++ after))) with
      | none => rw [hfunction] at hscan; cases hscan
      | some declared => rw [hfunction] at hscan; cases hscan; rfl
    · exact (List.length_filter_le _ _).trans (by simp)
    · intro start row rest hstart hsplit
      obtain ⟨first, others, rfl⟩ := List.exists_cons_of_ne_nil hstart
      simp at hsplit
  have htext := Text.intercalate_splitAt '\n' (before ++ '(' :: (wrapped ++ after))
  have hrows : ∀ row ∈ Text.splitAt (· = '\n') (before ++ '(' :: (wrapped ++ after)),
      PlainLine row ∧ '#' ∉ row ∧ '\x7b' ∉ row := by
    intro row hrow
    have hpart : row <:+: before ++ '(' :: (wrapped ++ after) := htext ▸ Text.infix_intercalate hrow
    have hmem {c : Char} (hc : Text.isBlank c = false)
        (hnone : c ∉ before ++ '(' :: (inside ++ after)) : c ∉ row := fun h =>
      hnone ((hreflow.mem_iff hc).mpr (hpart.subset h))
    refine ⟨⟨?_, hmem (by decide) plain.unjoined, fun h => plain.noLine ?_,
      fun h => plain.noBlock ?_⟩, hmem (by decide) fun h => (bare _ h).1 rfl,
      hmem (by decide) fun h => (bare _ h).2 rfl⟩
    · exact fun hbreak => absurd (Text.mem_splitAt hrow '\n' hbreak) (by simp)
    · exact hreflow.pair (by decide) (by decide) (h.trans hpart)
    · exact hreflow.pair (by decide) (by decide) (h.trans hpart)
  have hfree := unopened_before first hline
  have hscan := @scan_open annotations _ (fun row hrow => (hrows row hrow).1)
    (fun row hrow => (hrows row hrow).2) (htext.symm ▸ hsolid _) room ?_
  · rwa [htext, ← function?_reflow hreflow.trim, hline] at hscan
  · intro start row rest hstart hsplit
    rw [hsplit, Text.intercalate_append_cons hstart] at htext
    refine balance_within hfree (unclosed.reflow wraps) ⟨fun h => plain.whole ?_,
      fun h => plain.whole ?_⟩ htext.symm
    all_goals simp [h]

theorem scan_wrapped_callback :
    let before := "extern int walk".toList
    let inside := "void *p,".toList ++ ([' '] ++
      ("int (*f)(int a,".toList ++ ([' '] ++ "int b)".toList)))
    let wrapped := "void *p,".toList ++ (['\n', '\n', ' '] ++
      ("int (*f)(int a,".toList ++ (['\n', '\t'] ++ "int b)".toList)))
    let after := ");".toList
    let signature : Signature :=
      ⟨"int", [⟨"void*", some "p"⟩, ⟨"int (*)(int a, int b)", some "f"⟩]⟩
    PlainLine (before ++ '(' :: (inside ++ after)) ∧
      (∀ c ∈ before ++ '(' :: (inside ++ after), c ≠ '#' ∧ c ≠ '\x7b') ∧
      '(' ∉ before ∧ Unclosed inside ∧ Reflow inside wrapped ∧
      (solidLines (before ++ '(' :: (wrapped ++ after))).length ≤ maxJoined + 1 ∧
      scan ⟨[]⟩ (before ++ '(' :: (inside ++ after)) = [.function "walk" signature] ∧
      scan ⟨[]⟩ (before ++ '(' :: (wrapped ++ after)) = [.function "walk" signature] := by
  intro before inside wrapped after signature
  have plain : PlainLine (before ++ '(' :: (inside ++ after)) :=
    ⟨by decide +kernel, by decide +kernel, by decide +kernel, by decide +kernel⟩
  have bare : ∀ c ∈ before ++ '(' :: (inside ++ after), c ≠ '#' ∧ c ≠ '\x7b' :=
    List.forall_iff_forall_mem.mp (by decide +kernel)
  have wraps : Reflow inside wrapped := by
    have hlater := (Reflow.refl "int (*f)(int a,".toList).append
      (.gap (x := [' ']) (y := ['\n', '\t']) (by simp [Blanks, Text.isBlank])
        (by simp [Blanks, Text.isBlank]) (by simp) (by simp) (.refl "int b)".toList))
    exact (Reflow.refl "void *p,".toList).append (.gap (x := [' ']) (y := ['\n', '\n', ' '])
      (by simp [Blanks, Text.isBlank]) (by simp [Blanks, Text.isBlank]) (by simp) (by simp) hlater)
  have first : '(' ∉ before := by decide +kernel
  have unclosed : Unclosed inside := by decide +kernel
  have room : (solidLines (before ++ '(' :: (wrapped ++ after))).length ≤ maxJoined + 1 := by
    decide +kernel
  have found : scan ⟨[]⟩ (before ++ '(' :: (inside ++ after)) = [.function "walk" signature] := by
    decide +kernel
  exact ⟨plain, bare, first, unclosed, wraps, room, found,
    scan_wrapped plain bare first unclosed wraps room found⟩

end LibSurvey.Line
