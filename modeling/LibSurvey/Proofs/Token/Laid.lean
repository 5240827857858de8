import LibSurvey.Proofs.Text.Lines
import LibSurvey.Proofs.Token.Segment

/-!
Lines as their tokens lie on them. On a line without comments only blanks stand between the tokens,
and the end of a word parts it from what follows.
-/

namespace LibSurvey.Token
open Lexeme (Gap)
open Text (Uncommented)

/-- A text within a line that is made of these lexemes, each parted from what follows it. -/
inductive Laid : List Lexeme → List Char → Prop where
  | nil {gap : List Char} : Gap gap → Laid [] gap
  | cons {gap : List Char} {lexeme : Lexeme} {lexemes : List Lexeme} {rest : List Char} :
      Gap gap → Parted lexeme.text.toList rest → Laid lexemes rest →
      Laid (lexeme :: lexemes) (gap ++ (lexeme.text.toList ++ rest))

/-- A slash that leaves no token begins a comment. -/
theorem front?_slash {start : Bool} {line next : Nat} {rest after : List Char}
    (h : front? start line '/' rest = .ok (.gap next, after)) :
    rest.head? = some '/' ∨ rest.head? = some '*' := by
  by_contra hnone
  rw [not_or] at hnone
  simp [front?, Text.isBlank, hnone, isNameStart, startsNumber] at h

theorem slash_of_gap {start : Bool} {line next : Nat} {c : Char} {rest after : List Char}
    (h : front? start line c rest = .ok (.gap next, after)) (uncommented : Uncommented (c :: rest)) :
    c ≠ '/' := by
  rintro rfl
  have mark {d : Char} (hd : rest.head? = some d) : ['/', d] <:+: '/' :: rest := by
    obtain ⟨more, rfl⟩ := List.head?_eq_some_iff.mp hd
    exact (List.prefix_append ['/', d] more).isInfix
  rcases front?_slash h with hd | hd
  · exact uncommented.noLine (mark hd)
  · exact uncommented.noBlock (mark hd)

theorem plain_of_scan {start : Bool} {line count : Nat} {before found : List Token}
    {text : List Char} (h : scan start line count before text = .ok found)
    (uncommented : Uncommented text)
    (kinds : ∀ kind part, .token kind part ∈ segmentsFrom start line text → kind ≠ .directive) :
    ∀ segment ∈ segmentsFrom start line text, segment.Plain := by
  fun_induction scan start line count before text with
  | case1 => simp [segmentsFrom]
  | case2 => cases h
  | case3 _ _ _ _ c rest _ hfront ih =>
      obtain ⟨rfl, rfl⟩ := reads_front hfront
      rw [segmentsFrom_front, hfront] at kinds ⊢
      refine List.forall_mem_cons.mpr ⟨by simp [Segment.Plain], ?_⟩
      exact ih h (uncommented.part (List.suffix_cons _ _).isInfix)
        fun kind part hmem => kinds kind part (List.mem_cons_of_mem _ hmem)
  | case4 _ _ _ _ c rest _ after hfront ih =>
      have hslash := slash_of_gap hfront uncommented
      obtain ⟨gap, hparts, -⟩ := reads_front hfront hslash
      have hafter : after <:+: c :: rest := hparts ▸ (List.suffix_append gap after).isInfix
      have hlength : after.length ≤ rest.length := length_front hfront
      rw [segmentsFrom_front, hfront] at kinds ⊢
      refine List.forall_mem_cons.mpr ⟨?_, ?_⟩
      · rw [Nat.succ_sub hlength]
        simpa [Segment.Plain] using hslash
      · exact ih h (uncommented.part hafter)
          fun kind part hmem => kinds kind part (List.mem_cons_of_mem _ hmem)
  | case5 _ _ _ _ c rest kind text _ after hfront _ ih =>
      rw [segmentsFrom_front, hfront] at kinds ⊢
      have hkind := kinds kind text List.mem_cons_self
      obtain ⟨hparts, -, -⟩ := reads_front hfront hkind
      have hafter : after <:+: c :: rest := hparts ▸ (List.suffix_append text after).isInfix
      refine List.forall_mem_cons.mpr ⟨hkind, ?_⟩
      exact ih h (uncommented.part hafter)
        fun kind part hmem => kinds kind part (List.mem_cons_of_mem _ hmem)
  | case6 => cases h

theorem laid_gap {lexemes : List Lexeme} {gap text : List Char} (hgap : Gap gap)
    (h : Laid lexemes text) : Laid lexemes (gap ++ text) := by
  cases h with
  | nil hrest => exact .nil (Lexeme.gap_append hgap hrest)
  | cons hbefore parted hrest =>
      rw [← List.append_assoc]
      exact .cons (Lexeme.gap_append hgap hbefore) parted hrest

theorem laid_of_segmented {segments : List Segment} {text : List Char}
    (h : Segmented segments text) (whole : '\n' ∉ text) :
    Laid (segments.filterMap Segment.lexeme?) text := by
  induction h with
  | nil => exact .nil Lexeme.gap_nil
  | @cons segment segments rest regular parted _ ih =>
      rw [List.mem_append, not_or] at whole
      cases segment with
      | gap gap =>
          have blanks : Gap gap := by
            rcases regular with h | rfl
            · exact fun c hc => ⟨h c hc, fun heq => whole.1 (heq ▸ hc)⟩
            · exact absurd (show '\n' ∈ ['\\', '\n'] by decide) whole.1
          exact laid_gap blanks (ih whole.2)
      | token kind text =>
          have htext : (Segment.token kind text).text = (String.ofList text).toList := by
            rw [String.toList_ofList]
            rfl
          rw [htext] at parted ⊢
          exact .cons Lexeme.gap_nil parted (ih whole.2)

/-- A line without comments and directives is made of the lexemes that are read from it. -/
theorem laid_of_ofChars? {text : List Char} {tokens : List Token}
    (read : ofChars? text = .ok tokens) (uncommented : Uncommented text)
    (kinds : ∀ token ∈ tokens, token.kind ≠ .directive) : Laid (tokens.map lexeme) text := by
  have hlexemes := lexemes_segments read
  have plain : ∀ segment ∈ segments text, segment.Plain := by
    refine plain_of_scan read uncommented fun kind part hmem => ?_
    have hlexeme : (⟨kind, String.ofList part⟩ : Lexeme) ∈ tokens.map lexeme := by
      rw [← hlexemes]
      exact List.mem_filterMap.mpr ⟨_, hmem, rfl⟩
    obtain ⟨token, htoken, heq⟩ := List.mem_map.mp hlexeme
    have hkind := kinds token htoken
    rwa [show token.kind = kind from congrArg Lexeme.kind heq] at hkind
  rw [← hlexemes]
  exact laid_of_segmented (segmented_segments read plain) uncommented.whole

theorem spaced_of_laid {lexemes : List Lexeme} {text : List Char} (h : Laid lexemes text) :
    Text.Spaced (lexemes.map fun lexeme => lexeme.text.toList) text := by
  induction h with
  | nil hgap => exact .nil fun c hc => (hgap c hc).1
  | cons hgap _ _ ih => exact .cons (fun c hc => (hgap c hc).1) ih

/-- A text divides at any of its lexemes. -/
theorem laid_cons_split {a b : List Lexeme} {lexeme : Lexeme} {text : List Char}
    (h : Laid (a ++ lexeme :: b) text) :
    ∃ x y, text = x ++ (lexeme.text.toList ++ y) ∧ Laid a x ∧ Laid b y := by
  induction a generalizing text with
  | nil =>
      cases h with
      | cons hgap _ hrest => exact ⟨_, _, rfl, .nil hgap, hrest⟩
  | cons first a ih =>
      cases h with
      | @cons gap _ _ rest hgap parted hrest =>
          obtain ⟨x, y, rfl, hx, hy⟩ := ih hrest
          refine ⟨gap ++ (first.text.toList ++ x), y, by simp only [List.append_assoc], ?_, hy⟩
          exact .cons hgap parted.front hx

theorem mem_of_laid {lexemes : List Lexeme} {text : List Char} (h : Laid lexemes text)
    {lexeme : Lexeme} (hlexeme : lexeme ∈ lexemes) {c : Char} (hc : c ∈ lexeme.text.toList) :
    c ∈ text := by
  obtain ⟨a, b, rfl⟩ := List.append_of_mem hlexeme
  obtain ⟨x, y, rfl, -, -⟩ := laid_cons_split h
  simp [hc]

theorem laid_intercalate_split {α : Type} {lexemes : α → List Lexeme} {mark : Lexeme}
    {items : List α} {text : List Char} (nonempty : items ≠ [])
    (h : Laid ([mark].intercalate (items.map lexemes)) text) :
    ∃ texts, List.Forall₂ (fun item x => Laid (lexemes item) x) items texts ∧
      text = mark.text.toList.intercalate texts :=
  Text.intercalate_split laid_cons_split nonempty h

/-- Where no name goes on, a gap stands before the next word. -/
theorem laid_word {name : String} {lexemes : List Lexeme} {text : List Char}
    (hname : isName name.toList = true) (h : Laid (.word name :: lexemes) text)
    (stops : ∀ c ∈ text.head?, isNameChar c = false) :
    ∃ gap rest, text = gap ++ (name.toList ++ rest) ∧ gap ≠ [] ∧ Gap gap ∧
      (∀ c ∈ rest.head?, isNameChar c = false) ∧ Laid lexemes rest := by
  have inside : ∀ c ∈ name.toList, isNameChar c = true := fun _ => isNameChar_of_isName hname
  have nonempty : name.toList ≠ [] := by
    intro hnil
    rw [hnil] at hname
    cases hname
  cases h with
  | @cons gap _ _ rest hgap parted hrest =>
      refine ⟨gap, rest, rfl, ?_, hgap, parted.stops nonempty inside, hrest⟩
      rintro rfl
      obtain ⟨c, more, hparts⟩ := List.exists_cons_of_ne_nil nonempty
      have hstops := stops c (by simp [Lexeme.word, hparts])
      rw [inside c (by simp [hparts])] at hstops
      cases hstops

/-- Words and marks on a line are written on it. -/
theorem written_of_laid {lexemes : List Lexeme} {text : List Char} (h : Laid lexemes text)
    (formed : ∀ lexeme ∈ lexemes, lexeme.Formed ∧ lexeme.kind ≠ .number) :
    Lexeme.Written lexemes text := by
  induction h with
  | nil hgap => exact .nil hgap
  | @cons _ lexeme _ rest hgap parted _ ih =>
      obtain ⟨⟨hformed, hkind⟩, hrest⟩ := List.forall_mem_cons.mp formed
      refine .cons hgap hformed ?_ (ih hrest)
      cases hformed with
      | word hname =>
          exact parted.stops (tight_of_isName hname).nonempty fun _ => isNameChar_of_isName hname
      | number _ => exact absurd rfl hkind
      | mark _ => trivial

theorem laid_trimRight {lexemes : List Lexeme} {text : List Char}
    (tight : ∀ lexeme ∈ lexemes, Text.Tight lexeme.text.toList) (h : Laid lexemes text) :
    Laid lexemes (Text.trimRight text) := by
  induction h with
  | nil hgap =>
      have hempty := Text.trimRight_append_blanks (fun c hc => (hgap c hc).1) []
      rw [List.nil_append] at hempty
      rw [hempty]
      exact .nil Lexeme.gap_nil
  | @cons gap lexeme _ rest hgap parted _ ih =>
      obtain ⟨hlexeme, hrest⟩ := List.forall_mem_cons.mp tight
      obtain ⟨blanks, -, hparts⟩ := Text.trimRight_append_end rest
      rw [← List.append_assoc, Text.trimRight_append hlexeme, List.append_assoc]
      exact .cons hgap (hparts.symm ▸ parted).front (ih hrest)

/-- Trimming a line keeps its lexemes. -/
theorem laid_trim {lexemes : List Lexeme} {text : List Char}
    (tight : ∀ lexeme ∈ lexemes, Text.Tight lexeme.text.toList) (h : Laid lexemes text) :
    Laid lexemes (Text.trim text) := by
  refine laid_trimRight tight ?_
  cases h with
  | nil hgap =>
      rw [Text.trimLeft_blanks fun c hc => (hgap c hc).1]
      exact .nil Lexeme.gap_nil
  | cons hgap parted hrest =>
      rw [Text.trimLeft_blanks_append fun c hc => (hgap c hc).1,
        Text.trimLeft_tight_append (tight _ List.mem_cons_self)]
      exact .cons Lexeme.gap_nil parted hrest

end LibSurvey.Token
