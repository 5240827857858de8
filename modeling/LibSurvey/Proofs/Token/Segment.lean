import LibSurvey.Proofs.Token.Printed

/-!
A text as the lexer cuts it: the tokens with all that stands between them. Without comments and
directives nothing of the text is lost or changed, and no token reaches into what follows it.
-/

namespace LibSurvey.Token

/-- A part of a text: what leaves no token, or a token as it was read. -/
inductive Segment where
  | gap (text : List Char)
  | token (kind : Kind) (text : List Char)
deriving DecidableEq, Repr

namespace Segment

def text : Segment → List Char
  | .gap text | .token _ text => text

def lexeme? : Segment → Option Lexeme
  | .gap _ => none
  | .token kind text => some ⟨kind, String.ofList text⟩

/-- Neither a comment nor a directive. -/
def Plain : Segment → Prop
  | .gap text => text.head? ≠ some '/'
  | .token kind _ => kind ≠ .directive

instance : DecidablePred Plain := fun segment =>
  match segment with
  | .gap text => inferInstanceAs (Decidable (text.head? ≠ some '/'))
  | .token kind _ => inferInstanceAs (Decidable (kind ≠ .directive))

end Segment

/-- The segments of what is left of a text, as far as it can be read. -/
def segmentsFrom (start : Bool) (line : Nat) : List Char → List Segment
  | [] => []
  | c :: rest =>
    match h : front? start line c rest with
    | .error _ => []
    | .ok (.lineEnd, after) => .gap [c] :: segmentsFrom true (line + 1) after
    | .ok (.gap next, after) =>
      .gap ((c :: rest).take (rest.length + 1 - after.length)) :: segmentsFrom start next after
    | .ok (.token kind text next, after) =>
      .token kind text :: segmentsFrom (kind = .directive) next after
termination_by cs => cs.length
decreasing_by
  all_goals have := length_front h; simp only [List.length_cons] at *; omega

def segments (text : List Char) : List Segment :=
  segmentsFrom true 1 text

/-- The segments after one front, whatever it left. -/
theorem segmentsFrom_front {start : Bool} {line : Nat} {c : Char} {rest : List Char} :
    segmentsFrom start line (c :: rest) =
      match front? start line c rest with
      | .error _ => []
      | .ok (.lineEnd, after) => .gap [c] :: segmentsFrom true (line + 1) after
      | .ok (.gap next, after) =>
        .gap ((c :: rest).take (rest.length + 1 - after.length)) :: segmentsFrom start next after
      | .ok (.token kind text next, after) =>
        .token kind text :: segmentsFrom (kind = .directive) next after := by
  rw [segmentsFrom]
  split <;> simp only [*]

/-- The tokens of a text are those of its segments. -/
theorem lexemes_of_scan {start : Bool} {line count : Nat} {before found : List Token}
    {text : List Char} (h : scan start line count before text = .ok found) :
    ∃ more, found = before.reverse ++ more ∧
      (segmentsFrom start line text).filterMap Segment.lexeme? = more.map lexeme := by
  fun_induction scan start line count before text with
  | case1 => exact ⟨[], by simpa using (Except.ok.inj h).symm, by simp [segmentsFrom]⟩
  | case2 => cases h
  | case3 _ _ _ _ _ _ _ hfront ih =>
      rw [segmentsFrom_front, hfront]
      exact ih h
  | case4 _ _ _ _ _ _ _ _ hfront ih =>
      rw [segmentsFrom_front, hfront]
      exact ih h
  | case5 _ line _ before _ _ kind text _ _ hfront _ ih =>
      obtain ⟨more, hfound, hmore⟩ := ih h
      rw [segmentsFrom_front, hfront]
      refine ⟨⟨kind, String.ofList text, line⟩ :: more, by simpa using hfound, ?_⟩
      exact congrArg (_ :: ·) hmore
  | case6 => cases h

theorem lexemes_segments {text : List Char} {tokens : List Token}
    (h : ofChars? text = .ok tokens) :
    (segments text).filterMap Segment.lexeme? = tokens.map lexeme := by
  obtain ⟨more, rfl, hmore⟩ := lexemes_of_scan h
  exact hmore

/-- A character that belongs to no name stands at the end of one text or at the front of the next. -/
def Parted (text rest : List Char) : Prop :=
  (∀ c ∈ text.getLast?, isNameChar c = false) ∨ ∀ c ∈ rest.head?, isNameChar c = false

/-- A gap is blank or joins two lines; of the tokens, only a word is made of the characters of names,
and only a number or a literal may hold some. -/
def Segment.Regular : Segment → Prop
  | .gap text => (∀ c ∈ text, Text.isBlank c = true) ∨ text = ['\\', '\n']
  | .token .punctuation text => ∀ c ∈ text, isNameChar c = false
  | .token .word text => isName text = true
  | .token _ _ => True

/-- Segments that make up a text, each parted from what follows it. -/
inductive Segmented : List Segment → List Char → Prop where
  | nil : Segmented [] []
  | cons {segment : Segment} {segments : List Segment} {rest : List Char} :
      segment.Regular → Parted segment.text rest → Segmented segments rest →
      Segmented (segment :: segments) (segment.text ++ rest)

theorem isNameChar_of_isBlank {c : Char} (h : Text.isBlank c = true) : isNameChar c = false :=
  Bool.eq_false_iff.mpr fun hname => by
    rw [isBlank_of_isNameChar hname] at h
    exact Bool.noConfusion h

theorem free_of_gap {text : List Char} (h : (Segment.gap text).Regular) :
    ∀ c ∈ text, isNameChar c = false := by
  rcases h with h | rfl
  · exact fun c hc => isNameChar_of_isBlank (h c hc)
  · simp only [List.forall_mem_cons, List.not_mem_nil, false_imp_iff, implies_true, and_true]
    decide

theorem parted_of_free {text : List Char} (h : ∀ c ∈ text, isNameChar c = false)
    (rest : List Char) : Parted text rest :=
  .inl fun c hc => h c (List.mem_of_getLast? hc)

/-- What a text ends with is parted from the rest if the text is. -/
theorem Parted.of_append {a b rest : List Char} (h : Parted (a ++ b) rest) : Parted b rest := by
  refine h.imp_left fun hlast c hc => hlast c ?_
  rw [List.getLast?_append, hc]
  rfl

/-- The front of what follows a text parts it from the rest. -/
theorem Parted.front {text a b : List Char} (h : Parted text (a ++ b)) : Parted text a := by
  refine h.imp_right fun hhead c hc => hhead c ?_
  cases a with
  | nil => cases hc
  | cons d a => exact hc

/-- A text of characters of names is parted from the rest by what follows. -/
theorem Parted.stops {text rest : List Char} (h : Parted text rest) (nonempty : text ≠ [])
    (inside : ∀ c ∈ text, isNameChar c = true) : ∀ c ∈ rest.head?, isNameChar c = false := by
  refine h.resolve_left fun hlast => ?_
  have hc := hlast _ (List.getLast?_eq_some_getLast nonempty)
  rw [inside _ (List.getLast_mem nonempty)] at hc
  exact Bool.noConfusion hc

/-- What was read of a quoted literal ends with its quote. -/
theorem quoted?_parts {quote : Char} {line : Nat} {seen cs : List Char} {part : Part}
    (h : quoted? quote line seen cs = some part) :
    part.text.getLast? = some quote ∧ seen.reverse ++ cs = part.text ++ part.rest := by
  fun_induction quoted? quote line seen cs with
  | case1 | case2 => cases h
  | case3 _ _ _ _ ih => simpa using ih h
  | case4 => cases h; simp
  | case5 => cases h
  | case6 _ _ _ _ _ _ _ _ ih => simpa using ih h

theorem punct_parts (c : Char) (rest : List Char) :
    c :: rest = (punct c rest).1 ++ (punct c rest).2 ∧
      ∀ d ∈ (punct c rest).1, d = c ∨ d ∈ ['.', '#', '<', '>', ':'] := by
  unfold punct
  split <;> simp

theorem dropWhile_stops (p : Char → Bool) (cs : List Char) :
    ∀ c ∈ (cs.dropWhile p).head?, p c = false := by
  intro c hc
  have hhead := List.head?_dropWhile_not p cs
  rw [hc] at hhead
  exact hhead

theorem isNameChar_of_begins_nothing {c : Char} {rest : List Char}
    (hstart : ¬isNameStart c = true) (hnumber : ¬startsNumber c rest = true) :
    isNameChar c = false := by
  simp only [isNameStart, Bool.or_eq_true, not_or] at hstart
  simp only [startsNumber, Bool.or_eq_true, not_or] at hnumber
  simp [isNameChar, Char.isAlphanum, hstart, hnumber]

/-- No name goes on within a mark. -/
theorem isNameChar_of_mem_punct {c : Char} (h : isNameChar c = false) (rest : List Char) :
    ∀ d ∈ (punct c rest).1, isNameChar d = false := by
  intro d hd
  rcases (punct_parts c rest).2 d hd with rfl | hd
  · exact h
  · simp only [List.mem_cons, List.not_mem_nil, or_false] at hd
    rcases hd with rfl | rfl | rfl | rfl | rfl <;> decide

/-- What a front is to the text that it was read from, if it is plain. -/
def Front.Reads (c : Char) (rest after : List Char) : Front → Prop
  | .lineEnd => c = '\n' ∧ after = rest
  | .gap _ => c ≠ '/' → ∃ gap, c :: rest = gap ++ after ∧ (Segment.gap gap).Regular
  | .token kind text _ => kind ≠ .directive →
    c :: rest = text ++ after ∧ (Segment.token kind text).Regular ∧ Parted text after

theorem reads_front {start : Bool} {line : Nat} {c : Char} {rest : List Char}
    {found : Front × List Char} (h : front? start line c rest = .ok found) :
    found.1.Reads c rest found.2 := by
  revert h
  unfold front?
  repeat' refine iteInduction (motive := fun read : Except Fault (Front × List Char) =>
    read = .ok found → found.1.Reads c rest found.2) (fun is => ?_) (fun isNot => ?_)
  · rintro ⟨⟩
    exact ⟨is, rfl⟩
  · rintro ⟨⟩ -
    exact ⟨[c], rfl, .inl (by simpa using is)⟩
  · rintro ⟨⟩ -
    simp only [Bool.and_eq_true, decide_eq_true_eq] at is
    obtain ⟨rfl, hfeed⟩ := is
    obtain ⟨after, rfl⟩ := List.head?_eq_some_iff.mp hfeed
    exact ⟨['\\', '\n'], rfl, .inr rfl⟩
  · rintro ⟨⟩ hslash
    simp only [Bool.and_eq_true, decide_eq_true_eq] at is
    exact absurd is.1 hslash
  · cases hafter : afterComment? line rest.tail with
    | none => nofun
    | some after =>
      rintro ⟨⟩ hslash
      simp only [Bool.and_eq_true, decide_eq_true_eq] at is
      exact absurd is.1 hslash
  · cases hpart : directive? line [] rest with
    | error fault => nofun
    | ok part =>
      rintro ⟨⟩ hkind
      exact absurd rfl hkind
  · cases hpart : quoted? c line [c] rest with
    | none => nofun
    | some part =>
      rintro ⟨⟩ -
      obtain ⟨hlast, hparts⟩ := quoted?_parts hpart
      refine ⟨hparts, ?_, .inl ?_⟩
      · split <;> trivial
      · rw [hlast]
        rintro d ⟨⟩
        simp only [Bool.or_eq_true, decide_eq_true_eq] at is
        rcases is with rfl | rfl <;> decide
  · rintro ⟨⟩ -
    refine ⟨by simp, ?_, .inr (dropWhile_stops isNameChar rest)⟩
    rw [Segment.Regular, isName, is, Bool.true_and]
    exact List.all_takeWhile
  · rintro ⟨⟩ -
    refine ⟨by simp, trivial, .inr fun d hd => ?_⟩
    exact Lexeme.isNameChar_of_not_isNumberChar (dropWhile_stops isNumberChar rest d hd)
  · rintro ⟨⟩ -
    rename_i notStart
    have hfree := isNameChar_of_mem_punct (isNameChar_of_begins_nothing notStart isNot) rest
    exact ⟨(punct_parts c rest).1, hfree, parted_of_free hfree _⟩

/-- What a gap leaves out is the part of the text before what follows it. -/
theorem take_front {c : Char} {rest gap after : List Char} (h : c :: rest = gap ++ after) :
    (c :: rest).take (rest.length + 1 - after.length) = gap := by
  have hlength : rest.length + 1 = gap.length + after.length := by
    simpa using congrArg List.length h
  rw [h, hlength, Nat.add_sub_cancel]
  exact List.take_left

/-- A plain text that was read is made up of its segments. -/
theorem segmented_of_scan {start : Bool} {line count : Nat} {before found : List Token}
    {text : List Char} (h : scan start line count before text = .ok found)
    (plain : ∀ segment ∈ segmentsFrom start line text, segment.Plain) :
    Segmented (segmentsFrom start line text) text := by
  fun_induction scan start line count before text with
  | case1 => simpa [segmentsFrom] using Segmented.nil
  | case2 => cases h
  | case3 _ _ _ _ c rest _ hfront ih =>
      obtain ⟨rfl, rfl⟩ := reads_front hfront
      rw [segmentsFrom_front, hfront] at plain ⊢
      have regular : (Segment.gap ['\n']).Regular := .inl (by simp [Text.isBlank])
      exact .cons regular (parted_of_free (free_of_gap regular) _)
        (ih h fun segment hmem => plain segment (List.mem_cons_of_mem _ hmem))
  | case4 start _ _ _ c rest next after hfront ih =>
      have hlength : after.length ≤ rest.length := length_front hfront
      rw [segmentsFrom_front, hfront] at plain ⊢
      have hplain := plain _ List.mem_cons_self
      have hslash : c ≠ '/' := by
        rw [Nat.succ_sub hlength] at hplain
        rintro rfl
        exact hplain rfl
      obtain ⟨gap, hparts, regular⟩ := reads_front hfront hslash
      simp only [take_front hparts]
      rw [hparts]
      exact .cons regular (parted_of_free (free_of_gap regular) _)
        (ih h fun segment hmem => plain segment (List.mem_cons_of_mem _ hmem))
  | case5 _ _ _ _ c rest kind text _ after hfront _ ih =>
      rw [segmentsFrom_front, hfront] at plain ⊢
      obtain ⟨hparts, regular, parted⟩ := reads_front hfront (plain _ List.mem_cons_self)
      rw [hparts]
      exact .cons regular parted
        (ih h fun segment hmem => plain segment (List.mem_cons_of_mem _ hmem))
  | case6 => cases h

theorem segmented_segments {text : List Char} {tokens : List Token}
    (h : ofChars? text = .ok tokens) (plain : ∀ segment ∈ segments text, segment.Plain) :
    Segmented (segments text) text :=
  segmented_of_scan h plain

theorem regular_of_segmented {segments : List Segment} {text : List Char}
    (h : Segmented segments text) : ∀ segment ∈ segments, segment.Regular := by
  induction h with
  | nil => nofun
  | cons regular _ _ ih => exact List.forall_mem_cons.mpr ⟨regular, ih⟩

theorem flatMap_of_segmented {segments : List Segment} {text : List Char}
    (h : Segmented segments text) : segments.flatMap Segment.text = text := by
  induction h with
  | nil => rfl
  | cons _ _ _ ih => rw [List.flatMap_cons, ih]

end LibSurvey.Token
