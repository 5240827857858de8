import LibSurvey.Constant.Evaluate
import LibSurvey.Proofs.Token.Segment
import Mathlib.Algebra.Order.BigOperators.Group.List
import Mathlib.Algebra.Order.Group.Nat
import Mathlib.Data.List.TakeWhile

/-!
What a call puts in the place of a macro's parameters. The substitution has its own notion of a word,
which begins at any letter; where it is also the lexer's, a parameter is replaced as a whole token
and only there.
-/

namespace LibSurvey.Expression
open Token (Kind Parted Segment Segmented segments)

variable {params : List String} {arguments : List (List Char)}

/-- The words of a text as the substitution finds them. After a digit a word may begin as well. -/
def wordsIn : List Char → List (List Char)
  | [] => []
  | c :: rest =>
    if isNameStart c then (c :: rest.takeWhile isNameChar) :: wordsIn (rest.dropWhile isNameChar)
    else wordsIn rest
termination_by cs => cs.length
decreasing_by
  · have := (List.dropWhile_suffix (l := rest) isNameChar).length_le
    simp only [List.length_cons]
    omega
  · simp

theorem argumentFor_nil : argumentFor params arguments [] = [] := rfl

theorem substituteFrom_done (word done cs : List Char) :
    substituteFrom params arguments word done cs =
      done.reverse ++ substituteFrom params arguments word [] cs := by
  induction cs generalizing word done with
  | nil => simp [substituteFrom]
  | cons c rest ih =>
      simp only [substituteFrom]
      split
      · exact ih (c :: word) done
      · rw [ih, ih [] (c :: (_ ++ []))]
        simp

theorem substitute_nil : substitute [] params arguments = [] := rfl

theorem substitute_other {c : Char} (h : ¬isNameStart c = true) (rest : List Char) :
    substitute (c :: rest) params arguments = c :: substitute rest params arguments := by
  rw [substitute, substituteFrom, if_neg (by simpa using h), substituteFrom_done]
  simp [argumentFor_nil, substitute]

/-- A word goes on to the end of the characters of names. -/
theorem substituteFrom_word {word : List Char} (h : word ≠ []) (cs : List Char) :
    substituteFrom params arguments word [] cs =
      argumentFor params arguments (word.reverse ++ cs.takeWhile isNameChar) ++
        substitute (cs.dropWhile isNameChar) params arguments := by
  have hempty : word.isEmpty = false := by simpa using h
  induction cs generalizing word with
  | nil => simp [substituteFrom, substitute_nil]
  | cons c rest ih =>
      by_cases hc : isNameChar c = true
      · rw [substituteFrom, if_pos (by simp [hempty, hc]), ih (List.cons_ne_nil c word) rfl]
        simp [hc]
      · have hstart : ¬isNameStart c = true := mt isNameChar_of_isNameStart hc
        rw [substituteFrom, if_neg (by simp [hstart, hc]), substituteFrom_done]
        rw [List.dropWhile_cons_of_neg hc, substitute_other hstart]
        simp [hc, substitute]

theorem substitute_word {c : Char} (h : isNameStart c = true) (rest : List Char) :
    substitute (c :: rest) params arguments =
      argumentFor params arguments (c :: rest.takeWhile isNameChar) ++
        substitute (rest.dropWhile isNameChar) params arguments := by
  rw [substitute, substituteFrom, if_pos (by simp [h]),
    substituteFrom_word (List.cons_ne_nil c [])]
  simp

theorem substitute_name {name : List Char} (h : isName name = true) :
    substitute name params arguments = argumentFor params arguments name := by
  cases name with
  | nil => rfl
  | cons c rest =>
      rw [isName, Bool.and_eq_true, List.all_eq_true] at h
      rw [substitute_word h.1, List.takeWhile_eq_self_iff.mpr h.2, List.dropWhile_eq_nil_iff.mpr h.2,
        substitute_nil, List.append_nil]

/-- Between two texts that are parted no word goes on. -/
theorem substitute_append {a b : List Char} (parted : Parted a b) :
    substitute (a ++ b) params arguments =
      substitute a params arguments ++ substitute b params arguments := by
  fun_induction wordsIn a with
  | case1 => rfl
  | case2 c rest hstart ih =>
      -- What is left of the first text after the word stops it, and if nothing is left, the second.
      have stop : ∀ d ∈ (rest.dropWhile isNameChar ++ b).head?, isNameChar d = false := by
        cases hafter : rest.dropWhile isNameChar with
        | nil =>
            refine parted.stops (List.cons_ne_nil c rest) (List.forall_mem_cons.mpr
              ⟨isNameChar_of_isNameStart hstart, ?_⟩)
            rw [← List.takeWhile_append_dropWhile (p := isNameChar) (l := rest), hafter,
              List.append_nil]
            exact List.all_eq_true.mp List.all_takeWhile
        | cons d after =>
            have hstops := Token.dropWhile_stops isNameChar rest
            rwa [hafter] at hstops
      have hword : ∀ d ∈ rest.takeWhile isNameChar, isNameChar d = true :=
        List.all_eq_true.mp List.all_takeWhile
      have hparts : rest.takeWhile isNameChar ++ (rest.dropWhile isNameChar ++ b) = rest ++ b := by
        rw [← List.append_assoc, List.takeWhile_append_dropWhile]
      have hrest : Parted (rest.dropWhile isNameChar) b := by
        refine Parted.of_append (a := c :: rest.takeWhile isNameChar) ?_
        rwa [List.cons_append, List.takeWhile_append_dropWhile]
      rw [List.cons_append, substitute_word hstart, substitute_word hstart, ← hparts,
        Text.takeWhile_front hword stop, Text.dropWhile_front hword stop, ih hrest,
        List.append_assoc]
  | case3 c rest hother ih =>
      have hrest : Parted rest b := Parted.of_append (a := [c]) parted
      rw [List.cons_append, substitute_other hother, substitute_other hother, ih hrest,
        List.cons_append]

/-- The argument of a parameter; any other word stands for itself. -/
def filled (params : List String) (arguments : List (List Char)) (word : List Char) : List Char :=
  match params.idxOf? (String.ofList word) with
  | some i => arguments.getD i word
  | none => word

theorem argumentFor_eq_filled (h : arguments.length = params.length) {word : List Char}
    (nonempty : word ≠ []) : argumentFor params arguments word = filled params arguments word := by
  rw [argumentFor, if_neg (by simpa using nonempty), filled]
  induction params generalizing arguments with
  | nil => rfl
  | cons param params ih =>
      cases arguments with
      | nil => cases h
      | cons argument arguments =>
          have hrest := ih (Nat.succ.inj h)
          rw [List.zip_cons_cons, List.lookup_cons, List.idxOf?_cons]
          by_cases hparam : String.ofList word = param
          · simp [hparam]
          · have hother : ¬param = String.ofList word := Ne.symm hparam
            simp only [beq_eq_false_iff_ne.mpr hparam, beq_eq_false_iff_ne.mpr hother, hrest,
              Bool.false_eq_true, if_false]
            cases params.idxOf? (String.ofList word) <;> rfl

theorem filled_of_not_mem {word : List Char} (h : String.ofList word ∉ params) :
    filled params arguments word = word := by
  rw [filled, List.idxOf?_eq_none_iff.mpr h]

/-- Without a parameter among its words a text stays as it is. -/
theorem substitute_eq_self {text : List Char}
    (h : ∀ word ∈ wordsIn text, String.ofList word ∉ params)
    (hlength : arguments.length = params.length) : substitute text params arguments = text := by
  fun_induction wordsIn text with
  | case1 => rfl
  | case2 c rest hstart ih =>
      rw [List.forall_mem_cons] at h
      rw [substitute_word hstart, argumentFor_eq_filled hlength (List.cons_ne_nil _ _),
        filled_of_not_mem h.1, ih h.2, List.cons_append, List.takeWhile_append_dropWhile]
  | case3 c rest hother ih => rw [substitute_other hother, ih h]

/-- Every parameter with one more character at its end. -/
def lengthened (params : List String) : List (List Char) :=
  params.map fun param => param.toList ++ ['_']

theorem length_lengthened : (lengthened params).length = params.length :=
  List.length_map _

theorem filled_lengthened {word : List Char} (h : String.ofList word ∈ params) :
    filled params (lengthened params) word = word ++ ['_'] := by
  obtain ⟨i, hi⟩ := Option.isSome_iff_exists.mp (List.isSome_idxOf?.mpr h)
  obtain ⟨hlt, hparam, -⟩ := List.idxOf?_eq_some_iff.mp hi
  simp [filled, hi, lengthened, List.getD_eq_getElem?_getD, List.getElem?_eq_getElem hlt, hparam]

/-- Lengthened, a text grows by one character for each of its words that is a parameter. -/
theorem length_substitute_lengthened (text : List Char) :
    (substitute text params (lengthened params)).length =
      text.length + (wordsIn text).countP (fun word => String.ofList word ∈ params) := by
  fun_induction wordsIn text with
  | case1 => rfl
  | case2 c rest hstart ih =>
      have hparts : (rest.takeWhile isNameChar).length + (rest.dropWhile isNameChar).length =
          rest.length := by
        rw [← List.length_append, List.takeWhile_append_dropWhile]
      rw [substitute_word hstart, argumentFor_eq_filled length_lengthened (List.cons_ne_nil _ _),
        List.length_append, ih, List.countP_cons]
      by_cases hparam : String.ofList (c :: rest.takeWhile isNameChar) ∈ params
      · rw [filled_lengthened hparam, if_pos (by simpa using hparam)]
        simp only [List.length_append, List.length_cons, List.length_nil]
        omega
      · rw [filled_of_not_mem hparam, if_neg (by simpa using hparam)]
        simp only [List.length_cons]
        omega
  | case3 c rest hother ih =>
      rw [substitute_other hother, List.length_cons, List.length_cons, ih]
      omega

/-- A segment with the arguments in it: a word that is a parameter gives way to its argument, anything
else stays. -/
def filledSegment (params : List String) (arguments : List (List Char)) : Segment → List Char
  | .token .word text => filled params arguments text
  | segment => segment.text

/-- No word, but with a parameter among the words that the substitution finds in it. -/
def Hides (params : List String) : Segment → Prop
  | .token .word _ => False
  | segment => ∃ word ∈ wordsIn segment.text, String.ofList word ∈ params

instance : DecidablePred (Hides params) := fun segment =>
  match segment with
  | .token .word _ => inferInstanceAs (Decidable False)
  | .gap text | .token .number text | .token .string text | .token .character text
  | .token .punctuation text | .token .directive text =>
    inferInstanceAs (Decidable (∃ word ∈ wordsIn text, String.ofList word ∈ params))

/-- The parts of a text are substituted each on its own. -/
theorem substitute_segmented {segments : List Segment} {text : List Char}
    (h : Segmented segments text) :
    substitute text params arguments =
      segments.flatMap fun segment => substitute segment.text params arguments := by
  induction h with
  | nil => rfl
  | cons _ parted _ ih => rw [substitute_append parted, ih, List.flatMap_cons]

theorem substitute_word_segment (hlength : arguments.length = params.length) {text : List Char}
    (regular : (Segment.token .word text).Regular) :
    substitute text params arguments = filled params arguments text := by
  have hname : isName text = true := regular
  have nonempty : text ≠ [] := by
    rintro rfl
    exact Bool.noConfusion hname
  rw [substitute_name hname, argumentFor_eq_filled hlength nonempty]

theorem substitute_segment (hlength : arguments.length = params.length) {segment : Segment}
    (regular : segment.Regular) (h : ¬Hides params segment) :
    substitute segment.text params arguments = filledSegment params arguments segment := by
  cases segment with
  | gap text => exact substitute_eq_self (by simpa [Hides] using h) hlength
  | token kind text =>
      cases kind with
      | word => exact substitute_word_segment hlength regular
      | number | string | character | punctuation | directive =>
          exact substitute_eq_self (by simpa [Hides] using h) hlength

theorem length_of_hides {segment : Segment} (h : Hides params segment) :
    (filledSegment params (lengthened params) segment).length <
      (substitute segment.text params (lengthened params)).length := by
  have hides (text : List Char) (h : ∃ word ∈ wordsIn text, String.ofList word ∈ params) :
      text.length < (substitute text params (lengthened params)).length := by
    rw [length_substitute_lengthened]
    exact Nat.lt_add_of_pos_right (List.countP_pos_iff.mpr (by simpa using h))
  cases segment with
  | gap text => exact hides text h
  | token kind text =>
      cases kind with
      | word => exact h.elim
      | number | string | character | punctuation | directive => exact hides text h

/-- The parameters are replaced by whole tokens, whatever the arguments are, exactly where nothing
but a word holds one. -/
theorem substitute_segmented_iff {segments : List Segment} {text : List Char}
    (h : Segmented segments text) :
    (∀ arguments : List (List Char), arguments.length = params.length →
      substitute text params arguments = segments.flatMap (filledSegment params arguments)) ↔
      ∀ segment ∈ segments, ¬Hides params segment := by
  have regular := Token.regular_of_segmented h
  refine ⟨fun whole segment hmem hides => ?_, fun free arguments hlength => ?_⟩
  · -- Lengthened parameters make a text longer wherever one is replaced.
    have hlonger : (segments.map fun segment =>
        (filledSegment params (lengthened params) segment).length).sum <
        (segments.map fun segment =>
          (substitute segment.text params (lengthened params)).length).sum := by
      refine List.sum_lt_sum _ _ (fun other hother => ?_) ⟨segment, hmem, length_of_hides hides⟩
      by_cases hhides : Hides params other
      · exact Nat.le_of_lt (length_of_hides hhides)
      · rw [substitute_segment length_lengthened (regular other hother) hhides]
    have hsame := congrArg List.length (whole (lengthened params) length_lengthened)
    rw [substitute_segmented h, List.length_flatMap, List.length_flatMap] at hsame
    exact absurd hsame (Nat.ne_of_gt hlonger)
  · rw [substitute_segmented h]
    refine List.flatMap_congr fun segment hmem => ?_
    exact substitute_segment hlength (regular segment hmem) (free segment hmem)

/-- In a body that is read as tokens without comments, each segment is substituted on its own, and
one that hides no parameter as a whole token. All arguments stand for the tokens that are parameters,
and for nothing else, if and only if no segment hides one. -/
theorem substitute_segments {body : List Char} {tokens : List Token}
    (read : Token.ofChars? body = .ok tokens) (plain : ∀ segment ∈ segments body, segment.Plain)
    (params : List String) :
    (segments body).filterMap Segment.lexeme? = tokens.map Token.lexeme ∧
      (segments body).flatMap Segment.text = body ∧
      (∀ arguments : List (List Char), arguments.length = params.length →
        (substitute body params arguments =
          (segments body).flatMap fun segment => substitute segment.text params arguments) ∧
        ∀ segment ∈ segments body, ¬Hides params segment →
          substitute segment.text params arguments = filledSegment params arguments segment) ∧
      ((∀ arguments : List (List Char), arguments.length = params.length →
        substitute body params arguments =
          (segments body).flatMap (filledSegment params arguments)) ↔
        ∀ segment ∈ segments body, ¬Hides params segment) := by
  have parts := Token.segmented_segments read plain
  refine ⟨Token.lexemes_segments read, Token.flatMap_of_segmented parts,
    fun arguments hlength => ⟨substitute_segmented parts, fun segment hmem free => ?_⟩,
    substitute_segmented_iff parts⟩
  exact substitute_segment hlength (Token.regular_of_segmented parts segment hmem) free

/-- A number keeps its letters where they are no parameter. -/
theorem substitute_segments_hexadecimal :
    let body := "(0x1fu << x) | x_1".toList
    (∃ tokens, Token.ofChars? body = .ok tokens) ∧ (∀ segment ∈ segments body, segment.Plain) ∧
      substitute body ["x"] ["2 + 2".toList] = "(0x1fu << 2 + 2) | x_1".toList := by
  intro body
  have plain : ∀ segment ∈ segments body, segment.Plain := by decide +kernel
  have free : ∀ segment ∈ segments body, ¬Hides ["x"] segment := by decide +kernel
  have parts : segments body = [.token .punctuation ['('], .token .number "0x1fu".toList,
      .gap [' '], .token .punctuation ['<', '<'], .gap [' '], .token .word ['x'],
      .token .punctuation [')'], .gap [' '], .token .punctuation ['|'], .gap [' '],
      .token .word "x_1".toList] := by decide +kernel
  have read : ∃ tokens, Token.ofChars? body = .ok tokens :=
    ⟨[⟨.punctuation, "(", 1⟩, ⟨.number, "0x1fu", 1⟩, ⟨.punctuation, "<<", 1⟩, ⟨.word, "x", 1⟩,
      ⟨.punctuation, ")", 1⟩, ⟨.punctuation, "|", 1⟩, ⟨.word, "x_1", 1⟩], by decide +kernel⟩
  obtain ⟨tokens, htokens⟩ := read
  have whole := (substitute_segments htokens plain ["x"]).2.2.2.mpr free ["2 + 2".toList] rfl
  refine ⟨⟨tokens, htokens⟩, plain, ?_⟩
  rw [whole, parts]
  rfl

/-- The suffix of a number is taken for a parameter of its name, which changes the number. -/
theorem suffix_replaced :
    let body := "(1u << (u))".toList
    let macros := (∅ : MacroSet).insert "SHL" ⟨["u"], "(1u << (u))"⟩
    (Token.ofChars? body).map (·.map Token.lexeme) =
        .ok [.mark "(", .number "1u", .mark "<<", .mark "(", .word "u", .mark ")", .mark ")"] ∧
      (∀ segment ∈ segments body, segment.Plain) ∧
      substitute body ["u"] ["4".toList] = "(14 << (4))".toList ∧
      (segments body).flatMap (filledSegment ["u"] ["4".toList]) = "(1u << (4))".toList ∧
      evaluate ∅ macros "SHL(4)" = .ok 224 ∧ evaluate ∅ macros "(1u << (4))" = .ok 16 := by
  decide +kernel

end LibSurvey.Expression
