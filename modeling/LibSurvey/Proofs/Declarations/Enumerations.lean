import LibSurvey.Proofs.Declarations.Bodies
import LibSurvey.Proofs.Findings
import LibSurvey.Proofs.Prototype.Noise

/-!
Which braces give an enumeration. An accepted header closes every brace that it opens, and when it
does, the tokens before the brace decide: the word `enum` has to be among them and a parenthesis must
not. The arguments of an annotation and the sign of an initializer are not told apart from the rest.
-/

namespace LibSurvey.Declarations
open Prototype (stripNoise)

variable {annotations : Annotations}

/-- Between braces that close in the end, the first brace to close on this level. -/
theorem exists_closing {state : State} {line depth : Nat} {seen rest : List Token}
    (closed : ((state.within ⟨line, depth, seen⟩).run annotations rest).braces = none) :
    ∃ body closing after, rest = body ++ closing :: after ∧ closing.isPunct "\x7d" = true ∧
      curly.Level (fun _ => True) body := by
  match rest with
  | [] => cases closed
  | token :: rest =>
      by_cases opens : curly.opens token = true
      · -- The group that opens here closes first, and what follows it is shorter again.
        rw [run_cons, step_opens opens] at closed
        obtain ⟨inner, last, middle, rfl, hlast, level⟩ := exists_closing closed
        rw [run_append, run_level level, run_cons, step_closes_inner hlast] at closed
        have : middle.length < (inner ++ last :: middle).length := by simp; omega
        obtain ⟨body, closing, after, rfl, hclosing, hbody⟩ := exists_closing closed
        exact ⟨token :: (inner ++ last :: body), closing, after, by simp, hclosing,
          .group token last opens (Token.isPunct_ne hlast (by decide)) hlast level hbody⟩
      by_cases closes : curly.closes token = true
      · exact ⟨[], token, rest, rfl, closes, .nil⟩
      · rw [Bool.not_eq_true] at opens closes
        have hnext : ∃ seen, ((state.within ⟨line, depth, seen⟩).run annotations rest).braces =
            none := by
          rw [run_cons] at closed
          by_cases directive : token.kind = .directive
          · exact ⟨seen, by rwa [step_directive directive] at closed⟩
          · exact ⟨token :: seen, by rwa [step_item directive opens closes] at closed⟩
        obtain ⟨seen, hseen⟩ := hnext
        obtain ⟨body, closing, after, rfl, hclosing, hbody⟩ := exists_closing hseen
        exact ⟨token :: body, closing, after, rfl, hclosing, .item opens closes trivial hbody⟩
termination_by rest.length

/-- What braces after a statement give. -/
def braced (statement body : List Token) : List Emission :=
  if isSkipped statement then [] else [.enumeration (enumerators body)]

theorem emissions_endBraces (state : State) (body : List Token) :
    (state.endBraces body).emissions =
      (braced state.pending.reverse body).reverse ++ state.emissions := by
  rw [State.endBraces, braced, isSkipped, List.any_reverse, List.any_reverse]
  cases state.pending.any (·.isPunct "(") <;> cases state.pending.any (·.isWord "enum") <;> rfl

/-- What is emitted stays. -/
theorem emissions_run (annotations : Annotations) (state : State) (tokens : List Token) :
    ∃ later, (state.run annotations tokens).emissions = later ++ state.emissions := by
  have hfollows : State.Follows state.emissions { state with emissions := [] } state :=
    ⟨rfl, rfl, rfl, rfl⟩
  exact ⟨_, (hfollows.run annotations tokens).emissions⟩

/-- The end of a statement that an enumeration may follow: `enum` alone or with a tag. -/
def EndsInEnum (words : List Token) : Prop :=
  ∃ front keyword, keyword.isWord "enum" = true ∧
    (words = front ++ [keyword] ∨ ∃ tag, tag.kind = .word ∧ words = front ++ [keyword, tag])

theorem isWord_of_endsInEnum {statement : List Token}
    (h : EndsInEnum (stripNoise annotations statement)) :
    statement.any (·.isWord "enum") = true := by
  obtain ⟨front, keyword, hkeyword, hwords⟩ := h
  refine List.any_eq_true.mpr ⟨keyword, ?_, hkeyword⟩
  refine (Prototype.stripNoise_sublist annotations statement).subset ?_
  obtain hwords | ⟨tag, -, hwords⟩ := hwords <;> simp [hwords]

theorem braced_eq_items_iff (statement body : List Token) :
    braced statement body = [.enumeration (enumerators body)] ↔
      statement.any (·.isWord "enum") = true ∧ statement.any (·.isPunct "(") = false := by
  rw [braced, isSkipped]
  cases statement.any (·.isWord "enum") <;> cases statement.any (·.isPunct "(") <;> simp

theorem braced_eq_nil_iff (statement body : List Token) :
    braced statement body = [] ↔
      (statement.any (·.isWord "enum") = true → statement.any (·.isPunct "(") = true) := by
  rw [braced, isSkipped]
  cases statement.any (·.isWord "enum") <;> cases statement.any (·.isPunct "(") <;> simp

/-- A brace that opens no block is read up to the one that closes it. -/
theorem run_braces {state : State} {body : List Token} {opening closing : Token}
    (outside : state.braces = none) (opens : opening.isPunct "\x7b" = true)
    (apart : isExternC state.pending.reverse = false) (level : curly.Level (fun _ => True) body)
    (closes : closing.isPunct "\x7d" = true) :
    state.run annotations (opening :: (body ++ [closing])) =
      state.endBraces (withoutDirectives body) := by
  rw [run_cons, step_opening state outside opens, apart, if_neg Bool.false_ne_true, run_append,
    run_level level, run_cons, step_closes_last closes, List.append_nil, List.reverse_reverse]
  rfl

/-- At every brace outside others that opens no block, an accepted header goes on to the brace that
closes it. What the braces give is emitted there: an enumeration of the items between them, if the
word `enum` stands before them and no parenthesis, and otherwise nothing. So after an `enum` that
only annotations follow, the items are lost where a parenthesis stands before the braces, and an
initializer gives items where the word `enum` stands there and no parenthesis. -/
theorem ofTokens?_braces {before rest : List Token} {opening : Token} {found : List Emission}
    (accepted : ofTokens? annotations (before ++ opening :: rest) = .ok found)
    (outside : (State.start.run annotations before).braces = none)
    (opens : opening.isPunct "\x7b" = true)
    (apart : isExternC (State.start.run annotations before).pending.reverse = false) :
    ∃ body closing after, rest = body ++ closing :: after ∧ closing.isPunct "\x7d" = true ∧
      curly.Level (fun _ => True) body ∧
      let state := State.start.run annotations before
      let statement := state.pending.reverse
      let items := Emission.enumeration (enumerators (withoutDirectives body))
      let given := braced statement (withoutDirectives body)
      (State.start.run annotations (before ++ opening :: (body ++ [closing]))).emissions.reverse =
          state.emissions.reverse ++ given ∧
        (∃ later, found = state.emissions.reverse ++ given ++ later) ∧
        (given = [items] ↔ statement.any (·.isWord "enum") = true ∧
          statement.any (·.isPunct "(") = false) ∧
        (given = [] ↔ (statement.any (·.isWord "enum") = true →
          statement.any (·.isPunct "(") = true)) ∧
        (EndsInEnum (stripNoise annotations statement) →
          (given = [items] ↔ statement.any (·.isPunct "(") = false)) := by
  obtain ⟨hend, hfound⟩ := State.finish_eq_ok_iff.mp accepted
  rw [run_append] at hend hfound
  have hinside : ((State.within (State.start.run annotations before)
      ⟨opening.line, 0, []⟩).run annotations rest).braces = none := by
    rwa [run_cons, step_opening _ outside opens, apart, if_neg Bool.false_ne_true] at hend
  obtain ⟨body, closing, after, rfl, closes, level⟩ := exists_closing hinside
  have hrun : (State.start.run annotations before).run annotations
      (opening :: (body ++ [closing])) = _ := run_braces outside opens apart level closes
  have hgiven := emissions_endBraces (State.start.run annotations before) (withoutDirectives body)
  refine ⟨body, closing, after, rfl, closes, level, ?_, ?_, braced_eq_items_iff _ _,
    braced_eq_nil_iff _ _, fun ends => ?_⟩
  · rw [run_append, hrun, hgiven]
    simp
  · obtain ⟨later, hlater⟩ := emissions_run annotations
      ((State.start.run annotations before).endBraces (withoutDirectives body)) after
    refine ⟨later.reverse, List.reverse_injective ?_⟩
    rw [← hfound, show opening :: (body ++ closing :: after) =
      opening :: (body ++ [closing]) ++ after by simp, run_append, hrun, hlater, hgiven]
    simp
  · rw [braced_eq_items_iff, isWord_of_endsInEnum ends, eq_self_iff_true, true_and]

/-- An annotation without arguments between `enum` and its tag. -/
theorem ofTokens?_braces_annotated :
    let before := [Lexeme.word "enum", .word "__cdecl", .word "Flags"].map (·.onLine 1)
    let rest := [Lexeme.word "A", .mark "\x7d", .mark ";"].map (·.onLine 2)
    ofTokens? ⟨[]⟩ (before ++ (Lexeme.mark "\x7b").onLine 1 :: rest) =
        .ok [.enumeration [⟨"A", none⟩]] ∧
      EndsInEnum (stripNoise ⟨[]⟩ before) ∧
      ∃ body closing after, rest = body ++ closing :: after ∧
        braced before (withoutDirectives body) =
          [.enumeration (enumerators (withoutDirectives body))] := by
  intro before rest
  have accepted : ofTokens? ⟨[]⟩ (before ++ (Lexeme.mark "\x7b").onLine 1 :: rest) =
      .ok [.enumeration [⟨"A", none⟩]] := by decide +kernel
  have ends : EndsInEnum (stripNoise ⟨[]⟩ before) :=
    ⟨[], (Lexeme.word "enum").onLine 1, rfl, .inr ⟨(Lexeme.word "Flags").onLine 1, rfl,
      by decide +kernel⟩⟩
  obtain ⟨body, closing, after, hrest, -, -, -, -, -, -, hgiven⟩ :=
    ofTokens?_braces accepted rfl rfl rfl
  exact ⟨accepted, ends, body, closing, after, hrest, (hgiven ends).mpr rfl⟩

/-- The items of an enumeration are lost behind an annotation with arguments, and those of an array
that is initialized are taken for an enumeration, which gives its constants other values. -/
theorem enumerations_misread :
    let attributed := [Lexeme.word "enum", .word "__attribute__", .mark "(", .mark "(",
      .word "packed", .mark ")", .mark ")", .word "E"].map (·.onLine 1)
    let named := [Lexeme.word "enum", .word "E"].map (·.onLine 1)
    let items := [Lexeme.mark "\x7b", .word "A", .mark "\x7d", .mark ";"].map (·.onLine 1)
    let values := [Lexeme.word "enum", .word "E", .mark "\x7b", .word "A", .mark "=", .number "4",
      .mark ",", .word "B", .mark "\x7d", .mark ";"].map (·.onLine 1)
    let array := [Lexeme.word "enum", .word "E", .word "order", .mark "[", .mark "]",
      .mark "="].map (·.onLine 2)
    let order := [Lexeme.mark "\x7b", .word "B", .mark ",", .word "A", .mark "\x7d",
      .mark ";"].map (·.onLine 2)
    let first := Emission.enumeration [⟨"A", some "4"⟩, ⟨"B", none⟩]
    let second := Emission.enumeration [⟨"B", none⟩, ⟨"A", none⟩]
    (Token.ofChars? "enum __attribute__((packed)) E \x7b A \x7d;\n".toList =
        .ok (attributed ++ items) ∧
      stripNoise ⟨[]⟩ attributed = named ∧ EndsInEnum named ∧
      ofTokens? ⟨[]⟩ (named ++ items) = .ok [.enumeration [⟨"A", none⟩]] ∧
      ofTokens? ⟨[]⟩ (attributed ++ items) = .ok []) ∧
    Token.ofChars? "enum E \x7b A = 4, B \x7d;\nenum E order[] = \x7b B, A \x7d;\n".toList =
        .ok (values ++ array ++ order) ∧
      (State.start.run ⟨[]⟩ (values ++ array)).pending.reverse = array ∧
      ofTokens? ⟨[]⟩ values = .ok [first] ∧
      ofTokens? ⟨[]⟩ (values ++ array ++ order) = .ok [first, second] ∧
      ((Findings.empty true).apply [first]).signatures.constants["A"]? = some 4 ∧
      ((Findings.empty true).apply [first, second]).signatures.constants["A"]? = some 1 := by
  refine ⟨⟨by decide +kernel, by decide +kernel, ⟨[], _, rfl, .inr ⟨_, rfl, rfl⟩⟩, ?_⟩, ?_⟩
  · decide +kernel
  · decide +kernel

end LibSurvey.Declarations
