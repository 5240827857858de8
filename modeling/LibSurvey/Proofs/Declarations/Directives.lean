import LibSurvey.Header.Line.Scan
import LibSurvey.Proofs.Declarations.Blocks

/-!
Which directives of a header are reported. Between declarations and in the middle of a statement
each is, in order; between braces none is, whatever the braces belong to. So nothing is lost exactly
where the directives between braces mean nothing.
-/

namespace LibSurvey

/-- Whether an emission is one that a directive gives. -/
def Emission.isDirective : Emission → Bool
  | .included _ | .constant _ _ | .functionMacro _ _ => true
  | .enumeration _ | .function _ _ => false

namespace Directive

theorem isDirective_of_definition? {text : List Char} {emission : Emission}
    (h : definition? text = some emission) : emission.isDirective = true := by
  simp only [definition?] at h
  split at h
  · cases h
  split at h
  · split at h <;> cases h
    rfl
  · split at h <;> cases h
    rfl

theorem isDirective_of_emission? {text : List Char} {emission : Emission}
    (h : emission? text = some emission) : emission.isDirective = true := by
  simp only [emission?] at h
  split at h
  · obtain ⟨name, -, rfl⟩ := Option.map_eq_some_iff.mp h
    rfl
  · exact isDirective_of_definition? h
  · cases h

end Directive

/-- What a token means as a directive, if it is one. -/
def Token.meaning? (token : Token) : Option Emission :=
  if token.kind = .directive then Directive.emission? token.text.toList else none

theorem Token.isDirective_of_meaning? {token : Token} {emission : Emission}
    (h : token.meaning? = some emission) : emission.isDirective = true := by
  rw [meaning?] at h
  split at h
  · exact Directive.isDirective_of_emission? h
  · cases h

namespace Declarations

variable {annotations : Annotations}

namespace State

/-- The emissions of directives so far, last first. -/
def reported (state : State) : List Emission :=
  state.emissions.filter Emission.isDirective

theorem reported_emit (state : State) (emission : Option Emission) :
    (state.emit emission).reported =
      (emission.filter Emission.isDirective).toList ++ state.reported := by
  cases emission with
  | none => rfl
  | some emission =>
      cases h : emission.isDirective <;> simp [emit, reported, Option.filter, h]

theorem reported_endStatement (state : State) :
    (state.endStatement annotations).reported = state.reported := by
  rw [endStatement]
  split
  · rfl
  · refine (reported_emit state _).trans ?_
    cases Prototype.ofStatement? annotations state.pending.reverse <;> rfl

theorem reported_endBraces (state : State) (body : List Token) :
    (state.endBraces body).reported = state.reported := by
  rw [endBraces]
  split
  · rfl
  · refine (reported_emit { state with braces := none } _).trans ?_
    split <;> rfl

theorem reported_stepInside (state : State) (braces : Braces) (token : Token) :
    (state.stepInside braces token).reported = state.reported := by
  rw [stepInside]
  split
  · rfl
  split
  · rfl
  split
  · cases braces.depth with
    | zero => exact reported_endBraces state _
    | succ depth => rfl
  · rfl

theorem reported_stepOutside (state : State) (token : Token) :
    (state.stepOutside annotations token).reported = token.meaning?.toList ++ state.reported := by
  rw [stepOutside]
  split
  case isTrue hdirective =>
    have hmeaning : token.meaning? = Directive.emission? token.text.toList := by
      rw [Token.meaning?, if_pos hdirective]
    rw [← hmeaning, reported_emit]
    cases h : token.meaning? with
    | none => rfl
    | some emission => simp [Option.filter, Token.isDirective_of_meaning? h]
  case isFalse hdirective =>
    rw [Token.meaning?, if_neg hdirective]
    split
    · exact reported_endStatement state
    split
    · split <;> rfl
    split <;> rfl

theorem reported_step (state : State) (token : Token) :
    (state.step annotations token).reported =
      (if state.braces.isSome then none else token.meaning?).toList ++ state.reported := by
  rw [step]
  cases hbraces : state.braces with
  | none => exact reported_stepOutside state token
  | some braces => exact reported_stepInside state braces token

/-- The tokens that are still to be read, each with whether braces are open there. -/
def marked (annotations : Annotations) (state : State) : List Token → List (Token × Bool)
  | [] => []
  | token :: rest =>
    (token, state.braces.isSome) :: marked annotations (state.step annotations token) rest

/-- The tokens read where no braces are open. -/
def outside (annotations : Annotations) (state : State) (tokens : List Token) : List Token :=
  ((state.marked annotations tokens).filter (!·.2)).map Prod.fst

/-- The tokens read between braces. -/
def inside (annotations : Annotations) (state : State) (tokens : List Token) : List Token :=
  ((state.marked annotations tokens).filter (·.2)).map Prod.fst

theorem map_marked (state : State) (tokens : List Token) :
    (state.marked annotations tokens).map Prod.fst = tokens := by
  induction tokens generalizing state with
  | nil => rfl
  | cons token tokens ih => rw [marked, List.map_cons, ih]

theorem reported_run (annotations : Annotations) (state : State) (tokens : List Token) :
    (state.run annotations tokens).reported =
      ((state.outside annotations tokens).filterMap Token.meaning?).reverse ++ state.reported := by
  induction tokens generalizing state with
  | nil => rfl
  | cons token tokens ih =>
      refine (ih (state.step annotations token)).trans ?_
      rw [reported_step, outside, outside, marked]
      cases state.braces with
      | some braces => rfl
      | none => cases h : token.meaning? <;> simp [h]

end State

/-- Of what is marked, the rest says as much as the whole exactly where the marked part says
nothing. -/
theorem filterMap_unmarked_iff {α β : Type} (f : α → Option β) (l : List (α × Bool)) :
    ((l.filter (!·.2)).map Prod.fst).filterMap f = (l.map Prod.fst).filterMap f ↔
      ∀ x ∈ (l.filter (·.2)).map Prod.fst, f x = none := by
  induction l with
  | nil => simp
  | cons head l ih =>
      obtain ⟨x, mark⟩ := head
      cases mark with
      | false => cases h : f x <;> simpa [h] using ih
      | true =>
          cases h : f x with
          | none => simpa [h] using ih
          | some y =>
              -- The rest alone is no longer than the whole without its first element.
              have hlength := ((List.filter_sublist (p := (!·.2))
                (l := l)).map Prod.fst |>.filterMap f).length_le
              refine iff_of_false (fun heq => ?_) (fun hnone => ?_)
              · have := congrArg List.length heq
                simp [h] at this hlength
                omega
              · simpa [h] using hnone x

theorem ofTokens?_of_ofBytes? {bytes : List UInt8} {tokens : List Token} {found : List Emission}
    (lexed : Token.ofBytes? bytes = .ok tokens)
    (accepted : ofBytes? annotations bytes = .ok found) :
    ofTokens? annotations tokens = .ok found := by
  simp only [ofBytes?, lexed] at accepted
  split at accepted
  · cases accepted
  · rename_i hfound
    rw [hfound, Except.ok.inj accepted]

/-- The directives outside braces are reported, all and in order; no directive is lost exactly where
those between braces mean nothing. -/
theorem ofBytes?_outside {bytes : List UInt8} {tokens : List Token} {found : List Emission}
    (lexed : Token.ofBytes? bytes = .ok tokens)
    (accepted : ofBytes? annotations bytes = .ok found) :
    found.filter Emission.isDirective =
        (State.start.outside annotations tokens).filterMap Token.meaning? ∧
      (found.filter Emission.isDirective = tokens.filterMap Token.meaning? ↔
        ∀ token ∈ State.start.inside annotations tokens, token.meaning? = none) := by
  have hreported : found.filter Emission.isDirective =
      (State.start.outside annotations tokens).filterMap Token.meaning? := by
    have hemissions := (State.finish_eq_ok_iff.mp (ofTokens?_of_ofBytes? lexed accepted)).2
    have hrun := State.reported_run annotations State.start tokens
    rw [State.reported, hemissions, List.filter_reverse] at hrun
    simpa [State.reported, State.start] using hrun
  refine ⟨hreported, ?_⟩
  have hmarked := filterMap_unmarked_iff Token.meaning? (State.start.marked annotations tokens)
  rw [State.map_marked] at hmarked
  rw [hreported]
  exact hmarked

/-- A prototype with a definition between its parentheses, and an enumeration with one among its
items. -/
def interleaved : List Char :=
  "int f(\n#define MID 2\nvoid);\nenum E \x7b\n#define FLAG 1\nA \x7d;".toList

def interleavedTokens : List Token :=
  [Lexeme.word "int", .word "f", .mark "("].map (·.onLine 1) ++
    [⟨.directive, "define MID 2", 2⟩] ++
    [Lexeme.word "void", .mark ")", .mark ";"].map (·.onLine 3) ++
    [Lexeme.word "enum", .word "E", .mark "\x7b"].map (·.onLine 4) ++
    [⟨.directive, "define FLAG 1", 5⟩] ++
    [Lexeme.word "A", .mark "\x7d", .mark ";"].map (·.onLine 6)

theorem ofBytes?_outside_interleaved :
    Token.ofBytes? (Text.Utf8.encode interleaved) = .ok interleavedTokens ∧
      ofBytes? ⟨[]⟩ (Text.Utf8.encode interleaved) = .ok [.constant "MID" "2",
        .function "f" ⟨"int", []⟩, .enumeration [⟨"A", none⟩]] ∧
      [Emission.constant "MID" "2"] =
        (State.start.outside ⟨[]⟩ interleavedTokens).filterMap Token.meaning? ∧
      ([Emission.constant "MID" "2"] = interleavedTokens.filterMap Token.meaning? ↔
        ∀ token ∈ State.start.inside ⟨[]⟩ interleavedTokens, token.meaning? = none) := by
  have lexed : Token.ofBytes? (Text.Utf8.encode interleaved) = .ok interleavedTokens := by
    decide +kernel
  have accepted : ofBytes? ⟨[]⟩ (Text.Utf8.encode interleaved) = .ok [.constant "MID" "2",
      .function "f" ⟨"int", []⟩, .enumeration [⟨"A", none⟩]] := by
    decide +kernel
  exact ⟨lexed, accepted, ofBytes?_outside lexed accepted⟩

/-- A definition among the items of an enumeration is lost, though a reading by lines reports it. -/
theorem definition_lost :
    let header := "enum E \x7b\n#define FLAG 1\nA \x7d;".toList
    let tokens := [Lexeme.word "enum", .word "E", .mark "\x7b"].map (·.onLine 1) ++
      [⟨.directive, "define FLAG 1", 2⟩] ++
      [Lexeme.word "A", .mark "\x7d", .mark ";"].map (·.onLine 3)
    Token.ofBytes? (Text.Utf8.encode header) = .ok tokens ∧
      ofBytes? ⟨[]⟩ (Text.Utf8.encode header) = .ok [.enumeration [⟨"A", none⟩]] ∧
      [Emission.enumeration [⟨"A", none⟩]].filter Emission.isDirective ≠
        tokens.filterMap Token.meaning? ∧
      Line.scan ⟨[]⟩ header = [.constant "FLAG" "1"] := by
  decide +kernel

end Declarations
end LibSurvey
