import LibSurvey.Proofs.Declarations.Blocks
import LibSurvey.Proofs.Text.Brackets

/-!
What stands between braces. Where they match, reading comes out at the brace that closes the first
one, and has kept the tokens between. Only an enumeration looks at them; the body of a function, a
structure or a union may be any other, and says nothing of its own.
-/

namespace LibSurvey.Declarations

variable {annotations : Annotations}

def curly : Brackets Token where
  opens token := token.isPunct "\x7b"
  closes token := token.isPunct "\x7d"
  divides _ := false

/-- Tokens between braces: those among them match, and there are no directives. -/
structure Body (tokens : List Token) : Prop where
  level : curly.Level (fun _ => True) tokens
  plain : ∀ token ∈ tokens, token.kind ≠ .directive

variable {state : State} {token : Token} {line depth : Nat} {seen : List Token}

theorem step_item (plain : token.kind ≠ .directive) (opens : curly.opens token = false)
    (closes : curly.closes token = false) :
    (state.within ⟨line, depth, seen⟩).step annotations token =
      state.within ⟨line, depth, token :: seen⟩ := by
  have hopen : token.isPunct "\x7b" = false := opens
  have hclose : token.isPunct "\x7d" = false := closes
  simp [State.step, State.stepInside, State.within, plain, hopen, hclose]

theorem step_opens (opens : curly.opens token = true) :
    (state.within ⟨line, depth, seen⟩).step annotations token =
      state.within ⟨line, depth + 1, token :: seen⟩ := by
  have hopen : token.isPunct "\x7b" = true := opens
  have hkind := Token.kind_of_isPunct hopen
  simp [State.step, State.stepInside, State.within, hkind, hopen]

theorem step_closes_inner (closes : curly.closes token = true) :
    (state.within ⟨line, depth + 1, seen⟩).step annotations token =
      state.within ⟨line, depth, token :: seen⟩ := by
  have hclose : token.isPunct "\x7d" = true := closes
  have hopen : token.isPunct "\x7b" = false := Token.isPunct_ne hclose (by decide)
  have hkind := Token.kind_of_isPunct hclose
  simp [State.step, State.stepInside, State.within, hkind, hopen, hclose]

theorem step_closes_last (closes : curly.closes token = true) :
    (state.within ⟨line, 0, seen⟩).step annotations token = state.endBraces seen.reverse := by
  have hclose : token.isPunct "\x7d" = true := closes
  have hopen : token.isPunct "\x7b" = false := Token.isPunct_ne hclose (by decide)
  have hkind := Token.kind_of_isPunct hclose
  simp [State.step, State.stepInside, State.within, State.endBraces, hkind, hopen, hclose]

theorem step_directive (directive : token.kind = .directive) :
    (state.within ⟨line, depth, seen⟩).step annotations token =
      state.within ⟨line, depth, seen⟩ := by
  simp [State.step, State.stepInside, State.within, directive]

def withoutDirectives (tokens : List Token) : List Token :=
  tokens.filter fun token => token.kind ≠ .directive

/-- Between braces that match, the depth comes back to where it was. -/
theorem run_level {p : Token → Prop} {tokens : List Token} (level : curly.Level p tokens) :
    (state.within ⟨line, depth, seen⟩).run annotations tokens =
      state.within ⟨line, depth, (withoutDirectives tokens).reverse ++ seen⟩ := by
  -- A group is read one brace deeper, so the depth has to be any.
  induction level generalizing depth seen with
  | nil => rfl
  | @item _ token rest opens closes _ _ ih =>
      rw [run_cons]
      by_cases directive : token.kind = .directive
      · rw [step_directive directive, ih]
        simp [withoutDirectives, directive]
      · rw [step_item directive opens closes, ih]
        simp [withoutDirectives, directive]
  | @group _ first last inner rest opens _ closes _ _ ihInner ih =>
      have hfirst : first.kind ≠ .directive := by simp [Token.kind_of_isPunct opens]
      have hlast : last.kind ≠ .directive := by simp [Token.kind_of_isPunct closes]
      rw [run_cons, step_opens opens, run_append, ihInner, run_cons, step_closes_inner closes, ih]
      simp [withoutDirectives, hfirst, hlast]

/-- A statement with braces is read up to the brace that closes them. -/
theorem run_braced (between : state.Between) {statement body : List Token}
    (joins : ∀ token ∈ statement, Joins token) (apart : isExternC statement = false)
    (inside : Body body) {opening closing : Token} (opens : opening.isPunct "\x7b" = true)
    (closes : closing.isPunct "\x7d" = true) :
    state.run annotations (statement ++ opening :: (body ++ [closing])) =
      State.endBraces { state with pending := statement.reverse } body := by
  have hopening : State.step annotations { state with pending := statement.reverse } opening =
      State.within { state with pending := statement.reverse } ⟨opening.line, 0, []⟩ := by
    rw [step_opening { state with pending := statement.reverse } between.braces opens,
      List.reverse_reverse, apart, if_neg Bool.false_ne_true]
  have hbody : withoutDirectives body = body :=
    List.filter_eq_self.mpr fun token htoken => by simpa using inside.plain token htoken
  rw [run_append, run_joins joins between.braces, between.pending, List.append_nil, run_cons,
    hopening, run_append, run_level inside.level, hbody, run_cons, step_closes_last closes,
    List.append_nil, List.reverse_reverse]
  rfl

/-- Whether braces after a statement are passed over: those of a function, or of anything that is
no enumeration. -/
def isSkipped (statement : List Token) : Bool :=
  statement.any (·.isPunct "(") || !statement.any (·.isWord "enum")

/-- The state after a statement whose braces were passed over. -/
def State.afterSkipped (state : State) (statement : List Token) : State :=
  if statement.any (·.isPunct "(") then state.clear
  else { state with pending := statement.reverse, bodied := true }

theorem emissions_afterSkipped (statement : List Token) :
    (state.afterSkipped statement).emissions = state.emissions := by
  rw [State.afterSkipped]
  split <;> rfl

theorem endBraces_skipped {statement : List Token} (skipped : isSkipped statement = true)
    (free : state.braces = none) (body : List Token) :
    State.endBraces { state with pending := statement.reverse } body =
      state.afterSkipped statement := by
  cases hgroup : statement.any (·.isPunct "(") with
  | true => simp [State.endBraces, State.afterSkipped, hgroup, State.clear, free]
  | false =>
      have henum : statement.any (·.isWord "enum") = false := by
        simpa [isSkipped, hgroup] using skipped
      simp [State.endBraces, State.afterSkipped, hgroup, henum, State.emit, free]

/-- What a statement leaves behind its braces does not depend on what stands between them, and
nothing of that is emitted. -/
theorem ofTokens?_skipped {front statement body other back : List Token} {opening closing : Token}
    (between : (State.start.run annotations front).Between)
    (joins : ∀ token ∈ statement, Joins token) (apart : isExternC statement = false)
    (skipped : isSkipped statement = true) (opens : opening.isPunct "\x7b" = true)
    (closes : closing.isPunct "\x7d" = true) (hbody : Body body) (hother : Body other) :
    ofTokens? annotations (front ++ (statement ++ opening :: (body ++ [closing])) ++ back) =
        ofTokens? annotations (front ++ (statement ++ opening :: (other ++ [closing])) ++ back) ∧
      (State.start.run annotations
          (front ++ (statement ++ opening :: (body ++ [closing])))).emissions =
        (State.start.run annotations front).emissions := by
  have hrun {tokens : List Token} (inside : Body tokens) : State.start.run annotations
      (front ++ (statement ++ opening :: (tokens ++ [closing]))) =
        (State.start.run annotations front).afterSkipped statement := by
    rw [run_append, run_braced between joins apart inside opens closes,
      endBraces_skipped skipped between.braces]
  refine ⟨?_, by rw [hrun hbody, emissions_afterSkipped]⟩
  rw [ofTokens?, run_append, hrun hbody, ofTokens?, run_append, hrun hother]

/-- Members of a structure, an enumeration and a function's declaration among them. -/
def members : List Token :=
  [Lexeme.word "enum", .mark "\x7b", .word "RED", .mark "\x7d", .word "colour", .mark ";",
    .word "int", .word "hidden", .mark "(", .word "void", .mark ")", .mark ";"].map (·.onLine 4)

theorem body_members : Body members where
  level := .item rfl rfl trivial (.group ((Lexeme.mark "\x7b").onLine 4)
    ((Lexeme.mark "\x7d").onLine 4) rfl rfl rfl (.item rfl rfl trivial .nil)
    (.of_forall (by decide)))
  plain := by decide

/-- A structure with these members, without its semicolon. -/
def structured (members : List Token) : List Token :=
  [Lexeme.word "struct", .word "pen"].map (·.onLine 3) ++
    (Lexeme.mark "\x7b").onLine 3 :: (members ++ [(Lexeme.mark "\x7d").onLine 5])

theorem ofTokens?_skipped_members :
    (State.start.run ⟨[]⟩ (action "quit")).Between ∧ Body members ∧ Body [] ∧
      ofTokens? ⟨[]⟩ (action "quit" ++ structured members ++
          ((Lexeme.mark ";").onLine 5 :: action "stop")) =
        ofTokens? ⟨[]⟩ (action "quit" ++ structured [] ++
          ((Lexeme.mark ";").onLine 5 :: action "stop")) ∧
      ofTokens? ⟨[]⟩ (action "quit" ++ structured [] ++
          ((Lexeme.mark ";").onLine 5 :: action "stop")) =
        .ok [.function "quit" ⟨"void", []⟩, .function "stop" ⟨"void", []⟩] := by
  have between : (State.start.run ⟨[]⟩ (action "quit")).Between :=
    ⟨by decide +kernel, by decide +kernel, by decide +kernel⟩
  have joins : ∀ token ∈ [Lexeme.word "struct", .word "pen"].map (·.onLine 3), Joins token := by
    intro token htoken
    refine joins_of_kind ?_ ?_ <;> revert token <;> decide
  have empty : Body [] := ⟨.nil, by simp⟩
  exact ⟨between, body_members, empty,
    (ofTokens?_skipped between joins rfl rfl rfl rfl body_members empty).1, by decide +kernel⟩

end LibSurvey.Declarations
