import LibSurvey.Proofs.Declarations.Lines

/-!
Headers one after the other. Of what was read before, only the statement and the braces still open
decide how reading goes on: emissions are added to and blocks are counted, but neither is looked at.
Where nothing is open, what follows is therefore read as if it stood alone, and the blocks of
`extern "C"` may be taken away.
-/

namespace LibSurvey.Declarations

variable {annotations : Annotations}

namespace State

/-- No statement and no braces are open; blocks may be. -/
structure Between (state : State) : Prop where
  pending : state.pending = []
  bodied : state.bodied = false
  braces : state.braces = none

/-- The same state between these braces. -/
def within (state : State) (braces : Braces) : State :=
  { state with braces := some braces }

/-- A state that goes on as another does, which has not seen the earlier emissions. These are given
last first. -/
structure Follows (earlier : List Emission) (alone state : State) : Prop where
  pending : state.pending = alone.pending
  bodied : state.bodied = alone.bodied
  braces : state.braces = alone.braces
  emissions : state.emissions = alone.emissions ++ earlier

variable {earlier : List Emission} {alone state : State}

theorem between_start : start.Between :=
  ⟨rfl, rfl, rfl⟩

theorem Between.follows (h : state.Between) : Follows state.emissions start state :=
  ⟨h.pending, h.bodied, h.braces, rfl⟩

namespace Follows

theorem clear (h : Follows earlier alone state) : Follows earlier alone.clear state.clear :=
  ⟨rfl, rfl, h.braces, h.emissions⟩

theorem emit (h : Follows earlier alone state) (emission : Option Emission) :
    Follows earlier (alone.emit emission) (state.emit emission) := by
  cases emission with
  | none => exact h
  | some emission => exact ⟨h.pending, h.bodied, h.braces, congrArg (emission :: ·) h.emissions⟩

theorem endStatement (h : Follows earlier alone state) :
    Follows earlier (alone.endStatement annotations) (state.endStatement annotations) := by
  rw [State.endStatement, State.endStatement, h.bodied, h.pending]
  split
  · exact h.clear
  · exact (h.emit _).clear

theorem withBraces (h : Follows earlier alone state) (braces : Option Braces) :
    Follows earlier { alone with braces } { state with braces } :=
  ⟨h.pending, h.bodied, rfl, h.emissions⟩

theorem endBraces (h : Follows earlier alone state) (body : List Token) :
    Follows earlier (alone.endBraces body) (state.endBraces body) := by
  have hnone : Follows earlier { alone with braces := none }
      { state with pending := alone.pending, braces := none } :=
    ⟨rfl, h.bodied, rfl, h.emissions⟩
  rw [State.endBraces, State.endBraces, h.pending]
  split
  · exact hnone.clear
  · have hfound := hnone.emit
      (if alone.pending.any (·.isWord "enum") then some (.enumeration (enumerators body)) else none)
    exact ⟨hfound.pending, rfl, hfound.braces, hfound.emissions⟩

theorem stepInside (h : Follows earlier alone state) (braces : Braces) (token : Token) :
    Follows earlier (alone.stepInside braces token) (state.stepInside braces token) := by
  -- A directive, a brace that opens, one that closes, and any other token.
  rw [State.stepInside, State.stepInside]
  split
  · exact h
  split
  · exact h.withBraces _
  split
  · cases braces.depth with
    | zero => exact h.endBraces _
    | succ depth => exact h.withBraces _
  · exact h.withBraces _

theorem stepOutside (h : Follows earlier alone state) (token : Token) :
    Follows earlier (alone.stepOutside annotations token)
      (state.stepOutside annotations token) := by
  -- A directive, a semicolon, a brace that opens, one that closes, and any other token. Only the
  -- two braces touch the count of blocks, which differs between the states.
  rw [State.stepOutside, State.stepOutside, h.pending]
  split
  · exact h.emit _
  split
  · exact h.endStatement
  split
  · split
    · exact ⟨rfl, h.bodied, h.braces, h.emissions⟩
    · exact ⟨rfl, h.bodied, rfl, h.emissions⟩
  split
  · exact ⟨rfl, rfl, h.braces, h.emissions⟩
  · exact ⟨rfl, h.bodied, h.braces, h.emissions⟩

theorem step (h : Follows earlier alone state) (token : Token) :
    Follows earlier (alone.step annotations token) (state.step annotations token) := by
  rw [State.step, State.step, h.braces]
  cases alone.braces with
  | none => exact h.stepOutside token
  | some braces => exact h.stepInside braces token

theorem run (annotations : Annotations) (h : Follows earlier alone state) (tokens : List Token) :
    Follows earlier (alone.run annotations tokens) (state.run annotations tokens) := by
  induction tokens generalizing alone state with
  | nil => exact h
  | cons token tokens ih => exact ih (h.step token)

theorem between_iff (h : Follows earlier alone state) : state.Between ↔ alone.Between :=
  ⟨fun hstate => ⟨h.pending.symm.trans hstate.pending, h.bodied.symm.trans hstate.bodied,
      h.braces.symm.trans hstate.braces⟩,
    fun halone => ⟨h.pending.trans halone.pending, h.bodied.trans halone.bodied,
      h.braces.trans halone.braces⟩⟩

theorem finish (h : Follows earlier alone state) :
    state.finish = alone.finish.map (earlier.reverse ++ ·) := by
  rw [State.finish, State.finish, h.braces, h.emissions]
  cases alone.braces with
  | none => simp [Except.map]
  | some braces => rfl

end Follows

theorem finish_eq_ok_iff {found : List Emission} :
    state.finish = .ok found ↔ state.braces = none ∧ state.emissions = found.reverse := by
  rw [finish]
  cases state.braces with
  | none => simp [List.reverse_eq_iff]
  | some braces => simp

end State

/-- The tokens before a block: `extern`, the name of a language and a brace. -/
structure OpensBlock (external language brace : Token) : Prop where
  external : external.isWord "extern" = true
  language : language.kind = .string
  brace : brace.isPunct "\x7b" = true

section

variable (state : State) {token : Token} (free : state.braces = none)

include free

theorem step_opening (opens : token.isPunct "\x7b" = true) :
    state.step annotations token =
      if isExternC state.pending.reverse then
        { state with pending := [], blocks := state.blocks + 1 }
      else state.within ⟨token.line, 0, []⟩ := by
  have hkind := Token.kind_of_isPunct opens
  have hsemicolon : token.isPunct ";" = false := Token.isPunct_ne opens (by decide)
  simp [State.step, free, State.stepOutside, State.within, hkind, hsemicolon, opens]

theorem step_closing (closes : token.isPunct "\x7d" = true) :
    state.step annotations token = { state.clear with
      blocks := if state.pending.isEmpty then state.blocks - 1 else state.blocks } := by
  have hkind := Token.kind_of_isPunct closes
  have hsemicolon : token.isPunct ";" = false := Token.isPunct_ne closes (by decide)
  have hopen : token.isPunct "\x7b" = false := Token.isPunct_ne closes (by decide)
  simp [State.step, free, State.stepOutside, hkind, hsemicolon, hopen, closes]

/-- A brace that closes nothing leaves nothing open. -/
theorem between_closing (annotations : Annotations) (closes : token.isPunct "\x7d" = true) :
    (state.step annotations token).Between ∧
      (state.step annotations token).emissions = state.emissions := by
  rw [step_closing state free closes]
  exact ⟨⟨rfl, rfl, free⟩, rfl⟩

end

theorem run_opensBlock {external language brace : Token} (h : OpensBlock external language brace)
    {state : State} (between : state.Between) :
    state.run annotations [external, language, brace] =
      { state with blocks := state.blocks + 1 } := by
  have hword := Token.kind_of_isWord h.external
  have hjoins : ∀ token ∈ [external, language], Joins token := by
    simpa using ⟨joins_of_kind (by simp [hword]) (by simp [hword]),
      joins_of_kind (by simp [h.language]) (by simp [h.language])⟩
  have hblock : isExternC [external, language] = true := by simp [isExternC, h.external, h.language]
  obtain ⟨pending, bodied, blocks, braces, emissions⟩ := state
  obtain ⟨rfl, -, rfl⟩ := between
  rw [show [external, language, brace] = [external, language] ++ [brace] from rfl, run_append,
    run_joins hjoins rfl, run_cons, step_opening _ rfl h.brace]
  exact if_pos hblock

/-- Tokens with blocks around parts of them, and the tokens without these blocks. Nothing is open
where a part ends and another begins. -/
inductive Unblocked (annotations : Annotations) : List Token → List Token → Prop where
  | plain (tokens : List Token) : Unblocked annotations tokens tokens
  | block {external language opening closing : Token} {inner bare : List Token} :
      OpensBlock external language opening → closing.isPunct "\x7d" = true →
      Unblocked annotations inner bare →
      Unblocked annotations ([external, language, opening] ++ inner ++ [closing]) bare
  | append {first bareFirst second bareSecond : List Token} :
      Unblocked annotations first bareFirst → (State.start.run annotations bareFirst).Between →
      Unblocked annotations second bareSecond →
      Unblocked annotations (first ++ second) (bareFirst ++ bareSecond)

theorem run_block {external language opening closing : Token}
    (opens : OpensBlock external language opening) (closes : closing.isPunct "\x7d" = true)
    {inner : List Token} (free : (State.start.run annotations inner).braces = none) :
    (State.start.run annotations ([external, language, opening] ++ inner ++ [closing])).Between ∧
      (State.start.run annotations
          ([external, language, opening] ++ inner ++ [closing])).emissions =
        (State.start.run annotations inner).emissions := by
  have hcounted : State.Follows [] State.start { State.start with blocks := 1 } :=
    ⟨rfl, rfl, rfl, rfl⟩
  have hfollows := hcounted.run annotations inner
  have hclosed := between_closing _ (hfollows.braces.trans free) annotations closes
  have hrun : State.start.run annotations ([external, language, opening] ++ inner ++ [closing]) =
      State.step annotations (State.run annotations { State.start with blocks := 1 } inner)
        closing := by
    rw [run_append, run_append, run_opensBlock opens State.between_start]
    rfl
  rw [hrun]
  exact ⟨hclosed.1, by rw [hclosed.2, hfollows.emissions, List.append_nil]⟩

/-- Without its blocks a header is read to the same end, or to one where less is open. -/
theorem run_unblocked {tokens bare : List Token} (h : Unblocked annotations tokens bare)
    (free : (State.start.run annotations bare).braces = none) :
    (State.start.run annotations tokens).braces = none ∧
      (State.start.run annotations tokens).emissions =
        (State.start.run annotations bare).emissions ∧
      ((State.start.run annotations bare).Between →
        (State.start.run annotations tokens).Between) := by
  -- That nothing is open is carried along, since a part after others has to stand alone.
  induction h with
  | plain tokens => exact ⟨free, rfl, id⟩
  | block opens closes _ ih =>
      obtain ⟨hfree, hemissions, -⟩ := ih free
      obtain ⟨hbetween, hblock⟩ := run_block opens closes hfree
      exact ⟨hbetween.braces, hblock.trans hemissions, fun _ => hbetween⟩
  | @append first bareFirst second bareSecond _ between _ ihFirst ihSecond =>
      obtain ⟨-, hfirst, hbetween⟩ := ihFirst between.braces
      -- Both second parts are read as if they stood alone.
      have hbare := between.follows.run annotations bareSecond
      have htokens := (hbetween between).follows.run annotations second
      rw [← run_append] at hbare htokens
      obtain ⟨hfree, hsecond, hlast⟩ := ihSecond (hbare.braces.symm.trans free)
      refine ⟨htokens.braces.trans hfree, ?_, fun hend => ?_⟩
      · rw [htokens.emissions, hbare.emissions, hsecond, hfirst]
      · exact htokens.between_iff.mpr (hlast (hbare.between_iff.mp hend))

/-- A header that leaves nothing open and another one after it declare what they declare apart, or
fail as the other does; and blocks, inside each other or side by side, change nothing of what a
header declares. -/
theorem ofTokens?_compositional :
    (∀ {first second : List Token} {found : List Emission},
      ofTokens? annotations first = .ok found → (State.start.run annotations first).Between →
      ofTokens? annotations (first ++ second) =
        (ofTokens? annotations second).map (found ++ ·)) ∧
    ∀ {tokens bare : List Token} {found : List Emission}, Unblocked annotations tokens bare →
      ofTokens? annotations bare = .ok found → ofTokens? annotations tokens = .ok found := by
  refine ⟨fun {first second found} accepted between => ?_, fun unblocked accepted => ?_⟩
  · have hfound := (State.finish_eq_ok_iff.mp accepted).2
    have hfollows := between.follows.run annotations second
    rw [← run_append] at hfollows
    rw [ofTokens?, hfollows.finish, hfound, List.reverse_reverse, ofTokens?]
  · obtain ⟨hfree, hfound⟩ := State.finish_eq_ok_iff.mp accepted
    obtain ⟨hend, hemissions, -⟩ := run_unblocked unblocked hfree
    exact State.finish_eq_ok_iff.mpr ⟨hend, hemissions.trans hfound⟩

def colours : List Token :=
  [Lexeme.word "enum", .mark "\x7b", .word "RED", .mark "\x7d", .mark ";"].map (·.onLine 1)

/-- The prototype of a function without parameters. -/
def action (name : String) : List Token :=
  [Lexeme.word "void", .word name, .mark "(", .word "void", .mark ")", .mark ";"].map (·.onLine 2)

/-- A block in a language around some tokens. -/
def blockOf (language : String) (tokens : List Token) : List Token :=
  [Lexeme.word "extern", ⟨.string, language⟩, .mark "\x7b"].map (·.onLine 2) ++ tokens ++
    [(Lexeme.mark "\x7d").onLine 3]

def nestedBlocks : List Token :=
  blockOf "\"C\"" (action "quit" ++ blockOf "\"C++\"" (action "stop"))

theorem ofTokens?_compositional_nested :
    ofTokens? ⟨[]⟩ colours = .ok [.enumeration [⟨"RED", none⟩]] ∧
      (State.start.run ⟨[]⟩ colours).Between ∧
      ofTokens? ⟨[]⟩ (colours ++ nestedBlocks) =
        (ofTokens? ⟨[]⟩ nestedBlocks).map ([.enumeration [⟨"RED", none⟩]] ++ ·) ∧
      Unblocked ⟨[]⟩ nestedBlocks (action "quit" ++ action "stop") ∧
      ofTokens? ⟨[]⟩ (action "quit" ++ action "stop") =
        .ok [.function "quit" ⟨"void", []⟩, .function "stop" ⟨"void", []⟩] ∧
      ofTokens? ⟨[]⟩ nestedBlocks =
        .ok [.function "quit" ⟨"void", []⟩, .function "stop" ⟨"void", []⟩] := by
  have accepted : ofTokens? ⟨[]⟩ colours = .ok [.enumeration [⟨"RED", none⟩]] := by decide +kernel
  have between : (State.start.run ⟨[]⟩ colours).Between := ⟨rfl, rfl, rfl⟩
  have first : (State.start.run ⟨[]⟩ (action "quit")).Between :=
    ⟨by decide +kernel, by decide +kernel, by decide +kernel⟩
  have unblocked : Unblocked ⟨[]⟩ nestedBlocks (action "quit" ++ action "stop") :=
    .block ⟨rfl, rfl, rfl⟩ rfl (.append (.plain _) first (.block ⟨rfl, rfl, rfl⟩ rfl (.plain _)))
  have bare : ofTokens? ⟨[]⟩ (action "quit" ++ action "stop") =
      .ok [.function "quit" ⟨"void", []⟩, .function "stop" ⟨"void", []⟩] := by decide +kernel
  exact ⟨accepted, between, ofTokens?_compositional.1 accepted between, unblocked, bare,
    ofTokens?_compositional.2 unblocked bare⟩

end LibSurvey.Declarations
