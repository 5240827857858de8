import LibSurvey.Header.Declarations
import LibSurvey.Proofs.Text.Utf8
import LibSurvey.Proofs.Token.Lexeme
import Mathlib.Data.List.ReduceOption

/-!
Headers whose lines stand alone: each line leaves no statement and no braces open, so that the header
declares what its lines declare, in order.
-/

namespace LibSurvey.Declarations
open Token (Reads numbered)

variable {annotations : Annotations}

/-- The state with nothing open; the emissions are given last first. -/
def State.settled (emissions : List Emission) : State :=
  ⟨[], false, 0, none, emissions⟩

/-- A token that only adds to the statement it stands in. -/
structure Joins (token : Token) : Prop where
  kind : token.kind ≠ .directive
  marks : ∀ mark ∈ [";", "\x7b", "\x7d"], token.isPunct mark = false

theorem joins_of_kind {token : Token} (directive : token.kind ≠ .directive)
    (mark : token.kind ≠ .punctuation) : Joins token :=
  ⟨directive, fun _ _ => by simp [Token.isPunct, mark]⟩

theorem run_append (state : State) (a b : List Token) :
    state.run annotations (a ++ b) = (state.run annotations a).run annotations b :=
  List.foldl_append

theorem run_cons (state : State) (token : Token) (tokens : List Token) :
    state.run annotations (token :: tokens) =
      (state.step annotations token).run annotations tokens :=
  rfl

theorem step_joins {token : Token} (h : Joins token) {state : State} (free : state.braces = none) :
    state.step annotations token = { state with pending := token :: state.pending } := by
  have hsemicolon := h.marks ";" (by simp)
  have hopen := h.marks "\x7b" (by simp)
  have hclose := h.marks "\x7d" (by simp)
  simp [State.step, free, State.stepOutside, h.kind, hsemicolon, hopen, hclose]

theorem run_joins {tokens : List Token} (h : ∀ token ∈ tokens, Joins token) {state : State}
    (free : state.braces = none) :
    state.run annotations tokens = { state with pending := tokens.reverse ++ state.pending } := by
  induction tokens generalizing state with
  | nil => rfl
  | cons token tokens ih =>
      have hrest : ∀ t ∈ tokens, Joins t := fun t ht => h t (List.mem_cons_of_mem _ ht)
      rw [run_cons, step_joins (h token List.mem_cons_self) free, List.reverse_cons,
        List.append_assoc]
      exact ih hrest free

/-- A statement between settled states. -/
theorem run_statement {tokens : List Token} (h : ∀ token ∈ tokens, Joins token) {last : Token}
    (ends : last.isPunct ";" = true) (emissions : List Emission) :
    (State.settled emissions).run annotations (tokens ++ [last]) =
      State.settled (((Prototype.ofStatement? annotations tokens).map
        fun (name, signature) => Emission.function name signature).toList ++ emissions) := by
  have hkind : last.kind ≠ .directive := by
    intro hk
    simp [Token.isPunct, hk] at ends
  rw [run_append, run_joins h rfl]
  simp only [State.run, List.foldl_cons, List.foldl_nil, State.step, State.settled,
    State.stepOutside, hkind, ite_false, ends, ite_true, State.endStatement, Bool.false_eq_true,
    List.append_nil, List.reverse_reverse]
  cases Prototype.ofStatement? annotations tokens <;> rfl

/-- Lexemes of a line that declare this and leave nothing open. -/
def Declares (annotations : Annotations) (lexemes : List Lexeme) (found : Option Emission) : Prop :=
  ∀ number emissions, (State.settled emissions).run annotations (lexemes.map (·.onLine number)) =
    State.settled (found.toList ++ emissions)

theorem declares_nil : Declares annotations [] none :=
  fun _ _ => rfl

theorem run_numbered {lexemes : List (List Lexeme)} {found : List (Option Emission)}
    (h : List.Forall₂ (Declares annotations) lexemes found) (number : Nat)
    (emissions : List Emission) :
    (State.settled emissions).run annotations (numbered number lexemes) =
      State.settled (found.reduceOption.reverse ++ emissions) := by
  induction h generalizing number emissions with
  | nil => rfl
  | @cons _ first _ _ hline _ ih =>
      rw [numbered, run_append, hline, ih]
      cases first with
      | none => rw [List.reduceOption_cons_of_none]; rfl
      | some emission => simp [List.reduceOption_cons_of_some]

/-- A header declares what its lines declare. -/
theorem ofBytes?_lines {lines : List (List Char)} {lexemes : List (List Lexeme)}
    {found : List (Option Emission)} (reads : List.Forall₂ Reads lines lexemes)
    (declares : List.Forall₂ (Declares annotations) lexemes found)
    (room : lexemes.flatten.length ≤ Token.limit) :
    ofBytes? annotations (Text.Utf8.encode (['\n'].intercalate lines)) =
      .ok found.reduceOption := by
  have htokens : Token.ofBytes? (Text.Utf8.encode (['\n'].intercalate lines)) =
      .ok (numbered 1 lexemes) := by
    rw [Token.ofBytes?, Text.Utf8.decode?_encode]
    exact Token.ofChars?_lines reads room
  have hrun : State.start.run annotations (numbered 1 lexemes) =
      State.settled (found.reduceOption.reverse ++ []) := run_numbered declares 1 []
  rw [ofBytes?, htokens]
  simp only [ofTokens?, hrun, State.finish, State.settled, List.append_nil, List.reverse_reverse]

theorem ofBytes?_tooMany {lexemes : List Lexeme} {text : List Char}
    (h : Lexeme.Written lexemes text) (excess : Token.limit < lexemes.length) :
    ofBytes? annotations (Text.Utf8.encode text) = .error (.tokens .tooMany) := by
  have htokens : Token.ofBytes? (Text.Utf8.encode text) = .error .tooMany := by
    rw [Token.ofBytes?, Text.Utf8.decode?_encode]
    exact Token.ofChars?_tooMany h excess
  rw [ofBytes?, htokens]

end LibSurvey.Declarations
