import LibSurvey.Proofs.Constant.Known
import LibSurvey.Proofs.Text.Lines
import LibSurvey.Proofs.Token.Lexeme

/-!
Trees as the tokens of a header spell them. The sign of a literal is a token of its own there, so
blanks may stand between it and the digits; this changes no value. Whatever blanks stand in such a
text, the evaluator finds the value of the tree in it or none.
-/

namespace LibSurvey.Expression
open Text (Blanks Spaced Tight)

variable {constants moreConstants : ConstantSet} {macros : MacroSet}

namespace Tree

/-- The value of a tree, if its names have values and its shifts are by 0 to 63. -/
def meaning? (constants : ConstantSet) : Tree → Option Int64
  | .literal text => Literal.ofChars? text
  | .name text => constants[String.ofList text]?
  | .group inner => inner.meaning? constants
  | .bitwise op operands => fold? op.onWords (operands.map fun t => t.meaning? constants)
  | .shift op left right => do
    shift? op (← left.meaning? constants) (← right.meaning? constants)

/-- The lexemes of a literal, its sign apart. -/
def literalLexemes : List Char → List Lexeme
  | '-' :: rest => [.mark "-", .number (String.ofList (Text.trimLeft rest))]
  | '+' :: rest => [.mark "+", .number (String.ofList (Text.trimLeft rest))]
  | text => [.number (String.ofList text)]

def lexemes : Tree → List Lexeme
  | .literal text => literalLexemes text
  | .name text => [.word (String.ofList text)]
  | .group inner => .mark "(" :: (inner.lexemes ++ [.mark ")"])
  | .bitwise op operands =>
    [.mark (String.singleton op.char)].intercalate (operands.map fun t => t.lexemes)
  | .shift op left right =>
    left.lexemes ++ .mark (String.ofList op.token) :: right.lexemes

/-- The marks of operators and parentheses. -/
def treeMarks : List String :=
  ["(", ")", "|", "&", "<<", ">>"]

/-- What holds of every lexeme of a literal, of names and of marks holds of all lexemes of a tree. -/
theorem forall_lexemes {p : Lexeme → Prop}
    (literal : ∀ text, (Literal.ofChars? text).isSome → Tight text →
      ∀ lexeme ∈ literalLexemes text, p lexeme)
    (name : ∀ text, isName text = true → p (.word (String.ofList text)))
    (mark : ∀ text ∈ treeMarks, p (.mark text)) {tree : Tree} (formed : tree.Formed) :
    ∀ lexeme ∈ tree.lexemes, p lexeme := by
  induction formed with
  | @literal text hliteral tight =>
      rw [lexemes]
      exact literal text hliteral tight
  | @name text hname => simpa [lexemes] using name text hname
  | group _ ih =>
      intro lexeme h
      simp only [lexemes, List.mem_cons, List.mem_append, List.not_mem_nil, or_false] at h
      rcases h with rfl | h | rfl
      · exact mark "(" (by decide)
      · exact ih lexeme h
      · exact mark ")" (by decide)
  | @bitwise op operands _ _ _ ih =>
      intro lexeme h
      rw [lexemes] at h
      rcases Text.mem_intercalate h with rfl | ⟨part, hpart, hmem⟩
      · exact mark _ (by cases op <;> decide)
      · obtain ⟨operand, hoperand, rfl⟩ := List.mem_map.mp hpart
        exact ih operand hoperand lexeme hmem
  | @shift op left right _ _ _ _ ihl ihr =>
      intro lexeme h
      simp only [lexemes, List.mem_append, List.mem_cons] at h
      rcases h with h | rfl | h
      · exact ihl lexeme h
      · exact mark _ (by cases op <;> decide)
      · exact ihr lexeme h

/-- A tree has its meaning as its value exactly where it resolves. -/
theorem denotes_meaning? {tree : Tree} (formed : tree.Formed) :
    Denotes (tree.meaning? constants) (tree.Resolves constants) (tree.bits constants) := by
  induction formed with
  | @literal text literal _ =>
      obtain ⟨value, hvalue⟩ := Option.isSome_iff_exists.mp literal
      simp [Denotes, meaning?, Resolves, bits, hvalue, ← Int64.toBitVec_inj, eq_comm]
  | @name text _ =>
      intro v
      cases hv : constants[String.ofList text]? with
      | none => simp [meaning?, Resolves, hv]
      | some value => simp [meaning?, Resolves, bits, hv, ← Int64.toBitVec_inj, eq_comm]
  | group _ ih => rwa [meaning?, Resolves, bits]
  | @bitwise op operands two _ _ ih =>
      have nonempty : operands ≠ [] := by rintro rfl; simp at two
      rw [meaning?, Resolves, bits]
      refine denotes_fold? nonempty (List.forall₂_map_right_iff.mpr (List.forall₂_same.mpr ?_))
      exact ih
  | @shift op left right _ _ _ _ ihl ihr =>
      rw [meaning?, Resolves, bits]
      exact ihl.shift ihr op

/-- A value stays the value when more is known. -/
theorem meaning?_mono {tree : Tree} (formed : tree.Formed)
    (hconstants : Extends moreConstants constants) {value : Int64}
    (found : tree.meaning? constants = some value) :
    tree.meaning? moreConstants = some value := by
  induction formed generalizing value with
  | literal _ _ => rwa [meaning?] at found ⊢
  | name _ =>
      rw [meaning?] at found ⊢
      exact hconstants _ _ found
  | group _ ih =>
      rw [meaning?] at found ⊢
      exact ih found
  | bitwise _ _ _ ih =>
      rw [meaning?] at found ⊢
      exact fold?_mono (fun operand hmem _ hvalue => ih operand hmem hvalue) found
  | shift _ _ _ _ ihl ihr =>
      simp only [meaning?, Option.bind_eq_bind, Option.bind_eq_some_iff] at found ⊢
      obtain ⟨left, hleft, amount, hamount, hshift⟩ := found
      exact ⟨left, ihl hleft, amount, ihr hamount, hshift⟩

end Tree

/-- The texts of lexemes. -/
def spelling (lexemes : List Lexeme) : List (List Char) :=
  lexemes.map fun lexeme => lexeme.text.toList

namespace Tree

/-- A tree of the same shape and value that a text is written as. -/
def Respelled (tree : Tree) (text : List Char) : Prop :=
  ∃ other : Tree, other.Formed ∧ other.rank = tree.rank ∧ Spaced other.tokens text ∧
    ∀ constants, other.meaning? constants = tree.meaning? constants

/-- Blanks after the sign of a literal do not count. -/
theorem ofChars?_signed {sign : Char} (hsign : sign = '-' ∨ sign = '+') {a b : List Char}
    (ha : Tight (sign :: a)) (hb : Tight (sign :: b)) (same : Text.trimLeft a = Text.trimLeft b) :
    Literal.ofChars? (sign :: a) = Literal.ofChars? (sign :: b) := by
  rw [Literal.ofChars?, Literal.ofChars?, Text.trim_of_tight ha, Text.trim_of_tight hb]
  rcases hsign with rfl | rfl
  · rw [Literal.splitSign, Literal.splitSign, same]
  · rw [Literal.splitSign, Literal.splitSign, same]

theorem tight_digits {sign : Char} (hsign : sign = '-' ∨ sign = '+') {rest : List Char}
    (literal : (Literal.ofChars? (sign :: rest)).isSome) (tight : Tight (sign :: rest)) :
    Tight (Text.trimLeft rest) := by
  refine ⟨Text.trimLeft_trimLeft rest, ?_, fun hempty => ?_⟩
  · exact Text.trimRight_suffix tight.right
      ((List.dropWhile_suffix _).trans (List.suffix_cons sign rest))
  · rw [Literal.ofChars?, Text.trim_of_tight tight] at literal
    rcases hsign with rfl | rfl <;> simp [Literal.splitSign, hempty] at literal

theorem tight_literal {text : List Char} (literal : (Literal.ofChars? text).isSome)
    (tight : Tight text) : ∀ lexeme ∈ literalLexemes text, Tight lexeme.text.toList := by
  unfold literalLexemes
  split
  · have hdigits := tight_digits (.inl rfl) literal tight
    simp [Lexeme.mark, Lexeme.number, hdigits, Text.tight_of_solid, Text.isBlank]
  · have hdigits := tight_digits (.inr rfl) literal tight
    simp [Lexeme.mark, Lexeme.number, hdigits, Text.tight_of_solid, Text.isBlank]
  · simpa [Lexeme.number] using tight

theorem tight_lexemes {tree : Tree} (formed : tree.Formed) :
    ∀ lexeme ∈ tree.lexemes, Tight lexeme.text.toList := by
  refine forall_lexemes (fun _ literal tight => tight_literal literal tight) (fun text hname => ?_)
    (fun text hmark => ?_) formed
  · simpa [Lexeme.word] using tight_of_isName hname
  · have hsolid : ∀ mark ∈ treeMarks, mark.toList ≠ [] ∧ mark.toList.any Text.isBlank = false := by
      decide
    exact Text.tight_of_solid (hsolid text hmark).1 (hsolid text hmark).2

theorem mem_literalLexemes {text : List Char} {lexeme : Lexeme} (h : lexeme ∈ literalLexemes text)
    {c : Char} (hc : c ∈ lexeme.text.toList) : c ∈ text := by
  have hdigits {rest : List Char} (h : c ∈ Text.trimLeft rest) : c ∈ rest :=
    (List.dropWhile_suffix _).mem h
  unfold literalLexemes at h
  split at h
  · simp only [List.mem_cons, List.not_mem_nil, or_false] at h
    rcases h with rfl | rfl
    · simpa [Lexeme.mark] using Or.inl hc
    · exact List.mem_cons_of_mem _ (hdigits (by simpa [Lexeme.number] using hc))
  · simp only [List.mem_cons, List.not_mem_nil, or_false] at h
    rcases h with rfl | rfl
    · simpa [Lexeme.mark] using Or.inl hc
    · exact List.mem_cons_of_mem _ (hdigits (by simpa [Lexeme.number] using hc))
  · rw [List.mem_singleton.mp h] at hc
    simpa [Lexeme.number] using hc

/-- A literal with blanks between its sign and its digits. -/
theorem respelled_signed {sign : Char} (hsign : sign = '-' ∨ sign = '+') {rest text : List Char}
    (literal : (Literal.ofChars? (sign :: rest)).isSome) (tight : Tight (sign :: rest))
    (spelled : Spaced [[sign], Text.trimLeft rest] text) :
    Respelled (.literal (sign :: rest)) text := by
  have hdigits := tight_digits hsign literal tight
  have hsolid : Text.isBlank sign = false := by rcases hsign with rfl | rfl <;> decide
  cases spelled with
  | cons hbefore hrest =>
      obtain ⟨gap, after, rfl, hgap, hafter⟩ := Text.spaced_singleton_split hrest
      have hother : Tight (sign :: (gap ++ Text.trimLeft rest)) :=
        ⟨by simp [Text.trimLeft, hsolid],
          by rw [Text.trimRight_cons hsolid, Text.trimRight_append_tight hdigits], by simp⟩
      have hvalue : Literal.ofChars? (sign :: (gap ++ Text.trimLeft rest)) =
          Literal.ofChars? (sign :: rest) :=
        ofChars?_signed hsign hother tight
          (by rw [Text.trimLeft_blanks_append hgap, Text.trimLeft_trimLeft])
      refine ⟨.literal (sign :: (gap ++ Text.trimLeft rest)), .literal (hvalue ▸ literal) hother, rfl,
        ?_, fun _ => by rw [meaning?, meaning?, hvalue]⟩
      have hspaced : Spaced [sign :: (gap ++ Text.trimLeft rest)] _ := .cons hbefore (.nil hafter)
      simpa [tokens] using hspaced

theorem respelled_operands {operands : List Tree} {texts : List (List Char)}
    (h : List.Forall₂ Respelled operands texts) :
    ∃ others : List Tree, others.length = operands.length ∧ (∀ t ∈ others, t.Formed) ∧
      (∀ t ∈ others, ∃ operand ∈ operands, t.rank = operand.rank) ∧
      List.Forall₂ (fun t x => Spaced t.tokens x) others texts ∧
      ∀ constants, (others.map fun t => t.meaning? constants) =
        operands.map fun t => t.meaning? constants := by
  induction h with
  | nil => exact ⟨[], rfl, nofun, nofun, .nil, fun _ => rfl⟩
  | @cons operand _ operands _ hoperand _ ih =>
      obtain ⟨other, formed, hrank, hspaced, hmeaning⟩ := hoperand
      obtain ⟨others, hlength, hformed, hranks, hall, hmeanings⟩ := ih
      refine ⟨other :: others, by simp [hlength], List.forall_mem_cons.mpr ⟨formed, hformed⟩, ?_,
        .cons hspaced hall, fun constants => by simp [hmeaning, hmeanings]⟩
      refine List.forall_mem_cons.mpr ⟨⟨operand, List.mem_cons_self, hrank⟩, fun t ht => ?_⟩
      obtain ⟨known, hknown, hrank⟩ := hranks t ht
      exact ⟨known, List.mem_cons_of_mem operand hknown, hrank⟩

/-- Whatever blanks stand between the lexemes of a tree, a tree of the same value is written as the
text. -/
theorem respelled {tree : Tree} (formed : tree.Formed) {text : List Char}
    (spelled : Spaced (spelling tree.lexemes) text) : Respelled tree text := by
  induction formed generalizing text with
  | @literal body literal tight =>
      rw [lexemes] at spelled
      unfold literalLexemes at spelled
      split at spelled
      · refine respelled_signed (.inl rfl) literal tight ?_
        simpa [spelling, Lexeme.mark, Lexeme.number] using spelled
      · refine respelled_signed (.inr rfl) literal tight ?_
        simpa [spelling, Lexeme.mark, Lexeme.number] using spelled
      · refine ⟨.literal body, .literal literal tight, rfl, ?_, fun _ => rfl⟩
        simpa [spelling, Lexeme.number, tokens] using spelled
  | @name body hname =>
      refine ⟨.name body, .name hname, rfl, ?_, fun _ => rfl⟩
      simpa [spelling, lexemes, Lexeme.word, tokens] using spelled
  | @group inner formed ih =>
      have hparts : spelling (Tree.group inner).lexemes =
          ['('] :: (spelling inner.lexemes ++ [[')']]) := by
        simp [spelling, lexemes, Lexeme.mark]
      rw [hparts] at spelled
      cases spelled with
      | cons hbefore hrest =>
          obtain ⟨x, y, rfl, hx, hy⟩ := Text.spaced_append_split hrest
          obtain ⟨other, hformed, -, hspaced, hmeaning⟩ := ih hx
          refine ⟨.group other, .group hformed, rfl, ?_, fun constants => ?_⟩
          · rw [tokens]
            exact .cons hbefore (Text.spaced_append hspaced hy)
          · rw [meaning?, hmeaning, meaning?]
  | @bitwise op operands two weaker formed ih =>
      have nonempty : operands ≠ [] := by rintro rfl; simp at two
      have hparts : spelling (Tree.bitwise op operands).lexemes =
          [[op.char]].intercalate (operands.map fun t => spelling t.lexemes) := by
        rw [lexemes, spelling, Text.map_intercalate, List.map_map]
        simp [Lexeme.mark, spelling, Function.comp_def]
      rw [hparts] at spelled
      obtain ⟨texts, hall, rfl⟩ := Text.spaced_intercalate_split nonempty spelled
      have each : ∀ t ∈ operands, ∀ x, Spaced (spelling t.lexemes) x → Respelled t x :=
        fun t ht _ => ih t ht
      have hrespelled : List.Forall₂ Respelled operands texts :=
        ((List.forall₂_and_left _ _).mpr ⟨each, hall⟩).imp fun _ x h => h.1 x h.2
      obtain ⟨others, hlength, hformed, hranks, hspaced, hmeaning⟩ := respelled_operands hrespelled
      refine ⟨.bitwise op others, .bitwise (hlength ▸ two) (fun t ht => ?_) hformed, rfl, ?_,
        fun constants => by rw [meaning?, hmeaning, meaning?]⟩
      · obtain ⟨operand, hoperand, hrank⟩ := hranks t ht
        exact hrank ▸ weaker operand hoperand
      · rw [tokens]
        exact Text.spaced_intercalate hspaced
  | @shift op left right hl hr formedLeft formedRight ihl ihr =>
      have hparts : spelling (Tree.shift op left right).lexemes =
          spelling left.lexemes ++ op.token :: spelling right.lexemes := by
        simp [spelling, lexemes, Lexeme.mark]
      rw [hparts] at spelled
      obtain ⟨x, y, rfl, hx, hy⟩ := Text.spaced_cons_split spelled
      obtain ⟨otherLeft, hformedLeft, hrankLeft, hspacedLeft, hleft⟩ := ihl hx
      obtain ⟨otherRight, hformedRight, hrankRight, hspacedRight, hright⟩ := ihr hy
      refine ⟨.shift op otherLeft otherRight, .shift (hrankLeft ▸ hl) (hrankRight ▸ hr) hformedLeft
        hformedRight, rfl, ?_, fun constants => by rw [meaning?, hleft, hright, meaning?]⟩
      rw [tokens]
      exact Text.spaced_cons_append hspacedLeft hspacedRight

end Tree

/-- The value that is found in the text of a tree is its meaning. -/
theorem meaning?_of_evaluate {tree : Tree} (formed : tree.Formed) {expression : String}
    (spelled : Spaced (spelling tree.lexemes) expression.toList) {value : Int64}
    (found : evaluate constants macros expression = .ok value) :
    tree.meaning? constants = some value := by
  obtain ⟨other, hformed, -, hspaced, hmeaning⟩ := Tree.respelled formed spelled
  have hdenotes : Denotes (value? constants macros (maxDepth + 1) expression.toList)
      (other.height < maxDepth + 1 ∧ other.Resolves constants) (other.bits constants) :=
    Tree.denotes_spaced hformed hspaced (maxDepth + 1)
  obtain ⟨⟨-, hresolves⟩, hbits⟩ := (hdenotes value).mp (evaluate_eq_ok_iff.mp found)
  rw [← hmeaning]
  exact (Tree.denotes_meaning? hformed value).mpr ⟨hresolves, hbits⟩

end LibSurvey.Expression
