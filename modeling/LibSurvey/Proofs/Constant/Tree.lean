import LibSurvey.Constant.Evaluate
import LibSurvey.Proofs.Text.Spaced

/-!
Expressions without calls of macros, as trees, with the tokens they are written as and their meaning
as patterns of 64 bits. Operators on any number of operands stay lists, so a tree has the shape that
its text shows. That a text is read back as its tree is a separate obligation.
-/

namespace LibSurvey.Expression

/-- The operators that join any number of operands. -/
inductive Bitwise where
  | or
  | and
deriving DecidableEq, Repr

namespace Bitwise

def char : Bitwise → Char
  | .or => '|'
  | .and => '&'

def onBits : Bitwise → BitVec 64 → BitVec 64 → BitVec 64
  | .or => (· ||| ·)
  | .and => (· &&& ·)

/-- The pattern that changes no other. -/
def neutral : Bitwise → BitVec 64
  | .or => 0#64
  | .and => BitVec.allOnes 64

/-- How tightly an operator binds. -/
def rank : Bitwise → Nat
  | .or => 0
  | .and => 1

end Bitwise

namespace Shift

def token : Shift → List Char
  | .left => ['<', '<']
  | .right => ['>', '>']

/-- To the left without the bits that leave the word, to the right with copies of the sign. -/
def onBits : Shift → BitVec 64 → Nat → BitVec 64
  | .left, bits, amount => bits <<< amount
  | .right, bits, amount => bits.sshiftRight amount

end Shift

inductive Tree where
  | literal (text : List Char)
  | name (text : List Char)
  | group (inner : Tree)
  | bitwise (op : Bitwise) (operands : List Tree)
  | shift (op : Shift) (left right : Tree)

namespace Tree

/-- How tightly the outermost operator binds; a shift binds as an operator of rank 2, and a tree
without an operator outside parentheses has rank 3. -/
def rank : Tree → Nat
  | .bitwise op _ => op.rank
  | .shift _ _ _ => 2
  | _ => 3

/-- What can be written without further parentheses: operands bind tighter than their operator, and
only the left side of a shift is a shift. -/
inductive Formed : Tree → Prop where
  | literal {text : List Char} : (Literal.ofChars? text).isSome → Text.Tight text →
      Formed (.literal text)
  | name {text : List Char} : isName text = true → Formed (.name text)
  | group {inner : Tree} : Formed inner → Formed (.group inner)
  | bitwise {op : Bitwise} {operands : List Tree} : 2 ≤ operands.length →
      (∀ t ∈ operands, op.rank < t.rank) → (∀ t ∈ operands, Formed t) →
      Formed (.bitwise op operands)
  | shift {op : Shift} {left right : Tree} : 2 ≤ left.rank → right.rank = 3 →
      Formed left → Formed right → Formed (.shift op left right)

def tokens : Tree → List (List Char)
  | .literal text | .name text => [text]
  | .group inner => ['('] :: inner.tokens ++ [[')']]
  | .bitwise op operands => [[op.char]].intercalate (operands.map fun t => t.tokens)
  | .shift op left right => left.tokens ++ op.token :: right.tokens

/-- How many parentheses, lists and shifts stand inside one another at most. -/
def height : Tree → Nat
  | .literal _ | .name _ => 0
  | .group inner => 1 + inner.height
  | .bitwise _ operands => 1 + (operands.map fun t => t.height).foldr max 0
  | .shift _ left right => 1 + max left.height right.height

/-- The meaning of a tree; a name without a value counts as zero. -/
def bits (constants : ConstantSet) : Tree → BitVec 64
  | .literal text => ((Literal.ofChars? text).getD 0).toBitVec
  | .name text => (constants[String.ofList text]?.getD 0).toBitVec
  | .group inner => inner.bits constants
  | .bitwise op operands =>
      (operands.map fun t => t.bits constants).foldl op.onBits op.neutral
  | .shift op left right => op.onBits (left.bits constants) (right.bits constants).toNat

/-- Every name has a value and every shift an amount from 0 to 63. -/
def Resolves (constants : ConstantSet) : Tree → Prop
  | .literal _ => True
  | .name text => constants[String.ofList text]?.isSome
  | .group inner => inner.Resolves constants
  | .bitwise _ operands => ∀ t ∈ operands, t.Resolves constants
  | .shift _ left right =>
      left.Resolves constants ∧ right.Resolves constants ∧
        0 ≤ (right.bits constants).toInt ∧ (right.bits constants).toInt ≤ 63

theorem foldr_max_lt {heights : List Nat} {bound : Nat} (h : heights ≠ []) :
    heights.foldr max 0 < bound ↔ ∀ n ∈ heights, n < bound := by
  induction heights with
  | nil => exact absurd rfl h
  | cons n heights ih =>
      cases heights with
      | nil => simp
      | cons m heights =>
          have := ih (by simp)
          simp only [List.foldr_cons] at this ⊢
          rw [Nat.max_lt, this]
          simp

theorem height_bitwise_lt {op : Bitwise} {operands : List Tree} {steps : Nat}
    (h : operands ≠ []) :
    (Tree.bitwise op operands).height < steps + 1 ↔ ∀ t ∈ operands, t.height < steps := by
  have hmap : operands.map (fun t => t.height) ≠ [] := by simpa using h
  rw [height, Nat.add_comm, Nat.add_lt_add_iff_right, foldr_max_lt hmap]
  simp

end Tree
end LibSurvey.Expression
