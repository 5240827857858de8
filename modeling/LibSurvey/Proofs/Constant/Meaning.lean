import LibSurvey.Proofs.Constant.Form
import LibSurvey.Proofs.Constant.Grammar

/-!
Evaluation of written trees. Each step of the evaluator works on text and divides it again; these laws
show that it divides the text of a tree exactly where the tree divides, so that the value is the
meaning of the tree as long as the tree is not too high. Calls of macros remain a separate obligation.
-/

namespace LibSurvey.Expression
open Text (Blanks Tight Spaced)

variable {constants : ConstantSet} {macros : MacroSet}

theorem Bitwise.toBitVec_onWords (op : Bitwise) (a b : Int64) :
    (op.onWords a b).toBitVec = op.onBits a.toBitVec b.toBitVec := by
  cases op <;> rfl

theorem Bitwise.onBits_neutral (op : Bitwise) (bits : BitVec 64) :
    op.onBits op.neutral bits = bits := by
  cases op with
  | or => exact BitVec.zero_or
  | and => exact BitVec.allOnes_and

theorem smod_width {amount : BitVec 64} (low : 0 ≤ amount.toInt) (high : amount.toInt ≤ 63) :
    amount.smod 64 = amount := by
  apply BitVec.eq_of_toInt_eq
  have hwidth : (64 : BitVec 64).toInt = 64 := by decide
  rw [BitVec.toInt_smod, hwidth, Int.fmod_eq_emod_of_nonneg _ (by decide)]
  omega

theorem shift?_eq_some_iff {op : Shift} {value amount v : Int64} :
    shift? op value amount = some v ↔
      0 ≤ amount.toBitVec.toInt ∧ amount.toBitVec.toInt ≤ 63 ∧
        v.toBitVec = op.onBits value.toBitVec amount.toBitVec.toNat := by
  have hlow : 0 ≤ amount ↔ 0 ≤ amount.toBitVec.toInt := Int64.le_iff_toInt_le
  have hhigh : amount < 64 ↔ amount.toBitVec.toInt < 64 := Int64.lt_iff_toInt_lt
  unfold shift?
  by_cases h : 0 ≤ amount ∧ amount < 64
  · have h0 := hlow.mp h.1
    have h63 : amount.toBitVec.toInt ≤ 63 := Int.lt_add_one_iff.mp (hhigh.mp h.2)
    simp only [h.1, h.2, decide_true, Bool.and_self, ite_true, Option.some.injEq, h0, h63, true_and]
    rw [← Int64.toBitVec_inj, eq_comm]
    cases op with
    | left =>
        rw [Int64.toBitVec_shiftLeft, smod_width h0 h63, BitVec.shiftLeft_eq', Shift.onBits]
    | right =>
        rw [Int64.toBitVec_shiftRight, smod_width h0 h63, BitVec.sshiftRight_eq', Shift.onBits]
  · have hout : ¬(0 ≤ amount.toBitVec.toInt ∧ amount.toBitVec.toInt ≤ 63) := fun hr =>
      h ⟨hlow.mpr hr.1, hhigh.mpr (Int.lt_add_one_iff.mpr hr.2)⟩
    simp only [← Bool.decide_and, decide_eq_true_eq, h, ite_false, reduceCtorEq, false_iff]
    exact fun hr => hout ⟨hr.1, hr.2.1⟩

/-- An optional value is there exactly under a condition, and then has these bits. -/
def Denotes (value : Option Int64) (condition : Prop) (bits : BitVec 64) : Prop :=
  ∀ v, value = some v ↔ condition ∧ v.toBitVec = bits

theorem Denotes.join {op : Bitwise} {x y : Option Int64} {p q : Prop} {a b : BitVec 64}
    (hx : Denotes x p a) (hy : Denotes y q b) :
    Denotes (do return op.onWords (← x) (← y)) (p ∧ q) (op.onBits a b) := by
  intro v
  simp only [Option.pure_def, Option.bind_eq_bind, Option.bind_eq_some_iff, Option.some.injEq]
  constructor
  · rintro ⟨u, hu, w, hw, rfl⟩
    obtain ⟨hp, rfl⟩ := (hx u).mp hu
    obtain ⟨hq, rfl⟩ := (hy w).mp hw
    exact ⟨⟨hp, hq⟩, op.toBitVec_onWords u w⟩
  · rintro ⟨⟨hp, hq⟩, hv⟩
    refine ⟨.ofBitVec a, (hx _).mpr ⟨hp, rfl⟩, .ofBitVec b, (hy _).mpr ⟨hq, rfl⟩, ?_⟩
    rw [← Int64.toBitVec_inj, op.toBitVec_onWords, hv, Int64.toBitVec_ofBitVec,
      Int64.toBitVec_ofBitVec]

theorem Denotes.shift {x y : Option Int64} {p q : Prop} {a b : BitVec 64} (hx : Denotes x p a)
    (hy : Denotes y q b) (op : Shift) :
    Denotes (do shift? op (← x) (← y)) (p ∧ q ∧ 0 ≤ b.toInt ∧ b.toInt ≤ 63)
      (op.onBits a b.toNat) := by
  intro v
  simp only [Option.bind_eq_bind, Option.bind_eq_some_iff, shift?_eq_some_iff]
  constructor
  · rintro ⟨u, hu, w, hw, hlow, hhigh, hv⟩
    obtain ⟨hp, rfl⟩ := (hx u).mp hu
    obtain ⟨hq, rfl⟩ := (hy w).mp hw
    exact ⟨⟨hp, hq, hlow, hhigh⟩, hv⟩
  · rintro ⟨⟨hp, hq, hlow, hhigh⟩, hv⟩
    refine ⟨.ofBitVec a, (hx _).mpr ⟨hp, rfl⟩, .ofBitVec b, (hy _).mpr ⟨hq, rfl⟩, ?_⟩
    simpa only [Int64.toBitVec_ofBitVec] using ⟨hlow, hhigh, hv⟩

/-- Folding has a value exactly if every operand has one. -/
theorem denotes_fold? {op : Bitwise} {α : Type} {items : List α} {values : List (Option Int64)}
    {condition : α → Prop} {bits : α → BitVec 64} (nonempty : items ≠ [])
    (h : List.Forall₂ (fun item value => Denotes value (condition item) (bits item)) items values) :
    Denotes (fold? op.onWords values) (∀ item ∈ items, condition item)
      ((items.map bits).foldl op.onBits op.neutral) := by
  have run {items : List α} {values : List (Option Int64)}
      (h : List.Forall₂ (fun item value => Denotes value (condition item) (bits item)) items values)
      {first : Option Int64} {p : Prop} {a : BitVec 64} (hf : Denotes first p a) :
      Denotes (values.foldl (fun sum value => do return op.onWords (← sum) (← value)) first)
        (p ∧ ∀ item ∈ items, condition item) ((items.map bits).foldl op.onBits a) := by
    induction h generalizing first p a with
    | nil => simpa [Denotes] using hf
    | cons hv _ ih => simpa [Denotes, and_assoc] using ih (hf.join hv)
  cases h with
  | nil => exact absurd rfl nonempty
  | cons hv hall =>
      have := run hall hv
      simpa [fold?, op.onBits_neutral] using this

theorem value?_bitwise {op : Bitwise} {steps : Nat} {text : List Char}
    (nonempty : Text.trim text ≠ []) (divided : enclosed? (Text.trim text) = none)
    (literal : Literal.ofChars? (Text.trim text) = none)
    (weaker : ∀ other : Bitwise, other.rank < op.rank →
      splitTop other.char (Text.trim text) = [Text.trim text])
    (several : 1 < (splitTop op.char (Text.trim text)).length) :
    value? constants macros (steps + 1) text =
      fold? op.onWords
        ((splitTop op.char (Text.trim text)).map fun part => value? constants macros steps part) := by
  have hempty : (Text.trim text).isEmpty = false := by simpa using nonempty
  have hform : form text = .bitwise op (splitTop op.char (Text.trim text)) := by
    rw [form, hempty, divided, literal]
    cases op with
    | or =>
        have hor : 1 < (splitTop '|' (Text.trim text)).length := several
        simp only [Bool.false_eq_true, ite_false, hor, ite_true]
        rfl
    | and =>
        have hor : splitTop '|' (Text.trim text) = [Text.trim text] := weaker .or (by decide)
        have hand : 1 < (splitTop '&' (Text.trim text)).length := several
        simp only [Bool.false_eq_true, ite_false, hor, List.length_singleton, Nat.lt_irrefl, hand,
          ite_true]
        rfl
  rw [value?_succ, hform, Form.value?]

theorem value?_shift {split : ShiftSplit} {steps : Nat} {text : List Char}
    (nonempty : Text.trim text ≠ []) (divided : enclosed? (Text.trim text) = none)
    (literal : Literal.ofChars? (Text.trim text) = none)
    (single : ∀ op : Bitwise, splitTop op.char (Text.trim text) = [Text.trim text])
    (found : lastShift? (Text.trim text) = some split) :
    value? constants macros (steps + 1) text = (do
      let value ← value? constants macros steps split.left
      let amount ← value? constants macros steps split.right
      shift? split.op value amount) := by
  have hempty : (Text.trim text).isEmpty = false := by simpa using nonempty
  have hor : splitTop '|' (Text.trim text) = [Text.trim text] := single .or
  have hand : splitTop '&' (Text.trim text) = [Text.trim text] := single .and
  have hform : form text = .shift split := by
    rw [form, hempty, divided, literal]
    simp only [Bool.false_eq_true, ite_false, hor, hand, List.length_singleton, Nat.lt_irrefl, found]
  rw [value?_succ, hform, Form.value?]

theorem value?_name {steps : Nat} {text : List Char} (name : isName (Text.trim text) = true)
    (divided : enclosed? (Text.trim text) = none)
    (literal : Literal.ofChars? (Text.trim text) = none)
    (single : ∀ op : Bitwise, splitTop op.char (Text.trim text) = [Text.trim text])
    (unshifted : lastShift? (Text.trim text) = none) :
    value? constants macros (steps + 1) text = constants[String.ofList (Text.trim text)]? := by
  have hempty : (Text.trim text).isEmpty = false := by
    cases h : Text.trim text with
    | nil => rw [h] at name; exact absurd name (by decide)
    | cons c rest => rfl
  have hor : splitTop '|' (Text.trim text) = [Text.trim text] := single .or
  have hand : splitTop '&' (Text.trim text) = [Text.trim text] := single .and
  have hform : form text = .name (Text.trim text) := by
    rw [form, hempty, divided, literal]
    simp only [Bool.false_eq_true, ite_false, hor, hand, List.length_singleton, Nat.lt_irrefl,
      unshifted, name, ite_true]
  rw [value?_succ, hform, Form.value?]

theorem value?_group {p : Char → Prop} {inner : List Char} {steps : Nat} {text : List Char}
    (trimmed : Text.trim text = '(' :: (inner ++ [')'])) (clear : Clear p inner) :
    value? constants macros (steps + 1) text = value? constants macros steps inner := by
  have hform : form text = .group inner := by
    rw [form, trimmed, enclosed?_group clear]
    rfl
  rw [value?_succ, hform, Form.value?]

namespace Tree

theorem spaced_trim {tree : Tree} (formed : tree.Formed) {text : List Char}
    (spelled : Spaced tree.tokens text) : Spaced tree.tokens (Text.trim text) :=
  Text.spaced_trim (fun _ h => tight_of_mem_tokens formed h) spelled

theorem denotes_literal {token text : List Char} (literal : (Literal.ofChars? token).isSome)
    (tight : Tight token) (spelled : Spaced [token] text) (steps : Nat) :
    Denotes (value? constants macros (steps + 1) text)
      ((Tree.literal token).height < steps + 1 ∧ (Tree.literal token).Resolves constants)
      ((Tree.literal token).bits constants) := by
  obtain ⟨value, hvalue⟩ := Option.isSome_iff_exists.mp literal
  have htrim := Text.trim_spaced_singleton tight spelled
  have hempty : token.isEmpty = false := by simpa using tight.nonempty
  have hopen := enclosed?_inert fun c hc => inert_of_literal literal hc
  have hform : form text = .literal value := by
    rw [form, htrim, hempty, hopen, hvalue]
    rfl
  have : value? constants macros (steps + 1) text = some value := by
    rw [value?_succ, hform, Form.value?]
  simp [Denotes, this, height, Resolves, bits, hvalue, ← Int64.toBitVec_inj, eq_comm]

theorem denotes_name {name text : List Char} (hname : isName name = true)
    (spelled : Spaced [name] text) (steps : Nat) :
    Denotes (value? constants macros (steps + 1) text)
      ((Tree.name name).height < steps + 1 ∧ (Tree.name name).Resolves constants)
      ((Tree.name name).bits constants) := by
  have htrim := Text.trim_spaced_singleton (tight_of_isName hname) spelled
  have hinert : ∀ c ∈ name, Inert c := fun c hc => inert_of_isName hname hc
  have hclear := clear_of_inert 3 hinert
  have hshift : lastShift? name = none :=
    lastShiftFrom_clear_end hclear (fun c hc => hc.2 (by decide)) [] none
  have : value? constants macros (steps + 1) text = constants[String.ofList name]? := by
    rw [← htrim] at hname hinert hclear hshift ⊢
    exact value?_name hname (enclosed?_inert hinert) (ofChars?_name hname)
      (fun op => splitTop_free hclear (by cases op <;> decide)) hshift
  intro v
  rw [this]
  cases hv : constants[String.ofList name]? with
  | none => simp [height, Resolves, hv]
  | some value => simp [height, Resolves, bits, hv, ← Int64.toBitVec_inj, eq_comm]

theorem denotes_group {inner : Tree} (formed : inner.Formed) {text : List Char}
    (spelled : Spaced (Tree.group inner).tokens text) {steps : Nat}
    (ih : ∀ x, Spaced inner.tokens x → Denotes (value? constants macros steps x)
      (inner.height < steps ∧ inner.Resolves constants) (inner.bits constants)) :
    Denotes (value? constants macros (steps + 1) text)
      ((Tree.group inner).height < steps + 1 ∧ (Tree.group inner).Resolves constants)
      ((Tree.group inner).bits constants) := by
  rw [tokens] at spelled
  obtain ⟨x, y, rfl, hx, hy⟩ := Text.spaced_cons_split (b := []) spelled
  cases hx with
  | @cons before _ x _ hbefore hx =>
      cases hy with
      | nil hafter =>
          have htrim : Text.trim (before ++ (['('] ++ x) ++ ([')'] ++ y)) = '(' :: (x ++ [')']) := by
            have hopen : Tight ['('] := Text.tight_of_solid (by decide) (by decide)
            have hclose : Tight [')'] := Text.tight_of_solid (by decide) (by decide)
            rw [Text.trim, List.append_assoc, Text.trimLeft_blanks_append hbefore, List.append_assoc,
              Text.trimLeft_tight_append hopen, ← List.append_assoc, ← List.append_assoc,
              Text.trimRight_append_blanks hafter, Text.trimRight_append_tight hclose]
            simp
          rw [value?_group htrim (clear_of_spaced formed hx)]
          have := ih x hx
          simpa [Denotes, height, Resolves, bits, Nat.add_comm 1] using this

theorem denotes_bitwise {op : Bitwise} {operands : List Tree} (two : 2 ≤ operands.length)
    (weaker : ∀ t ∈ operands, op.rank < t.rank) (formed : ∀ t ∈ operands, t.Formed)
    {text : List Char} (spelled : Spaced (Tree.bitwise op operands).tokens text) {steps : Nat}
    (ih : ∀ t ∈ operands, ∀ x, Spaced t.tokens x → Denotes (value? constants macros steps x)
      (t.height < steps ∧ t.Resolves constants) (t.bits constants)) :
    Denotes (value? constants macros (steps + 1) text)
      ((Tree.bitwise op operands).height < steps + 1 ∧ (Tree.bitwise op operands).Resolves constants)
      ((Tree.bitwise op operands).bits constants) := by
  have hself := Formed.bitwise two weaker formed
  have nonempty : operands ≠ [] := by rintro rfl; simp at two
  have htrimmed := spaced_trim hself spelled
  have hclear := clear_of_spaced hself htrimmed
  rw [tokens] at htrimmed
  obtain ⟨texts, hall, hbody⟩ := Text.spaced_intercalate_split nonempty htrimmed
  have hlength := hall.length_eq
  obtain ⟨x, y, others, rfl⟩ : ∃ x y others, texts = x :: y :: others := by
    rcases texts with _ | ⟨x, _ | ⟨y, others⟩⟩
    case nil => simp only [List.length_nil] at hlength; omega
    case cons.nil => simp only [List.length_singleton] at hlength; omega
    case cons.cons => exact ⟨x, y, others, rfl⟩
  have hpieces : ∀ z ∈ x :: y :: others, Clear (Free (op.rank + 1)) z ∧ z ≠ [] := by
    intro z hz
    obtain ⟨t, ht, hs⟩ := exists_of_mem_right hall hz
    have hz := clear_of_spaced (formed t ht) hs
    exact ⟨hz.mono fun _ h => h.mono (weaker t ht), spaced_ne_nil (formed t ht) hs⟩
  have hsplit : splitTop op.char (Text.trim text) = x :: y :: others := by
    rw [hbody]
    refine splitTop_intercalate (by cases op <;> decide) (by cases op <;> decide)
      (fun _ hc => hc.1 op (Nat.lt_succ_self _)) (by simp) (fun z hz => (hpieces z hz).1) ?_
    exact fun z hz => (hpieces z hz).1.starts (hpieces z hz).2 (Nat.lt_succ_self _)
  -- The first operand and its operator show that the whole is neither in parentheses nor a literal.
  rw [List.intercalate_cons_cons, List.append_assoc] at hbody
  have hopen : enclosed? (Text.trim text) = none := by
    rw [hbody]
    exact enclosed?_append (hpieces x (by simp)).1 (hpieces x (by simp)).2 (by simp)
  have hliteral : Literal.ofChars? (Text.trim text) = none :=
    ofChars?_eq_none (c := op.char) (by simp [hbody]) (by cases op <;> decide)
  have hseveral : 1 < (splitTop op.char (Text.trim text)).length := by simp [hsplit]
  rw [value?_bitwise (by simp [hbody]) hopen hliteral (fun _ h => splitTop_free hclear h) hseveral,
    hsplit]
  have hparts := ((List.forall₂_and_left _ _).mpr ⟨ih, hall⟩).imp fun _ x h => h.1 x h.2
  have hdenotes : Denotes (fold? op.onWords _) _ _ :=
    denotes_fold? nonempty (List.forall₂_map_right_iff.mpr hparts)
  rw [height_bitwise_lt nonempty, Resolves, bits, ← forall₂_and]
  exact hdenotes

theorem denotes_shift {op : Shift} {left right : Tree} (rankLeft : 2 ≤ left.rank)
    (rankRight : right.rank = 3) (formedLeft : left.Formed) (formedRight : right.Formed)
    {text : List Char} (spelled : Spaced (Tree.shift op left right).tokens text) {steps : Nat}
    (ihl : ∀ x, Spaced left.tokens x → Denotes (value? constants macros steps x)
      (left.height < steps ∧ left.Resolves constants) (left.bits constants))
    (ihr : ∀ y, Spaced right.tokens y → Denotes (value? constants macros steps y)
      (right.height < steps ∧ right.Resolves constants) (right.bits constants)) :
    Denotes (value? constants macros (steps + 1) text)
      ((Tree.shift op left right).height < steps + 1 ∧ (Tree.shift op left right).Resolves constants)
      ((Tree.shift op left right).bits constants) := by
  have hself : (Tree.shift op left right).Formed := .shift rankLeft rankRight formedLeft formedRight
  have htrimmed := spaced_trim hself spelled
  have hclear := clear_of_spaced hself htrimmed
  rw [tokens] at htrimmed
  obtain ⟨x, y, hbody, hx, hy⟩ := Text.spaced_cons_split htrimmed
  have hfound := lastShift?_spaced formedLeft formedRight rankLeft rankRight hx hy op
  have hopen : enclosed? (Text.trim text) = none := by
    rw [hbody]
    exact enclosed?_append (clear_of_spaced formedLeft hx) (spaced_ne_nil formedLeft hx)
      (by cases op <;> simp [Shift.token])
  have hliteral : Literal.ofChars? (Text.trim text) = none := by
    cases op with
    | left => exact ofChars?_eq_none (c := '<') (by simp [hbody, Shift.token]) (by decide)
    | right => exact ofChars?_eq_none (c := '>') (by simp [hbody, Shift.token]) (by decide)
  rw [← hbody] at hfound
  rw [value?_shift (by simp [hbody, spaced_ne_nil formedLeft hx]) hopen hliteral
    (fun other => splitTop_free hclear (by cases other <;> simp [rank, Bitwise.rank])) hfound]
  intro v
  rw [(ihl x hx).shift (ihr y hy) op v, height, Resolves, bits, Nat.add_comm 1,
    Nat.add_lt_add_iff_right, Nat.max_lt]
  tauto

/-- The value of a written tree is its meaning, if there are steps enough for its height. -/
theorem denotes_spaced {tree : Tree} (formed : tree.Formed) {text : List Char}
    (spelled : Spaced tree.tokens text) (steps : Nat) :
    Denotes (value? constants macros steps text)
      (tree.height < steps ∧ tree.Resolves constants) (tree.bits constants) := by
  induction formed generalizing text steps with
  | literal hl ht =>
      cases steps with
      | zero => simp [Denotes, value?_zero]
      | succ steps => exact denotes_literal hl ht (by rwa [tokens] at spelled) steps
  | name hn =>
      cases steps with
      | zero => simp [Denotes, value?_zero]
      | succ steps => exact denotes_name hn (by rwa [tokens] at spelled) steps
  | group formed ih =>
      cases steps with
      | zero => simp [Denotes, value?_zero]
      | succ steps => exact denotes_group formed spelled fun x hx => ih hx steps
  | bitwise two weaker formed ih =>
      cases steps with
      | zero => simp [Denotes, value?_zero]
      | succ steps => exact denotes_bitwise two weaker formed spelled fun t ht x hx => ih t ht hx steps
  | shift hl hr formedLeft formedRight ihl ihr =>
      cases steps with
      | zero => simp [Denotes, value?_zero]
      | succ steps =>
          exact denotes_shift hl hr formedLeft formedRight spelled (fun x hx => ihl hx steps)
            fun y hy => ihr hy steps

end Tree

/-- A tree written with any blanks between its tokens has a value exactly if it is at most 16 high, all
its names are known and all its shifts are by 0 to 63; the value is its meaning. -/
theorem evaluate_spaced (constants : ConstantSet) (macros : MacroSet) {tree : Tree}
    (formed : tree.Formed) {text : List Char} (spelled : Spaced tree.tokens text) :
    (∀ v, evaluate constants macros (String.ofList text) = .ok v ↔
      (tree.height ≤ 16 ∧ tree.Resolves constants) ∧ v.toBitVec = tree.bits constants) ∧
    (¬(tree.height ≤ 16 ∧ tree.Resolves constants) →
      evaluate constants macros (String.ofList text) =
        .error (.unresolvableExpression (String.ofList (Text.trim text)))) := by
  have hdenotes : Denotes (value? constants macros (maxDepth + 1) text)
      (tree.height < maxDepth + 1 ∧ tree.Resolves constants) (tree.bits constants) :=
    Tree.denotes_spaced formed spelled (maxDepth + 1)
  have hheight : tree.height < maxDepth + 1 ↔ tree.height ≤ 16 := Nat.lt_succ_iff
  rw [hheight] at hdenotes
  unfold evaluate
  rw [String.toList_ofList]
  cases hv : value? constants macros (maxDepth + 1) text with
  | none =>
      refine ⟨fun v => ⟨fun h => by simp at h, fun h => ?_⟩, fun _ => rfl⟩
      rw [(hdenotes v).mpr h] at hv
      exact absurd hv (by simp)
  | some value =>
      have hvalue := (hdenotes value).mp hv
      refine ⟨fun v => ⟨fun h => ?_, fun h => ?_⟩, fun h => absurd hvalue.1 h⟩
      · obtain rfl : value = v := by simpa using h
        exact hvalue
      · rw [Except.ok.injEq, ← Int64.toBitVec_inj, hvalue.2, h.2]

/-- `A | (1<< 4)` with `A` standing for 3. -/
theorem evaluate_spaced_sum :
    evaluate ((∅ : ConstantSet).insert "A" 3) ∅ "A | (1<< 4)" = .ok 19 := by
  have hone : Tree.Formed (.literal ['1']) :=
    .literal (by decide) (Text.tight_of_solid (by decide) (by decide))
  have hfour : Tree.Formed (.literal ['4']) :=
    .literal (by decide) (Text.tight_of_solid (by decide) (by decide))
  have hgroup : Tree.Formed (.group (.shift .left (.literal ['1']) (.literal ['4']))) :=
    .group (.shift (by decide) rfl hone hfour)
  have formed : Tree.Formed
      (.bitwise .or [.name ['A'], .group (.shift .left (.literal ['1']) (.literal ['4']))]) :=
    .bitwise (by decide) (by simp [Tree.rank, Bitwise.rank])
      (by simp [Tree.Formed.name, isName, isNameStart, hgroup])
  have empty : Blanks [] := List.forall_mem_nil _
  have one : Blanks [' '] := List.forall_mem_singleton.mpr (by decide)
  have spelled : Spaced [['A'], ['|'], ['('], ['1'], ['<', '<'], ['4'], [')']]
      "A | (1<< 4)".toList :=
    .cons empty (.cons one (.cons one (.cons empty (.cons empty (.cons one (.cons empty
      (.nil empty)))))))
  refine ((evaluate_spaced _ _ formed
    (by simpa [Tree.tokens, Bitwise.char, Shift.token] using spelled)).1 19).mpr ⟨⟨?_, ?_⟩, ?_⟩
  · simp [Tree.height]
  · have : Literal.ofChars? ['4'] = some 4 := by decide
    simp [Tree.Resolves, Tree.bits, this]
  · have hone : Literal.ofChars? ['1'] = some 1 := by decide
    have hfour : Literal.ofChars? ['4'] = some 4 := by decide
    simp [Tree.bits, hone, hfour, Bitwise.onBits, Bitwise.neutral, Shift.onBits]

end LibSurvey.Expression
