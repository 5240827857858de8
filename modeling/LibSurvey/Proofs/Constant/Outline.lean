import LibSurvey.Proofs.Constant.Known
import LibSurvey.Proofs.Constant.Numeral
import LibSurvey.Proofs.Text.Split

/-!
The outline of a text: operands and operators outside parentheses. It is read in one pass, whereas the
evaluator looks for one operator after another, and no text has a value in which an operator lacks an
operand. Whether a text with such an outline has a value is not said here.
-/

namespace LibSurvey.Expression
open Text (Blanks)

/-- What was read last outside parentheses, blanks apart. -/
inductive Last where
  /-- Nothing yet or an operator: an operand has to follow. -/
  | start
  | operand
  | minus
  /-- The first half of a shift. -/
  | half (c : Char)
  /-- An operator without an operand; the text has no value. -/
  | jammed
deriving DecidableEq

def Last.next (c : Char) : Last → Last
  | .jammed => .jammed
  | .half d => if c = d then .start else .jammed
  | last =>
    if c = '|' || c = '&' then if last = .operand then .start else .jammed
    else if c = '<' || c = '>' then if last = .operand then .half c else .jammed
    else if Text.isBlank c then last
    else if c = '-' then .minus
    else .operand

/-- A parenthesis opens. -/
def Last.opened : Last → Last
  | .half _ => .jammed
  | last => last

/-- The last parenthesis closes. -/
def Last.closed : Last → Last
  | .jammed => .jammed
  | _ => .operand

/-- One character more; the number counts the open parentheses. -/
def outlineStep (state : Int × Last) (c : Char) : Int × Last :=
  if c = '(' then (state.1 + 1, if state.1 = 0 then state.2.opened else state.2)
  else if c = ')' then (state.1 - 1, if state.1 = 1 then state.2.closed else state.2)
  else if state.1 = 0 then (0, state.2.next c)
  else state

def outline (state : Int × Last) (text : List Char) : Int × Last :=
  text.foldl outlineStep state

/-- The operators of a text have their operands. -/
def Outlined (text : List Char) : Prop :=
  outline (0, .start) text = (0, .operand)

variable {state : Int × Last} {last : Last} {depth : Int} {text : List Char}

@[simp] theorem outline_nil : outline state [] = state := rfl

@[simp] theorem outline_cons (c : Char) :
    outline state (c :: text) = outline (outlineStep state c) text := rfl

@[simp] theorem outline_append (a b : List Char) :
    outline state (a ++ b) = outline (outline state a) b :=
  List.foldl_append

theorem outlineStep_jammed (c : Char) : (outlineStep (depth, .jammed) c).2 = .jammed := by
  unfold outlineStep
  split
  · simp [Last.opened]
  split
  · simp [Last.closed]
  split
  · rfl
  · rfl

/-- What is jammed stays so. -/
theorem outline_jammed (h : state.2 = .jammed) (text : List Char) :
    (outline state text).2 = .jammed := by
  induction text generalizing state with
  | nil => exact h
  | cons c text ih =>
      obtain ⟨depth, last⟩ := state
      obtain rfl : last = .jammed := h
      exact ih (outlineStep_jammed c)

theorem outlineStep_inert {c : Char} (h : Inert c) : outlineStep (0, last) c = (0, last.next c) := by
  have ho : c ≠ '(' := by rintro rfl; exact absurd h (by decide)
  have hc : c ≠ ')' := by rintro rfl; exact absurd h (by decide)
  simp [outlineStep, ho, hc]

/-- What may stand before an operand. -/
def Last.awaits (last : Last) : Prop :=
  last = .start ∨ last = .operand ∨ last = .minus

theorem next_inert {c : Char} (h : Inert c) (hlast : last.awaits) :
    last.next c = if Text.isBlank c then last else if c = '-' then .minus else .operand := by
  have hor : c ≠ '|' := by rintro rfl; exact absurd h (by decide)
  have hand : c ≠ '&' := by rintro rfl; exact absurd h (by decide)
  have hleft : c ≠ '<' := by rintro rfl; exact absurd h (by decide)
  have hright : c ≠ '>' := by rintro rfl; exact absurd h (by decide)
  rcases hlast with rfl | rfl | rfl <;> simp [Last.next, hor, hand, hleft, hright]

theorem outline_blanks (hlast : last.awaits) (h : Blanks text) :
    outline (0, last) text = (0, last) := by
  induction text with
  | nil => rfl
  | cons c text ih =>
      obtain ⟨hc, htext⟩ := List.forall_mem_cons.mp h
      rw [outline_cons, outlineStep_inert (inert_of_isBlank hc),
        next_inert (inert_of_isBlank hc) hlast, if_pos hc]
      exact ih htext

/-- The characters of names are an operand. -/
theorem outline_nameChars (hlast : last.awaits) (nonempty : text ≠ [])
    (h : ∀ c ∈ text, isNameChar c = true) : outline (0, last) text = (0, .operand) := by
  induction text generalizing last with
  | nil => exact absurd rfl nonempty
  | cons c text ih =>
      obtain ⟨hc, htext⟩ := List.forall_mem_cons.mp h
      have hminus : c ≠ '-' := by rintro rfl; exact absurd hc (by decide)
      rw [outline_cons, outlineStep_inert (inert_of_isNameChar hc),
        next_inert (inert_of_isNameChar hc) hlast, isBlank_of_isNameChar hc, if_neg (by simp),
        if_neg hminus]
      by_cases hnil : text = []
      · rw [hnil, outline_nil]
      · exact ih (.inr (.inl rfl)) hnil htext

/-- Parentheses that close are an operand, whatever they hold. -/
theorem outline_closing {depth : Nat} {seen rest inner after : List Char}
    (h : closing? depth seen rest = some (inner, after)) (last : Last) :
    ∃ more, inner = seen.reverse ++ more ∧ rest = more ++ ')' :: after ∧
      outline (depth + 1, last) (more ++ [')']) = (0, last.closed) := by
  fun_induction closing? depth seen rest with
  | case1 => cases h
  | case2 depth seen rest ih =>
      obtain ⟨more, rfl, rfl, hmore⟩ := ih h
      refine ⟨'(' :: more, by simp, rfl, ?_⟩
      have hdepth : ¬((depth : Int) + 1 = 0) := by omega
      rw [List.cons_append, outline_cons, outlineStep, if_pos rfl, if_neg hdepth]
      exact hmore
  | case3 seen rest =>
      cases h
      exact ⟨[], by simp, rfl, rfl⟩
  | case4 seen rest depth ih =>
      obtain ⟨more, rfl, rfl, hmore⟩ := ih h
      refine ⟨')' :: more, by simp, rfl, ?_⟩
      have hone : ¬(((depth + 1 : Nat) : Int) + 1 = 1) := by omega
      have hdepth : ((depth + 1 : Nat) : Int) + 1 - 1 = (depth : Int) + 1 := by omega
      rw [List.cons_append, outline_cons, outlineStep, if_neg (by decide), if_pos rfl, if_neg hone]
      simp only [hdepth]
      exact hmore
  | case5 depth seen c rest hopen hclose ih =>
      obtain ⟨more, rfl, rfl, hmore⟩ := ih h
      refine ⟨c :: more, by simp, rfl, ?_⟩
      have hdepth : ¬((depth : Int) + 1 = 0) := by omega
      rw [List.cons_append, outline_cons, outlineStep, if_neg hopen, if_neg hclose, if_neg hdepth]
      exact hmore

theorem outlined_of_trim (h : Outlined (Text.trim text)) : Outlined text := by
  obtain ⟨before, after, hbefore, hafter, htext⟩ := Text.exists_trim text
  rw [Outlined, htext, outline_append, outline_append, outline_blanks (.inl rfl) hbefore, h]
  exact outline_blanks (.inr (.inl rfl)) hafter

/-- Parentheses that hold the whole text are an operand. -/
theorem outline_enclosed {inner : List Char} (h : enclosed? text = some inner)
    (hlast : last.awaits) : outline (0, last) text = (0, .operand) := by
  unfold enclosed? at h
  split at h
  · split at h
    · rename_i hclosing
      obtain ⟨more, -, rfl, hmore⟩ := outline_closing hclosing last
      have hopened : last.opened = last := by rcases hlast with rfl | rfl | rfl <;> rfl
      have hclosed : last.closed = .operand := by rcases hlast with rfl | rfl | rfl <;> rfl
      have hstep : outlineStep (0, last) '(' = (((0 : Nat) : Int) + 1, last) := by
        rw [outlineStep, if_pos rfl, if_pos rfl, hopened]
        rfl
      rw [outline_cons, hstep, hmore, hclosed]
    · cases h
  · cases h

theorem outlined_literal (h : (Literal.ofChars? text).isSome) : Outlined text := by
  obtain ⟨v, hv⟩ := Option.isSome_iff_exists.mp h
  obtain ⟨negative, base, n, ⟨sign, hsign, gap, body, suffix, hgap, hbody, hsuffix, htrim⟩, -⟩ :=
    Literal.ofChars?_eq_some_iff_spelled.mp hv
  obtain ⟨c, rest, hparts, -⟩ := Literal.head_marked hbody
  have hchars : ∀ d ∈ body ++ suffix, isNameChar d = true := by
    intro d hd
    rcases List.mem_append.mp hd with hd | hd
    · exact Literal.isNameChar_of_isBody (Literal.isBody_of_marked hbody hd)
    · exact Literal.isNameChar_of_isBody
        (Literal.isBody_of_isSuffixChar (Literal.isSuffix_iff.mp hsuffix d hd))
  have hfirst : ∃ last : Last, last.awaits ∧ outline (0, .start) sign = (0, last) := by
    have hcases : sign = [] ∨ sign = ['-'] ∨ sign = ['+'] := by
      cases negative with
      | true => exact .inr (.inl (by simpa [Literal.signs] using hsign))
      | false =>
          have : sign = [] ∨ sign = ['+'] := by simpa [Literal.signs] using hsign
          tauto
    rcases hcases with rfl | rfl | rfl
    · exact ⟨.start, .inl rfl, rfl⟩
    · exact ⟨.minus, .inr (.inr rfl), by decide⟩
    · exact ⟨.operand, .inr (.inl rfl), by decide⟩
  obtain ⟨last, hlast, hsigned⟩ := hfirst
  refine outlined_of_trim ?_
  rw [Outlined, htrim, outline_append, hsigned, outline_append, outline_blanks hlast hgap]
  exact outline_nameChars hlast (by simp [hparts]) hchars

theorem outlined_name (h : isName text = true) : Outlined text := by
  refine outline_nameChars (.inl rfl) ?_ fun c hc => isNameChar_of_isName h hc
  rintro rfl
  cases h

theorem outlined_call {name arguments : List Char} (h : splitCall? text = some (name, arguments)) :
    Outlined text := by
  by_cases hopen : '(' ∈ text
  · obtain ⟨front, rest, rfl, hfront⟩ := List.eq_append_cons_of_mem hopen
    rw [splitCall?_open hfront] at h
    split at h
    · obtain ⟨inner, hinner, -⟩ := Option.map_eq_some_iff.mp h
      have houtlined := outlined_of_trim (outlined_name ‹_›)
      rw [Outlined, outline_append, houtlined]
      exact outline_enclosed hinner (.inr (.inl rfl))
    · cases h
  · rw [splitCall?_unopened hopen] at h
    cases h

theorem intercalate_splitTopFrom (op : Char) (depth : Int) (current : List Char)
    (pieces : List (List Char)) (text : List Char) :
    [op].intercalate (splitTopFrom op depth current pieces text) =
      [op].intercalate (pieces.reverse ++ [current.reverse ++ text]) := by
  have operator {c : Char} {depth : Int} (h : (c = op && depth = 0) = true) : c = op :=
    of_decide_eq_true (Bool.and_eq_true_iff.mp h).1
  have divided (current : List Char) (pieces : List (List Char)) (rest : List Char) :
      [op].intercalate ((current.reverse :: pieces).reverse ++ [rest]) =
        [op].intercalate (pieces.reverse ++ [current.reverse ++ op :: rest]) := by
    rw [← Text.intercalate_append_pair]
    simp
  fun_induction splitTopFrom op depth current pieces text with
  | case1 => simp
  | case2 _ _ _ _ ih | case3 _ _ _ _ ih => rw [ih]; simp
  | case4 _ _ _ _ _ _ _ _ _ _ ih => rw [ih]; simp
  | case5 _ _ _ _ _ _ hop _ _ _ ih =>
      rw [ih, operator hop]
      exact divided _ _ _
  | case6 _ _ _ _ _ _ hop ih =>
      rw [ih, operator hop]
      exact divided _ _ _
  | case7 _ _ _ _ _ _ _ _ ih => rw [ih]; simp

/-- The pieces between the operators make up the text again. -/
theorem intercalate_splitTop (op : Char) (text : List Char) :
    [op].intercalate (splitTop op text) = text := by
  rw [splitTop, intercalate_splitTopFrom]
  simp

theorem outlined_intercalate (op : Bitwise) {pieces : List (List Char)} (nonempty : pieces ≠ [])
    (h : ∀ piece ∈ pieces, Outlined piece) : Outlined ([op.char].intercalate pieces) := by
  induction pieces with
  | nil => exact absurd rfl nonempty
  | cons piece pieces ih =>
      obtain ⟨hpiece, hpieces⟩ := List.forall_mem_cons.mp h
      cases pieces with
      | nil => rwa [List.intercalate_singleton]
      | cons next pieces =>
          have hop : outline (0, .operand) [op.char] = (0, .start) := by cases op <;> decide
          rw [List.intercalate_cons_cons, Outlined, outline_append, outline_append, hpiece, hop]
          exact ih (List.cons_ne_nil next pieces) hpieces

/-- The texts on the sides of a shift make up the text with it. -/
theorem lastShiftFrom_parts {depth : Int} {seen : List Char} {found : Option ShiftSplit}
    {total : List Char} {split : ShiftSplit} (htotal : seen.reverse ++ text = total)
    (hfound : ∀ earlier ∈ found, total = earlier.left ++ (earlier.op.token ++ earlier.right))
    (h : lastShiftFrom depth seen found text = some split) :
    total = split.left ++ (split.op.token ++ split.right) := by
  fun_induction lastShiftFrom depth seen found text with
  | case1 => exact hfound split h
  | case2 => exact hfound split h
  | case3 _ _ _ _ _ ih | case4 _ _ _ _ _ ih => exact ih (by simpa using htotal) hfound h
  | case5 _ _ _ _ _ _ _ _ hshift ih =>
      simp only [Bool.and_eq_true, decide_eq_true_eq] at hshift
      obtain ⟨⟨rfl, rfl⟩, -⟩ := hshift
      refine ih (by simpa using htotal) ?_ h
      rintro earlier ⟨⟩
      exact htotal.symm
  | case6 _ _ _ _ _ _ _ _ _ hshift ih =>
      simp only [Bool.and_eq_true, decide_eq_true_eq] at hshift
      obtain ⟨⟨rfl, rfl⟩, -⟩ := hshift
      refine ih (by simpa using htotal) ?_ h
      rintro earlier ⟨⟩
      exact htotal.symm
  | case7 _ _ _ _ _ _ _ _ _ _ ih => exact ih (by simpa using htotal) hfound h

theorem outlined_shift {split : ShiftSplit} (h : lastShift? text = some split)
    (left : Outlined split.left) (right : Outlined split.right) : Outlined text := by
  have hparts := lastShiftFrom_parts rfl (by simp) h
  have hop : outline (0, .operand) split.op.token = (0, .start) := by
    cases split.op <;> decide
  rw [Outlined, show text = [].reverse ++ text from rfl, hparts, outline_append, outline_append,
    left, hop]
  exact right

theorem foldl_isSome {op : Int64 → Int64 → Int64} {values : List (Option Int64)}
    {sum : Option Int64} {v : Int64}
    (h : values.foldl (fun sum value => do return op (← sum) (← value)) sum = some v) :
    sum.isSome ∧ ∀ value ∈ values, value.isSome := by
  induction values generalizing sum with
  | nil => exact ⟨by rw [show sum = some v from h]; rfl, by simp⟩
  | cons value values ih =>
      obtain ⟨hsum, hvalues⟩ := ih h
      obtain ⟨joined, hjoined⟩ := Option.isSome_iff_exists.mp hsum
      simp only [Option.pure_def, Option.bind_eq_bind, Option.bind_eq_some_iff] at hjoined
      obtain ⟨left, rfl, right, rfl, -⟩ := hjoined
      exact ⟨rfl, List.forall_mem_cons.mpr ⟨rfl, hvalues⟩⟩

theorem isSome_of_fold? {op : Int64 → Int64 → Int64} {values : List (Option Int64)} {v : Int64}
    (h : fold? op values = some v) : ∀ value ∈ values, value.isSome := by
  cases values with
  | nil => cases h
  | cons first rest => exact List.forall_mem_cons.mpr (foldl_isSome h)

/-- In a text with a value every operator has its operands. -/
theorem outlined_of_value? {constants : ConstantSet} {macros : MacroSet} {steps : Nat} {v : Int64}
    (h : value? constants macros steps text = some v) : Outlined text := by
  induction steps generalizing text v with
  | zero => cases h
  | succ steps ih =>
      refine outlined_of_trim ?_
      rw [value?_succ] at h
      unfold form at h
      generalize Text.trim text = text at h ⊢
      have part {piece : List Char} (hpiece : (value? constants macros steps piece).isSome) :
          Outlined piece := by
        obtain ⟨w, hw⟩ := Option.isSome_iff_exists.mp hpiece
        exact ih hw
      have pieces (op : Bitwise) (hfold : fold? op.onWords
          ((splitTop op.char text).map (value? constants macros steps)) = some v) :
          Outlined text := by
        have hvalues := isSome_of_fold? hfold
        rw [List.forall_mem_map] at hvalues
        rw [← intercalate_splitTop op.char text]
        refine outlined_intercalate op (fun hnone => ?_) fun piece hpiece => part (hvalues piece hpiece)
        rw [hnone] at hfold
        cases hfold
      simp only at h
      split at h
      · cases h
      split at h
      · exact outline_enclosed ‹_› (.inl rfl)
      split at h
      · exact outlined_literal (by simp [*])
      split at h
      · exact pieces .or h
      split at h
      · exact pieces .and h
      split at h
      · rename_i split hsplit
        simp only [Form.value?, Option.bind_eq_bind, Option.bind_eq_some_iff] at h
        obtain ⟨left, hleft, right, hright, -⟩ := h
        exact outlined_shift hsplit (ih hleft) (ih hright)
      split at h
      · exact outlined_name ‹_›
      · simp only [Form.value?, expandCall?, Option.bind_eq_bind, Option.bind_eq_some_iff] at h
        obtain ⟨expansion, ⟨⟨name, arguments⟩, hcall, -⟩, -⟩ := h
        exact outlined_call hcall

/-- A text has no value if something jams outside its parentheses whatever stands before it. -/
theorem value?_jammed (constants : ConstantSet) (macros : MacroSet) (steps : Nat)
    {before mid : List Char} (level : (outline (0, .start) before).1 = 0)
    (jams : ∀ last, (outline (0, last) mid).2 = .jammed) (after : List Char) :
    value? constants macros steps (before ++ (mid ++ after)) = none := by
  refine Option.eq_none_iff_forall_ne_some.mpr fun v h => ?_
  have houtlined := outlined_of_value? h
  have hbefore : outline (0, .start) before = (0, (outline (0, .start) before).2) :=
    Prod.ext level rfl
  rw [Outlined, outline_append, hbefore, outline_append] at houtlined
  have hjammed := outline_jammed (jams (outline (0, .start) before).2) after
  rw [houtlined] at hjammed
  cases hjammed

end LibSurvey.Expression
