import LibSurvey.Proofs.Constant.Clear
import LibSurvey.Proofs.Constant.Literal
import LibSurvey.Proofs.Constant.Tree
import LibSurvey.Proofs.Text.Join
import LibSurvey.Proofs.Word

/-!
The texts that trees are written as. Whatever blanks stand between the tokens, the parentheses of such
a text match, and outside of them stands no operator that binds weaker than the outermost one of the
tree. Values are not considered here.
-/

namespace LibSurvey.Expression
open Text (Blanks Tight Spaced)

/-- Neither a parenthesis nor a part of an operator. -/
def Inert (c : Char) : Prop :=
  c ∉ ['(', ')', '|', '&', '<', '>']

instance : DecidablePred Inert :=
  fun c => inferInstanceAs (Decidable (c ∉ ['(', ')', '|', '&', '<', '>']))

theorem inert_of_class {p : Char → Bool} {c : Char} (h : p c = true)
    (hp : ['(', ')', '|', '&', '<', '>'].any p = false) : Inert c :=
  fun hc => List.any_eq_false.mp hp c hc h

theorem inert_of_isBlank {c : Char} (h : Text.isBlank c = true) : Inert c :=
  inert_of_class h rfl

theorem inert_of_isNameChar {c : Char} (h : isNameChar c = true) : Inert c :=
  inert_of_class h rfl

theorem inert_of_literal {text : List Char} (h : (Literal.ofChars? text).isSome) {c : Char}
    (hc : c ∈ text) : Inert c := by
  rcases Literal.chars_of_ofChars? h hc with rfl | rfl | hb | hb
  · decide
  · decide
  · exact inert_of_isBlank hb
  · exact inert_of_class (p := fun c => decide (Literal.IsBody c)) (by simpa using hb) (by decide)

/-- A text that holds a parenthesis or a part of an operator is no literal. -/
theorem ofChars?_eq_none {text : List Char} {c : Char} (hc : c ∈ text) (h : ¬Inert c) :
    Literal.ofChars? text = none := by
  cases hl : Literal.ofChars? text with
  | none => rfl
  | some value => exact absurd (inert_of_literal (by simp [hl]) hc) h

theorem Bitwise.forall_iff {p : Bitwise → Prop} : (∀ op, p op) ↔ p .or ∧ p .and :=
  ⟨fun h => ⟨h .or, h .and⟩, fun h op => by cases op <;> simp [h]⟩

/-- What may stand outside parentheses in a tree of such a rank: no operator that binds weaker. -/
def Free (rank : Nat) (c : Char) : Prop :=
  (∀ op : Bitwise, op.rank < rank → c ≠ op.char) ∧ (2 < rank → c ≠ '<' ∧ c ≠ '>')

theorem free_of_inert {rank : Nat} {c : Char} (h : Inert c) : Free rank c := by
  constructor
  · rintro op _ rfl
    cases op <;> exact absurd h (by decide)
  · intro _
    constructor <;> rintro rfl <;> exact absurd h (by decide)

theorem Free.mono {low high : Nat} {c : Char} (h : Free high c) (hr : low ≤ high) : Free low c :=
  ⟨fun op hop => h.1 op (Nat.lt_of_lt_of_le hop hr), fun hl => h.2 (Nat.lt_of_lt_of_le hl hr)⟩

/-- An operator may stand where it is the outermost one itself. -/
theorem free_self (op : Bitwise) : Free op.rank op.char := by
  cases op <;> simp [Free, Bitwise.forall_iff, Bitwise.rank, Bitwise.char]

theorem clear_of_inert (rank : Nat) {text : List Char} (h : ∀ c ∈ text, Inert c) :
    Clear (Free rank) text := by
  apply clear_of_chars
  intro c hc
  have hi := h c hc
  refine ⟨?_, ?_, free_of_inert hi⟩ <;> rintro rfl <;> exact absurd hi (by decide)

theorem clear_blanks {rank : Nat} {blanks : List Char} (h : Blanks blanks) :
    Clear (Free rank) blanks :=
  clear_of_inert rank fun c hc => inert_of_isBlank (h c hc)

theorem inert_of_isName {text : List Char} (h : isName text = true) {c : Char} (hc : c ∈ text) :
    Inert c :=
  inert_of_isNameChar (isNameChar_of_isName h hc)

theorem tight_op (op : Bitwise) : Tight [op.char] := by
  apply Text.tight_of_solid (by simp)
  cases op <;> decide

theorem tight_shift (op : Shift) : Tight op.token := by
  cases op <;> exact Text.tight_of_solid (by decide) (by decide)

theorem exists_of_mem_right {α β : Type} {R : α → β → Prop} {as : List α} {bs : List β}
    (h : List.Forall₂ R as bs) {b : β} (hb : b ∈ bs) : ∃ a ∈ as, R a b := by
  induction h with
  | nil => exact absurd hb (by simp)
  | @cons a _ as _ hab _ ih =>
      rcases List.mem_cons.mp hb with rfl | hb
      · exact ⟨a, by simp, hab⟩
      · obtain ⟨a', ha', hr⟩ := ih hb
        exact ⟨a', List.mem_cons_of_mem a ha', hr⟩

theorem clear_intercalate {p : Char → Prop} {op : Char} (hp : p op) (ho : op ≠ '(') (hc : op ≠ ')')
    {texts : List (List Char)} (h : ∀ x ∈ texts, Clear p x) :
    Clear p ([op].intercalate texts) := by
  induction texts with
  | nil => exact .nil
  | cons x texts ih =>
      cases texts with
      | nil => simpa using h x (by simp)
      | cons y texts =>
          rw [List.intercalate_cons_cons, List.append_assoc]
          exact (h x (by simp)).append (.char ho hc hp (ih fun z hz => h z (by simp [hz])))

namespace Tree

theorem tight_of_mem_tokens {tree : Tree} (formed : tree.Formed) {token : List Char}
    (h : token ∈ tree.tokens) : Tight token := by
  induction formed with
  | literal _ tight =>
      rw [tokens, List.mem_singleton] at h
      exact h ▸ tight
  | name hname =>
      rw [tokens, List.mem_singleton] at h
      exact h ▸ tight_of_isName hname
  | group _ ih =>
      simp only [tokens, List.cons_append, List.mem_cons, List.mem_append, List.not_mem_nil,
        or_false] at h
      rcases h with rfl | h | rfl
      · exact Text.tight_of_solid (by decide) (by decide)
      · exact ih h
      · exact Text.tight_of_solid (by decide) (by decide)
  | @bitwise op operands _ _ _ ih =>
      rw [tokens] at h
      rcases Text.mem_intercalate h with rfl | ⟨l, hl, ht⟩
      · exact tight_op op
      · obtain ⟨t, hmem, rfl⟩ := List.mem_map.mp hl
        exact ih t hmem ht
  | @shift op _ _ _ _ _ _ ihl ihr =>
      simp only [tokens, List.mem_append, List.mem_cons] at h
      rcases h with h | rfl | h
      · exact ihl h
      · exact tight_shift op
      · exact ihr h

theorem tokens_ne_nil {tree : Tree} (formed : tree.Formed) : tree.tokens ≠ [] := by
  induction formed with
  | literal _ _ | name _ | group _ _ => simp [tokens]
  | @bitwise op operands two _ _ ih =>
      rcases operands with _ | ⟨t, _ | ⟨u, operands⟩⟩
      case nil => exact absurd two (by simp)
      case cons.nil => exact absurd two (by simp)
      case cons.cons => simp [tokens, List.intercalate_cons_cons]
  | shift _ _ _ _ _ _ => simp [tokens]

theorem spaced_ne_nil {tree : Tree} (formed : tree.Formed) {text : List Char}
    (spelled : Spaced tree.tokens text) : text ≠ [] := by
  obtain ⟨token, tokens, heq⟩ := List.exists_cons_of_ne_nil (tokens_ne_nil formed)
  rw [heq] at spelled
  exact Text.spaced_ne_nil (tight_of_mem_tokens formed (by simp [heq])) spelled

/-- An operator outside the parentheses of a tree binds at least as tightly as its outermost one. -/
theorem clear_of_spaced {tree : Tree} (formed : tree.Formed) {text : List Char}
    (spelled : Spaced tree.tokens text) : Clear (Free tree.rank) text := by
  induction formed generalizing text with
  | @literal body hliteral _ =>
      rw [tokens] at spelled
      obtain ⟨before, after, rfl, hb, ha⟩ := Text.spaced_singleton_split spelled
      have hbody := clear_of_inert 3 fun c hc => inert_of_literal hliteral hc
      exact (clear_blanks hb).append (hbody.append (clear_blanks ha))
  | @name body hname =>
      rw [tokens] at spelled
      obtain ⟨before, after, rfl, hb, ha⟩ := Text.spaced_singleton_split spelled
      have hbody := clear_of_inert 3 fun c hc => inert_of_isName hname hc
      exact (clear_blanks hb).append (hbody.append (clear_blanks ha))
  | @group inner _ ih =>
      rw [tokens] at spelled
      obtain ⟨x, z, rfl, hx, hz⟩ := Text.spaced_append_split spelled
      obtain ⟨before, after, rfl, hb, ha⟩ := Text.spaced_singleton_split hz
      cases hx with
      | @cons first _ y _ hf hy =>
          have hinner := ((ih hy).append (clear_blanks hb)).mono (q := fun _ => True) (by simp)
          have hgroup : Clear (Free 3) ('(' :: ((y ++ before) ++ ')' :: after)) :=
            .group hinner (clear_blanks ha)
          change Clear (Free 3) _
          simpa using (clear_blanks hf).append hgroup
  | @bitwise op operands two weaker _ ih =>
      rw [tokens] at spelled
      have nonempty : operands ≠ [] := by rintro rfl; simp at two
      obtain ⟨texts, hall, rfl⟩ := Text.spaced_intercalate_split nonempty spelled
      apply clear_intercalate (free_self op) (by cases op <;> decide) (by cases op <;> decide)
      intro x hx
      obtain ⟨t, ht, hs⟩ := exists_of_mem_right hall hx
      exact (ih t ht hs).mono fun _ h => h.mono (Nat.le_of_lt (weaker t ht))
  | @shift op left right hl hr _ _ ihl ihr =>
      rw [tokens] at spelled
      obtain ⟨x, y, rfl, hx, hy⟩ := Text.spaced_cons_split spelled
      have hop : Clear (Free 2) op.token := by
        apply clear_of_chars
        cases op <;> simp [Shift.token, Free, Bitwise.forall_iff, Bitwise.char]
      have hright : Clear (Free 2) y := (ihr hy).mono fun _ h => h.mono (by omega)
      exact ((ihl hx).mono fun _ h => h.mono hl).append (hop.append hright)

end Tree

theorem enclosed?_inert {text : List Char} (h : ∀ c ∈ text, Inert c) : enclosed? text = none := by
  cases text with
  | nil => rfl
  | cons c text =>
      have hc : c ≠ '(' := by
        rintro rfl
        exact absurd (h '(' (by simp)) (by decide)
      simp [enclosed?, hc]

theorem ofChars?_name {text : List Char} (h : isName text = true) :
    Literal.ofChars? text = none := by
  have htight := tight_of_isName h
  have htrim : Text.trim text = text := Text.trim_of_tight htight
  cases text with
  | nil => rfl
  | cons c rest =>
      simp only [isName, Bool.and_eq_true] at h
      have hminus : c ≠ '-' := by rintro rfl; exact absurd h.1 (by decide)
      have hplus : c ≠ '+' := by rintro rfl; exact absurd h.1 (by decide)
      have hdigit : c.isDigit = false := not_isDigit_of_isNameStart h.1
      simp [Literal.ofChars?, htrim, Literal.splitSign, hminus, hplus, hdigit]

theorem splitTop_free {rank : Nat} {text : List Char} (h : Clear (Free rank) text) {op : Bitwise}
    (weaker : op.rank < rank) : splitTop op.char text = [text] :=
  splitTop_clear h fun _ hc => hc.1 op weaker

theorem Clear.starts {rank : Nat} {text : List Char} (h : Clear (Free rank) text)
    (nonempty : text ≠ []) {op : Bitwise} (weaker : op.rank < rank) :
    ∃ d r, text = d :: r ∧ d ≠ op.char := by
  cases h with
  | nil => exact absurd rfl nonempty
  | char _ _ hc _ => exact ⟨_, _, rfl, hc.1 op weaker⟩
  | group _ _ => exact ⟨_, _, rfl, by cases op <;> decide⟩

theorem lastShiftFrom_token (op : Shift) (seen : List Char) (found : Option ShiftSplit)
    (rest : List Char) :
    lastShiftFrom 0 seen found (op.token ++ rest) =
      lastShiftFrom 0 (op.token.reverse ++ seen) (some ⟨seen.reverse, op, rest⟩) rest := by
  cases op <;> simp [Shift.token, lastShiftFrom]

namespace Tree

theorem lastShiftFrom_atom {tree : Tree} (formed : tree.Formed) (rank : tree.rank = 3)
    {text : List Char} (spelled : Spaced tree.tokens text) (seen : List Char)
    (found : Option ShiftSplit) {rest : List Char} (more : rest ≠ []) :
    lastShiftFrom 0 seen found (text ++ rest) =
      lastShiftFrom 0 (text.reverse ++ seen) found rest := by
  have hfree : (0 : Int) = 0 → ∀ c, Free tree.rank c → c ≠ '<' ∧ c ≠ '>' :=
    fun _ _ hc => hc.2 (by omega)
  exact lastShiftFrom_clear (clear_of_spaced formed spelled) (Int.le_refl 0) hfree _ _ more

/-- The left side of a shift is passed over, whatever shifts are found in it. -/
theorem lastShiftFrom_spaced {tree : Tree} (formed : tree.Formed) (rank : 2 ≤ tree.rank)
    {text : List Char} (spelled : Spaced tree.tokens text) (seen : List Char)
    (found : Option ShiftSplit) {rest : List Char} (more : rest ≠ []) :
    ∃ later, lastShiftFrom 0 seen found (text ++ rest) =
      lastShiftFrom 0 (text.reverse ++ seen) later rest := by
  induction formed generalizing text seen found rest with
  | literal hl ht => exact ⟨found, lastShiftFrom_atom (.literal hl ht) rfl spelled _ _ more⟩
  | name hn => exact ⟨found, lastShiftFrom_atom (.name hn) rfl spelled _ _ more⟩
  | group hi _ => exact ⟨found, lastShiftFrom_atom (.group hi) rfl spelled _ _ more⟩
  | @bitwise op _ _ _ _ _ => cases op <;> simp [Tree.rank, Bitwise.rank] at rank
  | @shift op left right hl hr _ formedRight ihl _ =>
      rw [tokens] at spelled
      obtain ⟨x, y, rfl, hx, hy⟩ := Text.spaced_cons_split spelled
      -- Shifts of the left side are found on the way, and the operator after them replaces them.
      have hmore : op.token ++ (y ++ rest) ≠ [] := by simp [more]
      obtain ⟨later, hlater⟩ := ihl hl hx seen found hmore
      refine ⟨some ⟨(x.reverse ++ seen).reverse, op, y ++ rest⟩, ?_⟩
      rw [List.append_assoc, List.append_assoc, hlater, lastShiftFrom_token,
        lastShiftFrom_atom formedRight hr hy _ _ more]
      simp

/-- A shift is divided at its own operator, which is the last one. -/
theorem lastShift?_spaced {left right : Tree} (formedLeft : left.Formed)
    (formedRight : right.Formed) (rankLeft : 2 ≤ left.rank) (rankRight : right.rank = 3)
    {x y : List Char} (hx : Spaced left.tokens x) (hy : Spaced right.tokens y) (op : Shift) :
    lastShift? (x ++ (op.token ++ y)) = some ⟨x, op, y⟩ := by
  have more : op.token ++ y ≠ [] := by simp [spaced_ne_nil formedRight hy]
  obtain ⟨later, hlater⟩ := lastShiftFrom_spaced formedLeft rankLeft hx [] none more
  have hright := clear_of_spaced formedRight hy
  rw [lastShift?, hlater, lastShiftFrom_token,
    lastShiftFrom_clear_end hright fun c hc => hc.2 (by omega)]
  simp

end Tree

end LibSurvey.Expression
