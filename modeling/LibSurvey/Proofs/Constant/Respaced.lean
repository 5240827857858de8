import LibSurvey.Proofs.Constant.Outline
import LibSurvey.Proofs.Constant.Substitution
import Mathlib.Logic.Relation

/-!
Texts that differ in the blanks between their tokens. A blank may come or go wherever no name, number
or shift goes on, and whatever the evaluator cuts out of two such texts differs in such blanks again.
Where a blank parts two operators that would else be taken for one, neither text has a value.
-/

namespace LibSurvey.Expression
open Text (Blanks)

/-- A blank between two texts parts no name, number or shift: no character of names stands on both
sides, and between two halves of shifts the first one ends a shift or an arrow. -/
structure Joint (s t : List Char) : Prop where
  names : ∀ c ∈ s.getLast?, ∀ d ∈ t.head?, isNameChar c = true → isNameChar d = false
  shifts : ∀ c ∈ s.getLast?, c ∈ t.head? → c = '<' ∨ c = '>' →
    [c, c] <:+ s ∨ c = '>' ∧ ['-', c] <:+ s

/-- A text with one blank more at a joint. -/
inductive Widened : List Char → List Char → Prop where
  | blank {s t : List Char} {w : Char} : Text.isBlank w = true → Joint s t →
      Widened (s ++ t) (s ++ w :: t)

/-- The blank that is added stands within the text. -/
inductive Respace : List Char → List Char → Prop where
  | blank {s t : List Char} {w : Char} : s ≠ [] → t ≠ [] → Text.isBlank w = true → Joint s t →
      Respace (s ++ t) (s ++ w :: t)

/-- Texts that differ in blanks at joints. -/
def Respaced : List Char → List Char → Prop :=
  Relation.EqvGen Respace

/-- The same without the blanks around them. -/
def Alike (a b : List Char) : Prop :=
  Respaced (Text.trim a) (Text.trim b)

variable {s t : List Char} {w : Char}

theorem Joint.context (h : Joint s t) (hs : s ≠ []) (ht : t ≠ []) (u v : List Char) :
    Joint (u ++ s) (t ++ v) := by
  have hlast : (u ++ s).getLast? = s.getLast? := List.getLast?_append_of_ne_nil u hs
  have hhead : (t ++ v).head? = t.head? := List.head?_append_of_ne_nil t ht
  constructor
  · rw [hlast, hhead]
    exact h.names
  · rw [hlast, hhead]
    intro c hc hd hshift
    refine (h.shifts c hc hd hshift).imp (fun h => h.trans (List.suffix_append u s)) fun h => ?_
    exact ⟨h.1, h.2.trans (List.suffix_append u s)⟩

theorem Joint.of_front {v : List Char} (h : Joint s t) (hv : v <+: t) : Joint s v := by
  have hhead : ∀ d ∈ v.head?, d ∈ t.head? := by
    obtain ⟨more, rfl⟩ := hv
    cases v with
    | nil => simp
    | cons c v => exact fun d hd => hd
  exact ⟨fun c hc d hd => h.names c hc d (hhead d hd), fun c hc hd => h.shifts c hc (hhead c hd)⟩

/-- What is cut off in front of a joint leaves it as it is, unless it takes the first half of a
shift. -/
theorem Joint.of_suffix {u : List Char} (h : Joint (u ++ s) t)
    (cut : ∀ c, s = [c] → c ∈ t.head? → c = '<' ∨ c = '>' → ∀ x ∈ u.getLast?, x ∉ ['<', '>', '-']) :
    Joint s t := by
  by_cases hs : s = []
  · subst hs
    exact ⟨by simp, by simp⟩
  have hlast : (u ++ s).getLast? = s.getLast? := List.getLast?_append_of_ne_nil u hs
  refine ⟨fun c hc => h.names c (hlast ▸ hc), fun c hc hd hshift => ?_⟩
  have inner {x : Char} (hx : x ∈ ['<', '>', '-']) (hsuffix : [x, c] <:+ u ++ s) : [x, c] <:+ s := by
    by_cases hlong : 2 ≤ s.length
    · exact List.suffix_of_suffix_length_le hsuffix (List.suffix_append u s) hlong
    · obtain ⟨d, rfl⟩ : ∃ d, s = [d] := List.length_eq_one_iff.mp (by
        have := List.length_pos_of_ne_nil hs
        omega)
      obtain rfl : d = c := by simpa using hc
      obtain ⟨front, hfront⟩ := hsuffix
      have hu : u = front ++ [x] := by
        have : (front ++ [x]) ++ [d] = u ++ [d] := by simpa using hfront
        exact (List.append_cancel_right this).symm
      exact absurd hx (cut d rfl hd hshift x (by simp [hu]))
  rcases h.shifts c (hlast ▸ hc) hd hshift with hsuffix | ⟨rfl, hsuffix⟩
  · refine .inl (inner ?_ hsuffix)
    rcases hshift with rfl | rfl <;> simp
  · exact .inr ⟨rfl, inner (by simp) hsuffix⟩

theorem Joint.trim (h : Joint s t) :
    Joint (Text.trimLeft s) (Text.trimRight t) := by
  have hfront : s = s.takeWhile Text.isBlank ++ Text.trimLeft s :=
    List.takeWhile_append_dropWhile.symm
  obtain ⟨blanks, -, hblanks⟩ := Text.trimRight_append_end t
  refine (Joint.of_suffix (u := s.takeWhile Text.isBlank) (hfront ▸ h) ?_).of_front ⟨blanks, hblanks⟩
  intro c _ _ _ x hx hshift
  have hblank : Text.isBlank x = true :=
    List.all_eq_true.mp List.all_takeWhile x (List.mem_of_getLast? hx)
  simp only [List.mem_cons, List.not_mem_nil, or_false] at hshift
  rcases hshift with rfl | rfl | rfl <;> exact absurd hblank (by decide)

theorem joint_nil_left (t : List Char) : Joint [] t :=
  ⟨by simp, by simp⟩

theorem joint_nil_right (s : List Char) : Joint s [] :=
  ⟨by simp, by simp⟩

/-- Trimming a text with one blank more leaves the blank within the text or takes it away. -/
theorem Widened.trim {a b : List Char} (h : Widened a b) :
    Text.trim a = Text.trim b ∨ ∃ s t w, s ≠ [] ∧ t ≠ [] ∧ Text.isBlank w = true ∧ Joint s t ∧
      Text.trim a = s ++ t ∧ Text.trim b = s ++ w :: t := by
  cases h with
  | @blank s t w hw joint =>
      by_cases hs : Blanks s
      · left
        have hsw : Blanks (s ++ [w]) := Text.blanks_append hs (by simpa [Blanks] using hw)
        rw [Text.trim_blanks_append hs, ← List.singleton_append, ← List.append_assoc,
          Text.trim_blanks_append hsw]
      by_cases ht : Blanks t
      · left
        have hwt : Blanks (w :: t) := List.forall_mem_cons.mpr ⟨hw, ht⟩
        rw [Text.trim_append_blanks s ht, Text.trim_append_blanks s hwt]
      right
      have hwt : ¬Blanks (w :: t) := fun hblanks => ht (List.forall_mem_cons.mp hblanks).2
      have hright : Text.trimRight (w :: t) = w :: Text.trimRight t := by
        rw [← List.singleton_append, Text.trimRight_append_solid _ ht]
        rfl
      refine ⟨Text.trimLeft s, Text.trimRight t, w, fun hnil => ?_, fun hnil => ?_, hw,
        joint.trim, Text.trim_append hs ht, ?_⟩
      · exact Text.not_blanks_trimLeft hs (by simp [hnil, Blanks])
      · obtain ⟨blanks, hblanks, htext⟩ := Text.trimRight_append_end t
        rw [hnil, List.nil_append] at htext
        exact ht (htext ▸ hblanks)
      · rw [Text.trim_append hs hwt, hright]

theorem Widened.alike {a b : List Char} (h : Widened a b) : Alike a b := by
  rcases h.trim with htrim | ⟨s, t, w, hs, ht, hw, joint, ha, hb⟩
  · rw [Alike, htrim]
    exact .refl _
  · rw [Alike, ha, hb]
    exact .rel _ _ (.blank hs ht hw joint)

theorem respaced_refl (a : List Char) : Respaced a a :=
  .refl a

theorem Alike.symm {a b : List Char} (h : Alike a b) : Alike b a :=
  Relation.EqvGen.symm _ _ h

theorem Alike.trans {a b c : List Char} (first : Alike a b) (second : Alike b c) : Alike a c :=
  Relation.EqvGen.trans _ _ _ first second

theorem alike_refl (a : List Char) : Alike a a :=
  respaced_refl (Text.trim a)

/-- What respects one blank more respects any number. -/
theorem Respaced.lift {f : List Char → List Char} (h : ∀ a b, Respace a b → Respaced (f a) (f b))
    {a b : List Char} (respaced : Respaced a b) : Respaced (f a) (f b) := by
  induction respaced with
  | rel a b step => exact h a b step
  | refl a => exact .refl _
  | symm _ _ _ ih => exact .symm _ _ ih
  | trans _ _ _ _ _ left right => exact .trans _ _ _ left right

theorem Respaced.context {a b : List Char} (h : Respaced a b) (u v : List Char) :
    Respaced (u ++ a ++ v) (u ++ b ++ v) := by
  refine h.lift (f := fun text => u ++ text ++ v) fun a b step => ?_
  cases step with
  | @blank s t w hs ht hw joint =>
      have hstep : Respaced ((u ++ s) ++ (t ++ v)) ((u ++ s) ++ w :: (t ++ v)) :=
        .rel _ _ (.blank (by simp [hs]) (by simp [ht]) hw (joint.context hs ht u v))
      simpa using hstep

theorem Respaced.append {a b c d : List Char} (first : Respaced a b) (second : Respaced c d) :
    Respaced (a ++ c) (b ++ d) := by
  have hfirst := first.context [] c
  have hsecond := second.context b []
  simp only [List.nil_append, List.append_nil] at hfirst hsecond
  exact hfirst.trans _ _ _ hsecond

theorem Respaced.alike {a b : List Char} (h : Respaced a b) : Alike a b := by
  refine h.lift fun a b step => ?_
  cases step with
  | blank _ _ hw joint => exact (Widened.blank hw joint).alike

theorem Respaced.nil_iff {a b : List Char} (h : Respaced a b) : a = [] ↔ b = [] := by
  induction h with
  | rel a b step => cases step with | blank hs _ _ _ => simp [hs]
  | refl a => exact Iff.rfl
  | symm _ _ _ ih => exact ih.symm
  | trans _ _ _ _ _ left right => exact left.trans right

theorem closing?_seen (depth : Nat) (seen rest : List Char) :
    closing? depth seen rest =
      (closing? depth [] rest).map fun found => (seen.reverse ++ found.1, found.2) := by
  induction rest generalizing depth seen with
  | nil => rfl
  | cons c rest ih =>
      by_cases ho : c = '('
      · subst ho
        rw [closing?, closing?, ih, ih (depth + 1) ['(']]
        simp [Option.map_map, Function.comp_def]
      by_cases hc : c = ')'
      · subst hc
        cases depth with
        | zero => simp [closing?]
        | succ depth =>
            rw [closing?, closing?, ih, ih depth [')']]
            simp [Option.map_map, Function.comp_def]
      · rw [closing?, closing?, ih, ih depth [c]]
        · simp [Option.map_map, Function.comp_def]
        all_goals assumption

/-- What is looked through for a parenthesis is the text up to it. -/
theorem closing?_parts {depth : Nat} {rest inner after : List Char}
    (h : closing? depth [] rest = some (inner, after)) : inner <+: rest := by
  obtain ⟨more, hinner, rfl, -⟩ := outline_closing h .start
  rw [hinner]
  exact List.prefix_append more _

/-- Two results of looking for a parenthesis: it closes in front of the blank, or behind it. -/
inductive ClosedAlike : Option (List Char × List Char) → Option (List Char × List Char) → Prop where
  | none : ClosedAlike none none
  | before {inner a b : List Char} : a ≠ [] → b ≠ [] → ClosedAlike (some (inner, a)) (some (inner, b))
  | after {a b rest : List Char} : Widened a b → ClosedAlike (some (a, rest)) (some (b, rest))

theorem closing?_blank (hw : Text.isBlank w = true) (depth : Nat) (seen rest : List Char) :
    closing? depth seen (w :: rest) = closing? depth (w :: seen) rest := by
  have hinert := inert_of_isBlank hw
  rw [closing?]
  · rintro rfl
    exact absurd hinert (by decide)
  · rintro rfl
    exact absurd hinert (by decide)

theorem closing?_widened (hw : Text.isBlank w = true) (ht : t ≠ []) (depth : Nat)
    (seen : List Char) (joint : Joint (seen.reverse ++ s) t) :
    ClosedAlike (closing? depth seen (s ++ t)) (closing? depth seen (s ++ w :: t)) := by
  induction s generalizing depth seen with
  | nil =>
      rw [List.append_nil] at joint
      rw [List.nil_append, List.nil_append, closing?_blank hw, closing?_seen depth seen,
        closing?_seen depth (w :: seen)]
      cases h : closing? depth [] t with
      | none => exact .none
      | some found =>
          have hwidened : Widened (seen.reverse ++ found.1) (seen.reverse ++ w :: found.1) :=
            .blank hw (joint.of_front (closing?_parts h))
          simpa using ClosedAlike.after hwidened
  | cons c s ih =>
      have hjoint : Joint ((c :: seen).reverse ++ s) t := by simpa using joint
      rw [List.cons_append, List.cons_append]
      by_cases ho : c = '('
      · subst ho
        rw [closing?, closing?]
        exact ih _ _ hjoint
      by_cases hc : c = ')'
      · subst hc
        cases depth with
        | zero => exact .before (by simp [ht]) (by simp)
        | succ depth =>
            rw [closing?, closing?]
            exact ih _ _ hjoint
      · rw [closing?, closing?]
        · exact ih _ _ hjoint
        all_goals assumption

/-- How many parentheses a character opens. -/
def level (c : Char) : Int :=
  if c = '(' then 1 else if c = ')' then -1 else 0

/-- How many parentheses more open than close. -/
def nesting (text : List Char) : Int :=
  (text.map level).sum

@[simp] theorem nesting_nil : nesting [] = 0 := rfl

@[simp] theorem nesting_cons (c : Char) (text : List Char) :
    nesting (c :: text) = level c + nesting text :=
  List.sum_cons

@[simp] theorem nesting_append (a b : List Char) : nesting (a ++ b) = nesting a + nesting b := by
  rw [nesting, List.map_append, List.sum_append, nesting, nesting]

theorem level_other {c : Char} (ho : c ≠ '(') (hc : c ≠ ')') : level c = 0 := by
  rw [level, if_neg ho, if_neg hc]

theorem level_blank (hw : Text.isBlank w = true) : level w = 0 := by
  refine level_other ?_ ?_ <;> rintro rfl <;> exact absurd hw (by decide)

theorem mem_getLast?_cons {c d : Char} (h : d ∈ s.getLast?) : d ∈ (c :: s).getLast? := by
  rw [List.getLast?_cons, h]
  rfl

/-- What is no operator outside parentheses is passed over. -/
theorem splitTopFrom_step {op c : Char} {depth : Int} (h : ¬(c = op ∧ depth = 0))
    (current : List Char) (pieces : List (List Char)) (rest : List Char) :
    splitTopFrom op depth current pieces (c :: rest) =
      splitTopFrom op (depth + level c) (c :: current) pieces rest := by
  by_cases hopen : c = '('
  · subst hopen
    rw [splitTopFrom]
    rfl
  by_cases hclose : c = ')'
  · subst hclose
    rw [splitTopFrom]
    rfl
  · rw [splitTopFrom_cons hopen hclose h, level_other hopen hclose, Int.add_zero]

/-- An operator divides the text, unless another one follows. -/
theorem splitTopFrom_divided {op : Char} (ho : op ≠ '(') (hc : op ≠ ')') (current : List Char)
    (pieces : List (List Char)) {rest : List Char} (h : op = ',' ∨ op ∉ rest.head?) :
    splitTopFrom op 0 current pieces (op :: rest) =
      splitTopFrom op 0 [] (current.reverse :: pieces) rest := by
  cases rest with
  | nil => simp [splitTopFrom]
  | cons d rest =>
      have hpair : ¬(op != ',' && d = op) = true := by
        rintro hpair
        simp only [Bool.and_eq_true, bne_iff_ne, ne_eq, decide_eq_true_eq] at hpair
        rcases h with h | h
        · exact hpair.1 h
        · exact h (by simp [hpair.2])
      rw [splitTopFrom, if_pos (by simp), if_neg hpair]
      · exact ho
      · exact hc

/-- Of two operators in a row neither divides the text. -/
theorem splitTopFrom_doubled {op : Char} (ho : op ≠ '(') (hc : op ≠ ')') (hcomma : op ≠ ',')
    (current : List Char) (pieces : List (List Char)) (rest : List Char) :
    splitTopFrom op 0 current pieces (op :: op :: rest) =
      splitTopFrom op 0 (op :: op :: current) pieces rest := by
  rw [splitTopFrom, if_pos (by simp), if_pos (by simpa using hcomma)]
  · exact ho
  · exact hc

/-- What is read of a piece goes in front of the first piece of the rest. -/
theorem splitTopFrom_parts {op : Char} (ho : op ≠ '(') (hc : op ≠ ')') (depth : Int)
    (rest : List Char) :
    ∃ first others, first <+: rest ∧ ∀ current pieces,
      splitTopFrom op depth current pieces rest =
        pieces.reverse ++ (current.reverse ++ first) :: others := by
  induction hlength : rest.length using Nat.strongRecOn generalizing depth rest with
  | ind length ih =>
      cases rest with
      | nil => exact ⟨[], [], List.prefix_rfl, fun current pieces => by simp [splitTopFrom]⟩
      | cons c rest =>
          rw [List.length_cons] at hlength
          by_cases hop : c = op ∧ depth = 0
          · obtain ⟨rfl, rfl⟩ := hop
            by_cases hpair : c ≠ ',' ∧ c ∈ rest.head?
            · obtain ⟨hcomma, hnext⟩ := hpair
              obtain ⟨after, rfl⟩ := List.head?_eq_some_iff.mp hnext
              obtain ⟨first, others, hfirst, hothers⟩ :=
                ih after.length (by rw [List.length_cons] at hlength; omega) 0 after rfl
              refine ⟨c :: c :: first, others, by simpa [List.cons_prefix_cons] using hfirst,
                fun current pieces => ?_⟩
              rw [splitTopFrom_doubled ho hc hcomma, hothers]
              simp
            · obtain ⟨first, others, -, hothers⟩ := ih rest.length (by omega) 0 rest rfl
              refine ⟨[], first :: others, List.nil_prefix, fun current pieces => ?_⟩
              rw [splitTopFrom_divided ho hc current pieces (by tauto), hothers]
              simp
          · obtain ⟨first, others, hfirst, hothers⟩ :=
              ih rest.length (by omega) (depth + level c) rest rfl
            refine ⟨c :: first, others, List.cons_prefix_cons.mpr ⟨rfl, hfirst⟩, fun _ _ => ?_⟩
            rw [splitTopFrom_step hop, hothers]
            simp

theorem forall₂_alike_parts {a b : List Char} (h : Alike a b) (before after : List (List Char)) :
    List.Forall₂ Alike (before ++ a :: after) (before ++ b :: after) := by
  have same (pieces : List (List Char)) : List.Forall₂ Alike pieces pieces :=
    List.forall₂_same.mpr fun piece _ => alike_refl piece
  exact List.rel_append (same before) (.cons h (same after))

/-- The pieces of a text with one blank more are alike, unless the blank parts two operators. -/
theorem splitTopFrom_widened {op : Char} (hop : op ∉ ['<', '>', '-', '(', ')'])
    (hblank : Text.isBlank op = false) (hw : Text.isBlank w = true) {depth : Int}
    (current : List Char) (pieces : List (List Char)) (joint : Joint (current.reverse ++ s) t)
    (apart : op ≠ ',' → op ∈ s.getLast? → op ∈ t.head? → depth + nesting s ≠ 0) :
    List.Forall₂ Alike (splitTopFrom op depth current pieces (s ++ t))
      (splitTopFrom op depth current pieces (s ++ w :: t)) := by
  have ho : op ≠ '(' := by rintro rfl; exact hop (by simp)
  have hc : op ≠ ')' := by rintro rfl; exact hop (by simp)
  have hlevel : level op = 0 := level_other ho hc
  have hwop : w ≠ op := by
    rintro rfl
    rw [hw] at hblank
    cases hblank
  -- A doubled operator is passed over with both its characters, so the induction is on the length.
  induction hlength : s.length using Nat.strongRecOn
    generalizing s depth current pieces with
  | ind length ih =>
      cases s with
      | nil =>
          rw [List.append_nil] at joint
          obtain ⟨first, others, hfirst, hparts⟩ := splitTopFrom_parts ho hc depth t
          rw [List.nil_append, List.nil_append, splitTopFrom_step (fun h => hwop h.1),
            level_blank hw, Int.add_zero, hparts, hparts]
          refine forall₂_alike_parts (Widened.alike ?_) _ _
          simpa using Widened.blank hw (joint.of_front hfirst)
      | cons c s =>
          rw [List.length_cons] at hlength
          rw [nesting_cons, ← Int.add_assoc] at apart
          have hjoint : Joint ((c :: current).reverse ++ s) t := by simpa using joint
          have hlast {d : Char} (h : d ∈ s.getLast?) : d ∈ (c :: s).getLast? := mem_getLast?_cons h
          rw [List.cons_append, List.cons_append]
          by_cases hsplit : c = op ∧ depth = 0
          · obtain ⟨rfl, rfl⟩ := hsplit
            rw [hlevel, Int.add_zero] at apart
            by_cases hpair : c ≠ ',' ∧ c ∈ s.head?
            · obtain ⟨hcomma, hnext⟩ := hpair
              obtain ⟨s, rfl⟩ := List.head?_eq_some_iff.mp hnext
              rw [List.cons_append, List.cons_append, splitTopFrom_doubled ho hc hcomma,
                splitTopFrom_doubled ho hc hcomma]
              refine ih s.length ?_ _ pieces (by simpa using hjoint) (fun hcomma h => ?_) rfl
              · rw [List.length_cons] at hlength
                omega
              · rw [nesting_cons, hlevel, Int.zero_add] at apart
                exact apart hcomma (hlast (mem_getLast?_cons h))
            · have hnarrow : c = ',' ∨ c ∉ (s ++ t).head? := by
                cases s with
                | nil => exact or_iff_not_imp_left.mpr fun hcomma hhead => apart hcomma rfl hhead rfl
                | cons d s => tauto
              have hwide : c = ',' ∨ c ∉ (s ++ w :: t).head? := by
                cases s with
                | nil => exact .inr (by simpa using hwop)
                | cons d s => tauto
              rw [splitTopFrom_divided ho hc _ _ hnarrow, splitTopFrom_divided ho hc _ _ hwide]
              refine ih s.length (by omega) [] _ ?_ (fun hcomma h => apart hcomma (hlast h)) rfl
              refine Joint.of_suffix (u := (c :: current).reverse) hjoint ?_
              intro d _ _ _ x hx hshift
              obtain rfl : c = x := by simpa using hx
              exact hop (List.mem_append_left ['(', ')'] hshift)
          · rw [splitTopFrom_step hsplit, splitTopFrom_step hsplit]
            exact ih s.length (by omega) _ pieces hjoint (fun hcomma h => apart hcomma (hlast h)) rfl

/-- The same shift, between texts that are alike. -/
structure ShiftAlike (a b : ShiftSplit) : Prop where
  op : a.op = b.op
  left : Alike a.left b.left
  right : Alike a.right b.right

theorem shiftAlike_behind (hw : Text.isBlank w = true) {between seen rest : List Char}
    (joint : Joint seen.reverse (between.reverse ++ rest)) (op : Shift) (right : List Char) :
    ShiftAlike ⟨(between ++ seen).reverse, op, right⟩
      ⟨(between ++ w :: seen).reverse, op, right⟩ := by
  refine ⟨rfl, Widened.alike ?_, alike_refl _⟩
  simpa using Widened.blank hw (joint.of_front (List.prefix_append between.reverse rest))

/-- Behind the blank only the texts to the left of the shifts differ. -/
theorem lastShiftFrom_behind (hw : Text.isBlank w = true) {depth : Int}
    {front seen rest : List Char} (between : List Char) {found other : Option ShiftSplit}
    (hfront : front = between ++ seen) (joint : Joint seen.reverse (between.reverse ++ rest))
    (hfound : Option.Rel ShiftAlike found other) :
    Option.Rel ShiftAlike (lastShiftFrom depth front found rest)
      (lastShiftFrom depth (between ++ w :: seen) other rest) := by
  fun_induction lastShiftFrom depth front found rest generalizing between other with
  | case1 => exact hfound
  | case2 => exact hfound
  | case3 depth front found d rest ih =>
      rw [lastShiftFrom]
      exact ih ('(' :: between) (by simp [hfront]) (by simpa using joint) hfound
  | case4 depth front found d rest ih =>
      rw [lastShiftFrom]
      exact ih (')' :: between) (by simp [hfront]) (by simpa using joint) hfound
  | case5 depth front found c d rest hopen hclose hshift ih =>
      rw [lastShiftFrom, if_pos hshift]
      · refine ih (d :: c :: between) (by simp [hfront]) (by simpa using joint) ?_
        exact hfront ▸ .some (shiftAlike_behind hw joint .left rest)
      all_goals assumption
  | case6 depth front found c d rest hopen hclose hleft hshift ih =>
      rw [lastShiftFrom, if_neg hleft, if_pos hshift]
      · refine ih (d :: c :: between) (by simp [hfront]) (by simpa using joint) ?_
        exact hfront ▸ .some (shiftAlike_behind hw joint .right rest)
      all_goals assumption
  | case7 depth front found c d rest hopen hclose hleft hright ih =>
      rw [lastShiftFrom, if_neg hleft, if_neg hright]
      · exact ih (c :: between) (by simp [hfront]) (by simpa using joint) hfound
      all_goals assumption

/-- What ends no shift outside parentheses is passed over. -/
theorem lastShiftFrom_step {c : Char} {depth : Int} {rest : List Char}
    (single : ¬(depth = 0 ∧ (c = '<' ∨ c = '>') ∧ c ∈ rest.head?)) (seen : List Char)
    (found : Option ShiftSplit) :
    lastShiftFrom depth seen found (c :: rest) =
      lastShiftFrom (depth + level c) (c :: seen) found rest := by
  cases rest with
  | nil => simp [lastShiftFrom]
  | cons d rest =>
      have more : d :: rest ≠ [] := List.cons_ne_nil d rest
      by_cases hopen : c = '('
      · subst hopen
        exact lastShiftFrom_open depth seen found more
      by_cases hclose : c = ')'
      · subst hclose
        exact lastShiftFrom_close depth seen found more
      · rw [level_other hopen hclose, Int.add_zero]
        exact lastShiftFrom_cons hopen hclose (fun hdepth hc hd => single ⟨hdepth, hc, hd⟩) seen found

/-- The last shifts of a text and of the text with one blank more are alike, unless the blank parts two
halves of shifts. -/
theorem lastShiftFrom_widened (hw : Text.isBlank w = true) {depth : Int}
    (seen : List Char) {found other : Option ShiftSplit} (joint : Joint (seen.reverse ++ s) t)
    (apart : ∀ c ∈ s.getLast?, c ∈ t.head? → c = '<' ∨ c = '>' → depth + nesting s ≠ 0)
    (hfound : Option.Rel ShiftAlike found other) :
    Option.Rel ShiftAlike (lastShiftFrom depth seen found (s ++ t))
      (lastShiftFrom depth seen other (s ++ w :: t)) := by
  have hwshift : ¬(w = '<' ∨ w = '>') := by
    rintro (rfl | rfl) <;> exact absurd hw (by decide)
  induction hlength : s.length using Nat.strongRecOn
    generalizing s depth seen found other with
  | ind length ih =>
      cases s with
      | nil =>
          rw [List.append_nil] at joint
          rw [List.nil_append, List.nil_append, lastShiftFrom_step fun h => hwshift h.2.1,
            level_blank hw, Int.add_zero]
          exact lastShiftFrom_behind hw [] rfl (by simpa using joint) hfound
      | cons c s =>
          rw [List.length_cons] at hlength
          rw [nesting_cons, ← Int.add_assoc] at apart
          have hjoint : Joint ((c :: seen).reverse ++ s) t := by simpa using joint
          have hlast {d : Char} (h : d ∈ s.getLast?) : d ∈ (c :: s).getLast? := mem_getLast?_cons h
          by_cases hshift : depth = 0 ∧ (c = '<' ∨ c = '>') ∧ c ∈ s.head?
          · obtain ⟨rfl, hc, hhead⟩ := hshift
            obtain ⟨s, rfl⟩ := List.head?_eq_some_iff.mp hhead
            obtain ⟨op, hop⟩ : ∃ op : Shift, op.token = [c, c] := by
              rcases hc with rfl | rfl
              · exact ⟨.left, rfl⟩
              · exact ⟨.right, rfl⟩
            have hlevel : level c = 0 := by rcases hc with rfl | rfl <;> rfl
            have hshifted (found : Option ShiftSplit) (v : List Char) :
                lastShiftFrom 0 seen found (c :: c :: s ++ v) =
                  lastShiftFrom 0 (c :: c :: seen) (some ⟨seen.reverse, op, s ++ v⟩) (s ++ v) := by
              have htoken := lastShiftFrom_token op seen found (s ++ v)
              rwa [hop] at htoken
            have hafter : ∀ d ∈ s.getLast?, d ∈ t.head? → d = '<' ∨ d = '>' → 0 + nesting s ≠ 0 := by
              intro d h
              rw [nesting_cons, hlevel, Int.zero_add, Int.zero_add] at apart
              exact apart d (hlast (mem_getLast?_cons h))
            have hright : Joint s t := by
              refine Joint.of_suffix (u := (c :: c :: seen).reverse) (by simpa using hjoint) ?_
              rintro d rfl hd hdshift
              exact absurd (by rcases hdshift with rfl | rfl <;> rfl) (hafter d rfl hd hdshift)
            rw [hshifted, hshifted]
            refine ih s.length ?_ _ (by simpa using hjoint) hafter ?_ rfl
            · rw [List.length_cons] at hlength
              omega
            · exact .some ⟨rfl, alike_refl _, (Widened.blank hw hright).alike⟩
          · have hsingle : ∀ v ∈ [t, w :: t],
                ¬(depth = 0 ∧ (c = '<' ∨ c = '>') ∧ c ∈ (s ++ v).head?) := by
              rintro v hv ⟨rfl, hc, hhead⟩
              cases s with
              | cons d s => exact hshift ⟨rfl, hc, hhead⟩
              | nil =>
                  rw [List.mem_pair] at hv
                  rcases hv with rfl | rfl
                  · exact apart c rfl hhead hc (by rcases hc with rfl | rfl <;> rfl)
                  · obtain rfl : w = c := by simpa using hhead
                    exact hwshift hc
            rw [List.cons_append, List.cons_append, lastShiftFrom_step (hsingle t (by simp)),
              lastShiftFrom_step (hsingle (w :: t) (by simp))]
            exact ih s.length (by omega) _ hjoint (fun d h => apart d (hlast h)) hfound rfl

end LibSurvey.Expression
