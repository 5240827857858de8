import LibSurvey.Constant.Evaluate
import LibSurvey.Proofs.Text.Front
import Mathlib.Data.List.TakeWhile

/-!
Texts whose parentheses match. A scan that counts parentheses passes over such a text and is then at
the depth where it started; an operator that does not stand outside parentheses is never found. The
laws are about any such text and do not ask what it is made of.
-/

namespace LibSurvey.Expression

/-- The parentheses of a text match and the characters outside of them satisfy a test. -/
inductive Clear : (Char → Prop) → List Char → Prop where
  | nil {p : Char → Prop} : Clear p []
  | char {p : Char → Prop} {c : Char} {rest : List Char} :
      c ≠ '(' → c ≠ ')' → p c → Clear p rest → Clear p (c :: rest)
  | group {p : Char → Prop} {inner rest : List Char} :
      Clear (fun _ => True) inner → Clear p rest → Clear p ('(' :: (inner ++ ')' :: rest))

theorem Clear.append {p : Char → Prop} {x y : List Char} (hx : Clear p x) (hy : Clear p y) :
    Clear p (x ++ y) := by
  induction hx with
  | nil => exact hy
  | char ho hc hp _ ih => exact .char ho hc hp (ih hy)
  | group hi _ _ ih => simpa only [List.cons_append, List.append_assoc] using Clear.group hi (ih hy)

theorem Clear.mono {p q : Char → Prop} {x : List Char} (hx : Clear p x) (h : ∀ c, p c → q c) :
    Clear q x := by
  induction hx with
  | nil => exact .nil
  | char ho hc hp _ ih => exact .char ho hc (h _ hp) (ih h)
  | group hi _ _ ih => exact .group hi (ih h)

theorem clear_of_chars {p : Char → Prop} {text : List Char}
    (h : ∀ c ∈ text, c ≠ '(' ∧ c ≠ ')' ∧ p c) : Clear p text := by
  induction text with
  | nil => exact .nil
  | cons c text ih =>
      have hc := h c (by simp)
      exact .char hc.1 hc.2.1 hc.2.2 (ih fun d hd => h d (by simp [hd]))

section Closing

variable (depth : Nat) (seen rest : List Char)

theorem closing?_open :
    closing? depth seen ('(' :: rest) = closing? (depth + 1) ('(' :: seen) rest := rfl

theorem closing?_close :
    closing? (depth + 1) seen (')' :: rest) = closing? depth (')' :: seen) rest := rfl

theorem closing?_end : closing? 0 seen (')' :: rest) = some (seen.reverse, rest) := rfl

theorem closing?_other {c : Char} (ho : c ≠ '(') (hc : c ≠ ')') :
    closing? depth seen (c :: rest) = closing? depth (c :: seen) rest := by
  rw [closing?] <;> assumption

end Closing

theorem closing?_clear {p : Char → Prop} {x : List Char} (hx : Clear p x) (depth : Nat)
    (seen rest : List Char) :
    closing? depth seen (x ++ rest) = closing? depth (x.reverse ++ seen) rest := by
  induction hx generalizing depth seen rest with
  | nil => rfl
  | char ho hc _ _ ih => simpa [closing?_other depth seen _ ho hc] using ih depth _ rest
  | group _ _ ihi ih => simp [closing?_open, closing?_close, ihi, ih]

theorem enclosed?_group {p : Char → Prop} {inner : List Char} (h : Clear p inner) :
    enclosed? ('(' :: (inner ++ [')'])) = some inner := by
  simp [enclosed?, closing?_clear h, closing?_end]

/-- Parentheses that end before the text does hold only a part of it. -/
theorem enclosed?_append {p : Char → Prop} {x rest : List Char} (hx : Clear p x) (nonempty : x ≠ [])
    (more : rest ≠ []) : enclosed? (x ++ rest) = none := by
  cases hx with
  | nil => exact absurd rfl nonempty
  | char ho _ _ _ => simp [enclosed?, ho]
  | @group _ inner after hi ha =>
      have hne : after ++ rest ≠ [] := by simp [more]
      obtain ⟨d, tail, hd⟩ := List.exists_cons_of_ne_nil hne
      simp [enclosed?, closing?_clear hi, closing?_end, hd]

theorem splitCall?_open {front : List Char} (h : '(' ∉ front) (rest : List Char) :
    splitCall? (front ++ '(' :: rest) =
      if isName (Text.trim front) then
        (enclosed? ('(' :: rest)).map fun arguments => (Text.trim front, arguments)
      else none := by
  have hfront : ∀ c ∈ front, (c != '(') = true :=
    fun c hc => bne_iff_ne.mpr fun hopen => h (hopen ▸ hc)
  have hstop : ∀ c ∈ ('(' :: rest).head?, (c != '(') = false := by simp
  rw [splitCall?, Text.takeWhile_front hfront hstop, Text.dropWhile_front hfront hstop, enclosed?]
  simp only
  split
  · split <;> rfl
  · rfl

theorem splitCall?_unopened {text : List Char} (h : '(' ∉ text) : splitCall? text = none := by
  have hall : ∀ c ∈ text, (c != '(') = true :=
    fun c hc => bne_iff_ne.mpr fun hopen => h (hopen ▸ hc)
  rw [splitCall?, List.dropWhile_eq_nil_iff.mpr hall]

section SplitTopFrom

variable (op : Char) (depth : Int) (current : List Char) (pieces : List (List Char))

theorem splitTopFrom_nil :
    splitTopFrom op depth current pieces [] = (current.reverse :: pieces).reverse := rfl

theorem splitTopFrom_open (rest : List Char) :
    splitTopFrom op depth current pieces ('(' :: rest) =
      splitTopFrom op (depth + 1) ('(' :: current) pieces rest := rfl

theorem splitTopFrom_close (rest : List Char) :
    splitTopFrom op depth current pieces (')' :: rest) =
      splitTopFrom op (depth - 1) (')' :: current) pieces rest := rfl

end SplitTopFrom

theorem splitTopFrom_cons {op c : Char} {depth : Int} (ho : c ≠ '(') (hc : c ≠ ')')
    (hop : ¬(c = op ∧ depth = 0)) (current : List Char) (pieces : List (List Char))
    (rest : List Char) :
    splitTopFrom op depth current pieces (c :: rest) =
      splitTopFrom op depth (c :: current) pieces rest := by
  cases rest <;> simp [splitTopFrom, hop]

/-- Where an operator stands outside parentheses, the scan has counted back to zero. -/
theorem splitTopFrom_clear {p : Char → Prop} {x : List Char} (hx : Clear p x) {op : Char}
    {depth : Int} (hd : 0 ≤ depth) (free : depth = 0 → ∀ c, p c → c ≠ op)
    (current : List Char) (pieces : List (List Char)) (rest : List Char) :
    splitTopFrom op depth current pieces (x ++ rest) =
      splitTopFrom op depth (x.reverse ++ current) pieces rest := by
  induction hx generalizing depth current rest with
  | nil => rfl
  | char ho hc hp _ ih =>
      rw [List.cons_append, splitTopFrom_cons ho hc fun h => free h.2 _ hp h.1, ih hd free]
      simp
  | group _ _ ihi ih =>
      -- Inside parentheses the count is positive, so nothing there is taken for an operator.
      have hinner : depth + 1 = 0 → ∀ c : Char, True → c ≠ op := fun h => by omega
      simp [splitTopFrom_open, splitTopFrom_close, ihi (by omega) hinner, ih hd free]

/-- A text without an operator outside parentheses is one piece. -/
theorem splitTop_clear {p : Char → Prop} {x : List Char} (hx : Clear p x) {op : Char}
    (free : ∀ c, p c → c ≠ op) : splitTop op x = [x] := by
  have := splitTopFrom_clear hx (Int.le_refl 0) (fun _ => free) [] [] []
  simpa [splitTop, splitTopFrom_nil] using this

/-- Pieces joined by an operator are found again, if none of them is empty or starts with it. -/
theorem splitTop_intercalate {p : Char → Prop} {op : Char} (ho : op ≠ '(') (hc : op ≠ ')')
    (free : ∀ c, p c → c ≠ op) {pieces : List (List Char)} (nonempty : pieces ≠ [])
    (clear : ∀ x ∈ pieces, Clear p x) (starts : ∀ x ∈ pieces, ∃ d r, x = d :: r ∧ d ≠ op) :
    splitTop op ([op].intercalate pieces) = pieces := by
  have run (x : List Char) (xs : List (List Char)) (done : List (List Char))
      (clear : ∀ y ∈ x :: xs, Clear p y) (starts : ∀ y ∈ x :: xs, ∃ d r, y = d :: r ∧ d ≠ op) :
      splitTopFrom op 0 [] done ([op].intercalate (x :: xs)) = done.reverse ++ x :: xs := by
    induction xs generalizing x done with
    | nil =>
        have := splitTopFrom_clear (clear x (by simp)) (Int.le_refl 0) (fun _ => free) [] done []
        simpa [splitTopFrom_nil] using this
    | cons y xs ih =>
        have hx := splitTopFrom_clear (clear x (by simp)) (Int.le_refl 0) (fun _ => free) [] done
        have hy := ih y (x :: done) (fun z hz => clear z (by simp at hz ⊢; tauto))
          (fun z hz => starts z (by simp at hz ⊢; tauto))
        obtain ⟨d, r, rfl, hd⟩ := starts y (by simp)
        have htail : ∃ t, [op].intercalate ((d :: r) :: xs) = d :: t := by
          cases xs <;> simp [List.intercalate_cons_cons]
        obtain ⟨t, ht⟩ := htail
        rw [List.intercalate_cons_cons, List.append_assoc, hx, List.singleton_append, ht]
        rw [ht] at hy
        simp [splitTopFrom, hd, hy]
  obtain ⟨x, xs, rfl⟩ := List.exists_cons_of_ne_nil nonempty
  simpa [splitTop] using run x xs [] clear starts

/-- A character that doubles no half of a shift is passed over. -/
theorem lastShiftFrom_cons {c : Char} {depth : Int} (ho : c ≠ '(') (hc : c ≠ ')')
    {rest : List Char} (single : depth = 0 → c = '<' ∨ c = '>' → c ∉ rest.head?)
    (seen : List Char) (found : Option ShiftSplit) :
    lastShiftFrom depth seen found (c :: rest) = lastShiftFrom depth (c :: seen) found rest := by
  cases rest with
  | nil => simp [lastShiftFrom]
  | cons d rest =>
      have hl : ¬((c = '<' && d = '<' && depth = 0) = true) := by
        simp only [Bool.and_eq_true, decide_eq_true_eq]
        rintro ⟨⟨rfl, rfl⟩, hdepth⟩
        exact single hdepth (.inl rfl) rfl
      have hr : ¬((c = '>' && d = '>' && depth = 0) = true) := by
        simp only [Bool.and_eq_true, decide_eq_true_eq]
        rintro ⟨⟨rfl, rfl⟩, hdepth⟩
        exact single hdepth (.inr rfl) rfl
      rw [lastShiftFrom, if_neg hl, if_neg hr]
      · exact ho
      · exact hc

theorem lastShiftFrom_open (depth : Int) (seen : List Char) (found : Option ShiftSplit)
    {rest : List Char} (more : rest ≠ []) :
    lastShiftFrom depth seen found ('(' :: rest) =
      lastShiftFrom (depth + 1) ('(' :: seen) found rest := by
  obtain ⟨d, rest, rfl⟩ := List.exists_cons_of_ne_nil more
  rfl

theorem lastShiftFrom_close (depth : Int) (seen : List Char) (found : Option ShiftSplit)
    {rest : List Char} (more : rest ≠ []) :
    lastShiftFrom depth seen found (')' :: rest) =
      lastShiftFrom (depth - 1) (')' :: seen) found rest := by
  obtain ⟨d, rest, rfl⟩ := List.exists_cons_of_ne_nil more
  rfl

/-- The shift found last stays the same over a text without one, as long as text follows. -/
theorem lastShiftFrom_clear {p : Char → Prop} {x : List Char} (hx : Clear p x) {depth : Int}
    (hd : 0 ≤ depth) (free : depth = 0 → ∀ c, p c → c ≠ '<' ∧ c ≠ '>') (seen : List Char)
    (found : Option ShiftSplit) {rest : List Char} (more : rest ≠ []) :
    lastShiftFrom depth seen found (x ++ rest) =
      lastShiftFrom depth (x.reverse ++ seen) found rest := by
  induction hx generalizing depth seen rest with
  | nil => rfl
  | char ho hc hp _ ih =>
      rw [List.cons_append, lastShiftFrom_cons ho hc
        (fun h hshift => absurd hshift (not_or.mpr (free h _ hp))), ih hd free _ more]
      simp
  | group _ _ ihi ih =>
      have hinner : depth + 1 = 0 → ∀ c : Char, True → c ≠ '<' ∧ c ≠ '>' := fun h => by omega
      rw [List.cons_append, List.append_assoc, lastShiftFrom_open _ _ _ (by simp),
        ihi (by omega) hinner _ (by simp), List.cons_append,
        lastShiftFrom_close _ _ _ (by simp [more]), Int.add_sub_cancel, ih hd free _ more]
      simp

theorem lastShiftFrom_clear_end {p : Char → Prop} {x : List Char} (hx : Clear p x)
    (free : ∀ c, p c → c ≠ '<' ∧ c ≠ '>') (seen : List Char) (found : Option ShiftSplit) :
    lastShiftFrom 0 seen found x = found := by
  induction hx generalizing seen with
  | nil => rfl
  | char ho hc hp _ ih =>
      rw [lastShiftFrom_cons ho hc fun _ hshift => absurd hshift (not_or.mpr (free _ hp)), ih free]
  | @group _ inner rest hi _ _ ih =>
      have hinner : (0 : Int) + 1 = 0 → ∀ c : Char, True → c ≠ '<' ∧ c ≠ '>' := fun h => by omega
      rw [lastShiftFrom_open _ _ _ (by simp), lastShiftFrom_clear hi (by omega) hinner _ _ (by simp)]
      by_cases more : rest = []
      · rw [more]
        rfl
      · rw [lastShiftFrom_close _ _ _ more, Int.add_sub_cancel, ih free]

end LibSurvey.Expression
