import Mathlib.Data.List.Basic

/-!
Lists divided at the marks outside brackets. Where brackets match, a scan that counts them passes over
them and is then at the depth where it started. Tokens and characters are divided by one such scan
each.
-/

namespace LibSurvey

variable {α : Type}

/-- What opens and closes brackets, and what divides a list outside of them. -/
structure Brackets (α : Type) where
  opens : α → Bool
  closes : α → Bool
  divides : α → Bool

namespace Brackets

variable {brackets : Brackets α} {split : Int → List α → List (List α) → List α → List (List α)}

/-- The brackets of a list match and what stands outside of them satisfies a test. -/
inductive Level (brackets : Brackets α) : (α → Prop) → List α → Prop where
  | nil {p : α → Prop} : Level brackets p []
  | item {p : α → Prop} {x : α} {rest : List α} :
      brackets.opens x = false → brackets.closes x = false → p x → Level brackets p rest →
      Level brackets p (x :: rest)
  | group {p : α → Prop} (first last : α) {inner rest : List α} :
      brackets.opens first = true → brackets.opens last = false → brackets.closes last = true →
      Level brackets (fun _ => True) inner → Level brackets p rest →
      Level brackets p (first :: (inner ++ last :: rest))

namespace Level

variable {p : α → Prop} {a b : List α}

theorem append (ha : Level brackets p a) (hb : Level brackets p b) : Level brackets p (a ++ b) := by
  induction ha with
  | nil => exact hb
  | item ho hc hp _ ih => exact .item ho hc hp (ih hb)
  | group _ _ ho hlast hc hi _ _ ih =>
      simpa only [List.cons_append, List.append_assoc] using Level.group _ _ ho hlast hc hi (ih hb)

theorem of_forall
    (h : ∀ x ∈ a, brackets.opens x = false ∧ brackets.closes x = false ∧ p x) :
    Level brackets p a := by
  induction a with
  | nil => exact .nil
  | cons x a ih =>
      obtain ⟨ho, hc, hp⟩ := h x List.mem_cons_self
      exact .item ho hc hp (ih fun y hy => h y (List.mem_cons_of_mem x hy))

theorem mono (ha : Level brackets p a) {q : α → Prop} (h : ∀ x, p x → q x) :
    Level brackets q a := by
  induction ha with
  | nil => exact .nil
  | item ho hc hp _ ih => exact .item ho hc (h _ hp) (ih h)
  | group _ _ ho hlast hc hi _ _ ih => exact .group _ _ ho hlast hc hi (ih h)

theorem flatMap {β : Type} {f : β → List α} {items : List β}
    (h : ∀ item ∈ items, Level brackets p (f item)) : Level brackets p (items.flatMap f) := by
  induction items with
  | nil => exact .nil
  | cons item items ih =>
      rw [List.forall_mem_cons] at h
      exact h.1.append (ih h.2)

theorem intercalate {mark : α} (ho : brackets.opens mark = false)
    (hc : brackets.closes mark = false) (hp : p mark) {parts : List (List α)}
    (h : ∀ part ∈ parts, Level brackets p part) : Level brackets p ([mark].intercalate parts) := by
  induction parts with
  | nil => exact .nil
  | cons part parts ih =>
      have hpart := h part List.mem_cons_self
      have hparts : ∀ other ∈ parts, Level brackets p other :=
        fun other hother => h other (List.mem_cons_of_mem part hother)
      cases parts with
      | nil => simpa using hpart
      | cons next parts =>
          rw [List.intercalate_cons_cons, List.append_assoc]
          exact hpart.append (.item ho hc hp (ih hparts))

end Level

/-- A scan that divides a list where as many brackets have closed as opened. The pieces so far are
given last first, and so is the piece being read. -/
structure Divides (brackets : Brackets α)
    (split : Int → List α → List (List α) → List α → List (List α)) : Prop where
  nil : ∀ depth current pieces, split depth current pieces [] = (current.reverse :: pieces).reverse
  cons : ∀ depth current pieces x rest, split depth current pieces (x :: rest) =
    if brackets.opens x then split (depth + 1) (x :: current) pieces rest
    else if brackets.closes x then split (depth - 1) (x :: current) pieces rest
    else if brackets.divides x && depth = 0 then split depth [] (current.reverse :: pieces) rest
    else split depth (x :: current) pieces rest

namespace Divides

/-- What divides no list, or does so outside brackets only, leaves the scan at its depth. -/
theorem level (h : Divides brackets split) {p : α → Prop} {a : List α} (ha : Level brackets p a)
    {depth : Int} (hd : 0 ≤ depth) (free : depth = 0 → ∀ x, p x → brackets.divides x = false)
    (current : List α) (pieces : List (List α)) (rest : List α) :
    split depth current pieces (a ++ rest) = split depth (a.reverse ++ current) pieces rest := by
  induction ha generalizing depth current rest with
  | nil => rfl
  | @item _ x _ ho hc hp _ ih =>
      have hstays : (brackets.divides x && depth = 0) = false := by
        by_cases hzero : depth = 0
        · simp [free hzero x hp]
        · simp [hzero]
      rw [List.cons_append, h.cons, ho, hc, hstays]
      simpa using ih hd free (x :: current) rest
  | group _ _ ho hlast hc _ _ ihi ih =>
      -- Inside brackets the count is positive, so nothing divides the list there.
      have hinner : depth + 1 = 0 → ∀ x : α, True → brackets.divides x = false :=
        fun h => by omega
      rw [List.cons_append, List.append_assoc, h.cons, if_pos ho, ihi (by omega) hinner,
        List.cons_append, h.cons, hlast, if_neg Bool.false_ne_true, if_pos hc,
        Int.add_sub_cancel, ih hd free]
      simp

/-- Pieces that are finished have no part in those that follow. -/
theorem finished (h : Divides brackets split) (depth : Int) (current : List α)
    (pieces : List (List α)) (a : List α) :
    split depth current pieces a = pieces.reverse ++ split depth current [] a := by
  induction a generalizing depth current pieces with
  | nil => simp [h.nil]
  | cons x a ih =>
      rw [h.cons, h.cons, ih (depth + 1), ih (depth - 1), ih depth [], ih depth (x :: current),
        ih depth [] [current.reverse]]
      repeat' split
      all_goals simp

/-- A list whose brackets match is divided apart from what a mark parts from it. -/
theorem append_mark (h : Divides brackets split) {p : α → Prop} {a : List α} (ha : Level brackets p a)
    {mark : α} (ho : brackets.opens mark = false) (hc : brackets.closes mark = false)
    (hmark : brackets.divides mark = true) (current : List α) (pieces : List (List α))
    (rest : List α) : split 0 current pieces (a ++ mark :: rest) =
      split 0 current pieces a ++ split 0 [] [] rest := by
  induction ha generalizing current pieces with
  | nil =>
      rw [List.nil_append, h.cons, ho, hc, hmark, h.nil]
      exact h.finished 0 [] (current.reverse :: pieces) rest
  | @item _ x _ ho hc _ _ ih =>
      rw [List.cons_append, h.cons, h.cons _ _ _ x, ho, hc, if_neg Bool.false_ne_true,
        if_neg Bool.false_ne_true, if_neg Bool.false_ne_true, if_neg Bool.false_ne_true]
      split
      · exact ih [] (current.reverse :: pieces)
      · exact ih (x :: current) pieces
  | group first last ho hlast hc hi _ _ ih =>
      have inner (current : List α) (rest : List α) :=
        h.level hi (show (0 : Int) ≤ 0 + 1 by omega) (fun h => by omega) current pieces rest
      rw [List.cons_append, List.append_assoc, h.cons, if_pos ho, inner, List.cons_append, h.cons,
        hlast, if_neg Bool.false_ne_true, if_pos hc, Int.add_sub_cancel, ih,
        h.cons _ _ _ first, if_pos ho, inner, h.cons, hlast, if_neg Bool.false_ne_true, if_pos hc,
        Int.add_sub_cancel]

/-- Parts that nothing divides are found again when they are joined. -/
theorem intercalate (h : Divides brackets split) (mark : α) (ho : brackets.opens mark = false)
    (hc : brackets.closes mark = false) (hmark : brackets.divides mark = true)
    {parts : List (List α)} (nonempty : parts ≠ [])
    (level : ∀ part ∈ parts, Level brackets (fun x => brackets.divides x = false) part) :
    split 0 [] [] ([mark].intercalate parts) = parts := by
  have run (part : List α) (others done : List (List α))
      (level : ∀ x ∈ part :: others, Level brackets (fun x => brackets.divides x = false) x) :
      split 0 [] done ([mark].intercalate (part :: others)) = done.reverse ++ part :: others := by
    induction others generalizing part done with
    | nil =>
        have := h.level (level part List.mem_cons_self) (Int.le_refl 0) (fun _ _ hx => hx) [] done []
        simpa [h.nil] using this
    | cons next others ih =>
        have hrest : ∀ x ∈ next :: others, Level brackets (fun x => brackets.divides x = false) x :=
          fun x hx => level x (List.mem_cons_of_mem part hx)
        rw [List.intercalate_cons_cons, List.append_assoc,
          h.level (level part List.mem_cons_self) (Int.le_refl 0) (fun _ _ hx => hx),
          List.singleton_append, h.cons, ho, hc, hmark]
        simpa using ih next (part :: done) hrest
  obtain ⟨part, others, rfl⟩ := List.exists_cons_of_ne_nil nonempty
  exact run part others [] level

end Divides
end Brackets
end LibSurvey
