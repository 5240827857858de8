import LibSurvey.Proofs.Text.Lines

/-!
Texts that are the same but for their blanks: where one of them has blanks, so has the other. Whatever
treats all blanks alike and does not count them finds two such texts the same.
-/

namespace LibSurvey.Text

theorem ne_of_isBlank {c d : Char} (h : isBlank c = true) (solid : isBlank d = false) :
    c ≠ d := by
  rintro rfl
  rw [h] at solid
  exact Bool.noConfusion solid

theorem count_blanks {blanks : List Char} (h : Blanks blanks) {c : Char}
    (solid : isBlank c = false) : blanks.count c = 0 :=
  List.count_eq_zero.mpr fun hc => ne_of_isBlank (h c hc) solid rfl

/-- The same text with other blanks in the place of some of its blanks. -/
inductive Reflow : List Char → List Char → Prop where
  | nil : Reflow [] []
  | keep {c : Char} {a b : List Char} : Reflow a b → Reflow (c :: a) (c :: b)
  | gap {x y a b : List Char} : Blanks x → Blanks y → x ≠ [] → y ≠ [] → Reflow a b →
      Reflow (x ++ a) (y ++ b)

namespace Reflow

variable {a b : List Char}

theorem refl (a : List Char) : Reflow a a := by
  induction a with
  | nil => exact .nil
  | cons c a ih => exact .keep ih

theorem symm (h : Reflow a b) : Reflow b a := by
  induction h with
  | nil => exact .nil
  | keep _ ih => exact .keep ih
  | gap hx hy nonemptyX nonemptyY _ ih => exact .gap hy hx nonemptyY nonemptyX ih

theorem append {c d : List Char} (h : Reflow a b) (h' : Reflow c d) : Reflow (a ++ c) (b ++ d) := by
  induction h with
  | nil => exact h'
  | keep _ ih => exact .keep ih
  | gap hx hy nonemptyX nonemptyY _ ih =>
      rw [List.append_assoc, List.append_assoc]
      exact .gap hx hy nonemptyX nonemptyY ih

theorem blanks {x y : List Char} (hx : Blanks x) (hy : Blanks y) (nonemptyX : x ≠ [])
    (nonemptyY : y ≠ []) : Reflow x y := by
  simpa using Reflow.gap hx hy nonemptyX nonemptyY .nil

theorem reverse (h : Reflow a b) : Reflow a.reverse b.reverse := by
  induction h with
  | nil => exact .nil
  | keep _ ih => simpa using ih.append (refl [_])
  | gap hx hy nonemptyX nonemptyY _ ih =>
      rw [List.reverse_append, List.reverse_append]
      refine ih.append (.blanks ?_ ?_ (by simpa using nonemptyX) (by simpa using nonemptyY))
      · exact fun c hc => hx c (List.mem_reverse.mp hc)
      · exact fun c hc => hy c (List.mem_reverse.mp hc)

/-- How two such texts begin: they end, go on with one character or both have a blank. -/
theorem front (h : Reflow a b) : a = [] ∧ b = [] ∨
    (∃ c a' b', isBlank c = false ∧ a = c :: a' ∧ b = c :: b' ∧ Reflow a' b') ∨
    ∃ c d a' b', isBlank c = true ∧ isBlank d = true ∧ a = c :: a' ∧ b = d :: b' := by
  cases h with
  | nil => exact .inl ⟨rfl, rfl⟩
  | @keep c a b h =>
      cases hc : isBlank c with
      | false => exact .inr (.inl ⟨c, a, b, hc, rfl, rfl, h⟩)
      | true => exact .inr (.inr ⟨c, c, a, b, hc, hc, rfl, rfl⟩)
  | @gap x y a b hx hy nonemptyX nonemptyY h =>
      obtain ⟨c, x, rfl⟩ := List.exists_cons_of_ne_nil nonemptyX
      obtain ⟨d, y, rfl⟩ := List.exists_cons_of_ne_nil nonemptyY
      exact .inr (.inr ⟨c, d, x ++ a, y ++ b, hx c List.mem_cons_self, hy d List.mem_cons_self,
        rfl, rfl⟩)

/-- A text that begins without a blank begins with the same character in both. -/
theorem cons_solid {c : Char} (solid : isBlank c = false) (h : Reflow (c :: a) b) :
    ∃ b', b = c :: b' ∧ Reflow a b' := by
  obtain ⟨ha, -⟩ | ⟨d, a', b', -, ha, rfl, hrest⟩ | ⟨d, e, a', b', hd, -, ha, -⟩ := h.front
  · cases ha
  · cases ha
    exact ⟨b', rfl, hrest⟩
  · cases ha
    rw [hd] at solid
    exact Bool.noConfusion solid

theorem eq_nil_iff (h : Reflow a b) : a = [] ↔ b = [] := by
  obtain ⟨rfl, rfl⟩ | ⟨c, a', b', -, rfl, rfl, -⟩ | ⟨c, d, a', b', -, -, rfl, rfl⟩ := h.front
  all_goals simp

theorem isEmpty_eq (h : Reflow a b) : a.isEmpty = b.isEmpty := by
  rw [Bool.eq_iff_iff, List.isEmpty_iff, List.isEmpty_iff, h.eq_nil_iff]

theorem eq_of_solid (h : Reflow a b) (solid : ∀ c ∈ a, isBlank c = false) : a = b := by
  induction h with
  | nil => rfl
  | keep _ ih => rw [ih fun c hc => solid c (List.mem_cons_of_mem _ hc)]
  | @gap x y a b hx _ nonemptyX _ _ _ =>
      obtain ⟨c, x, rfl⟩ := List.exists_cons_of_ne_nil nonemptyX
      have := solid c (by simp)
      rw [hx c List.mem_cons_self] at this
      exact Bool.noConfusion this

theorem count (h : Reflow a b) {c : Char} (solid : isBlank c = false) : a.count c = b.count c := by
  induction h with
  | nil => rfl
  | keep _ ih => rw [List.count_cons, List.count_cons, ih]
  | gap hx hy _ _ _ ih =>
      rw [List.count_append, List.count_append, count_blanks hx solid, count_blanks hy solid, ih]

/-- What one text begins with counts as much as a beginning of the other. -/
theorem counts (h : Reflow a b) {start : List Char} (hstart : start <+: b) :
    ∃ start', start' <+: a ∧ ∀ c, isBlank c = false → start'.count c = start.count c := by
  induction h generalizing start with
  | nil => exact ⟨start, hstart, fun _ _ => rfl⟩
  | @keep d a b _ ih =>
      cases start with
      | nil => exact ⟨[], List.nil_prefix, fun _ _ => rfl⟩
      | cons e start =>
          obtain ⟨rfl, hrest⟩ := List.cons_prefix_cons.mp hstart
          obtain ⟨start', hprefix, hcounts⟩ := ih hrest
          refine ⟨e :: start', List.cons_prefix_cons.mpr ⟨rfl, hprefix⟩, fun c hc => ?_⟩
          rw [List.count_cons, List.count_cons, hcounts c hc]
  | @gap x y a b hx hy _ _ _ ih =>
      obtain ⟨rest, hrest⟩ := hstart
      rcases List.append_eq_append_iff.mp hrest with ⟨more, rfl, -⟩ | ⟨more, rfl, hmore⟩
      · refine ⟨[], List.nil_prefix, fun c hc => ?_⟩
        rw [count_blanks (fun d hd => hy d (List.mem_append_left more hd)) hc, List.count_nil]
      · obtain ⟨start', hprefix, hcounts⟩ := ih ⟨rest, hmore.symm⟩
        refine ⟨x ++ start', (List.prefix_append_right_inj x).mpr hprefix, fun c hc => ?_⟩
        rw [List.count_append, List.count_append, count_blanks hx hc, count_blanks hy hc,
          hcounts c hc]

theorem mem_iff (h : Reflow a b) {c : Char} (solid : isBlank c = false) : c ∈ a ↔ c ∈ b := by
  rw [← List.count_pos_iff, ← List.count_pos_iff, h.count solid]

section Class

variable {p : Char → Bool} {q : Bool}

theorem takeWhile (h : Reflow a b) (hp : ∀ c, isBlank c = true → p c = q) :
    Reflow (a.takeWhile p) (b.takeWhile p) := by
  induction h with
  | nil => exact .nil
  | @keep c a b _ ih =>
      rw [List.takeWhile_cons, List.takeWhile_cons]
      split
      · exact .keep ih
      · exact .nil
  | gap hx hy nonemptyX nonemptyY _ ih =>
      cases q with
      | true =>
          rw [List.takeWhile_append_of_pos fun c hc => hp c (hx c hc),
            List.takeWhile_append_of_pos fun c hc => hp c (hy c hc)]
          exact .gap hx hy nonemptyX nonemptyY ih
      | false =>
          obtain ⟨c, x, rfl⟩ := List.exists_cons_of_ne_nil nonemptyX
          obtain ⟨d, y, rfl⟩ := List.exists_cons_of_ne_nil nonemptyY
          have hc := hp c (hx c List.mem_cons_self)
          have hd := hp d (hy d List.mem_cons_self)
          simpa [List.takeWhile_cons, hc, hd] using Reflow.nil

theorem dropWhile (h : Reflow a b) (hp : ∀ c, isBlank c = true → p c = q) :
    Reflow (a.dropWhile p) (b.dropWhile p) := by
  induction h with
  | nil => exact .nil
  | @keep c a b h ih =>
      rw [List.dropWhile_cons, List.dropWhile_cons]
      split
      · exact ih
      · exact .keep h
  | gap hx hy nonemptyX nonemptyY h ih =>
      cases q with
      | true =>
          rw [List.dropWhile_append_of_pos fun c hc => hp c (hx c hc),
            List.dropWhile_append_of_pos fun c hc => hp c (hy c hc)]
          exact ih
      | false =>
          have hgap := Reflow.gap hx hy nonemptyX nonemptyY h
          obtain ⟨c, x, rfl⟩ := List.exists_cons_of_ne_nil nonemptyX
          obtain ⟨d, y, rfl⟩ := List.exists_cons_of_ne_nil nonemptyY
          have hc := hp c (hx c List.mem_cons_self)
          have hd := hp d (hy d List.mem_cons_self)
          simpa [List.dropWhile_cons, hc, hd] using hgap

/-- A front without blanks is the same in both texts. -/
theorem takeWhile_eq (h : Reflow a b) (hp : ∀ c, isBlank c = true → p c = false) :
    a.takeWhile p = b.takeWhile p := by
  refine (h.takeWhile hp).eq_of_solid fun c hc => Bool.eq_false_iff.mpr fun hblank => ?_
  have htaken : p c = true := List.all_eq_true.mp List.all_takeWhile c hc
  rw [hp c hblank] at htaken
  exact Bool.noConfusion htaken

end Class

theorem trimLeft (h : Reflow a b) : Reflow (trimLeft a) (trimLeft b) :=
  h.dropWhile fun _ hc => hc

theorem trimRight (h : Reflow a b) : Reflow (trimRight a) (trimRight b) :=
  h.reverse.trimLeft.reverse

theorem trim (h : Reflow a b) : Reflow (trim a) (trim b) :=
  h.trimLeft.trimRight

theorem pair_of_blanks_append {blanks rest : List Char} (h : Blanks blanks) {c d : Char}
    (hc : isBlank c = false) (hpair : [c, d] <:+: blanks ++ rest) : [c, d] <:+: rest := by
  induction blanks with
  | nil => exact hpair
  | cons e blanks ih =>
      rcases List.infix_cons_iff.mp hpair with hfront | hlater
      · obtain ⟨rfl, -⟩ := List.cons_prefix_cons.mp hfront
        rw [h c List.mem_cons_self] at hc
        exact Bool.noConfusion hc
      · exact ih (fun c hc => h c (List.mem_cons_of_mem e hc)) hlater

/-- Two characters that stand together do so in both texts. -/
theorem pair (h : Reflow a b) {c d : Char} (hc : isBlank c = false) (hd : isBlank d = false)
    (hpair : [c, d] <:+: b) : [c, d] <:+: a := by
  induction h with
  | nil => exact hpair
  | @keep e a b h ih =>
      rcases List.infix_cons_iff.mp hpair with hfront | hlater
      · obtain ⟨rfl, rest, rfl⟩ := List.cons_prefix_cons.mp hfront
        obtain ⟨a', rfl, -⟩ := h.symm.cons_solid hd
        exact (List.prefix_append [c, d] a').isInfix
      · exact (ih hlater).trans (List.suffix_cons e a).isInfix
  | @gap x y a b _ hy _ _ _ ih =>
      exact (ih (pair_of_blanks_append hy hc hpair)).trans (List.suffix_append x a).isInfix

end Reflow

/-- A line feed stands between two lines like any other blank. -/
theorem reflow_two {sep : Char} (hsep : isBlank sep = true) {r s t : List Char} (hr : ¬Blanks r)
    (hs : ¬Blanks s) (h : Reflow (trim s) t) :
    Reflow (trim (r ++ '\n' :: s)) (trim r ++ sep :: t) := by
  have hline : ¬Blanks ('\n' :: s) := fun h => hs fun c hc => h c (List.mem_cons_of_mem _ hc)
  obtain ⟨x, hx, hleft⟩ := trimRight_append_end (trimLeft r)
  obtain ⟨y, hy, hright⟩ := exists_trimLeft (trimRight s)
  have hbreak : trimRight ('\n' :: s) = '\n' :: trimRight s := trimRight_append_solid ['\n'] hs
  have hgap : Blanks (x ++ '\n' :: y) :=
    blanks_append hx (List.forall_mem_cons.mpr ⟨by decide, hy⟩)
  rw [trim_append hr hline, hbreak, hright, trimLeft_trimRight, ← hleft]
  have := (Reflow.refl (trim r)).append (.gap hgap (y := [sep]) (by simpa [Blanks] using hsep)
    (by simp) (by simp) h)
  simpa [trim] using this

theorem trim_eq_nil_iff {text : List Char} : trim text = [] ↔ Blanks text :=
  ⟨blanks_of_trim, fun h => trim_append_blanks [] h⟩

/-- The trimmed lines of a text that are not blank, joined by single blanks, are the text with other
blanks between its lines. -/
theorem reflow_lines {sep : Char} (hsep : isBlank sep = true) (rows : List (List Char)) :
    Reflow (trim (['\n'].intercalate rows))
      ([sep].intercalate ((rows.map trim).filter (!·.isEmpty))) := by
  induction rows with
  | nil => exact .nil
  | cons r rows ih =>
      cases rows with
      | nil =>
          cases hr : trim r with
          | nil => simpa [hr] using Reflow.nil
          | cons c text => simpa [hr] using Reflow.refl (c :: text)
      | cons s rest =>
          rw [List.intercalate_cons_cons, List.map_cons, List.filter_cons]
          generalize ['\n'].intercalate (s :: rest) = text at ih ⊢
          generalize hlater : ((s :: rest).map trim).filter (!·.isEmpty) = later at ih ⊢
          by_cases hr : Blanks r
          · have hline : Blanks (r ++ ['\n']) := blanks_append hr (by simp [Blanks, isBlank])
            rw [trim_blanks_append hline]
            simpa [trim_eq_nil_iff.mpr hr] using ih
          rw [if_pos (by simpa using mt trim_eq_nil_iff.mp hr), List.append_assoc]
          cases later with
          | nil =>
              have hblank : Blanks ('\n' :: text) :=
                List.forall_mem_cons.mpr ⟨by decide, blanks_of_trim (ih.eq_nil_iff.mpr rfl)⟩
              rw [List.singleton_append, trim_append_blanks r hblank, List.intercalate_singleton]
              exact .refl (trim r)
          | cons t others =>
              have ht : t ≠ [] := by
                have : t ∈ ((s :: rest).map trim).filter (!·.isEmpty) := hlater ▸ List.mem_cons_self
                simpa using List.of_mem_filter this
              have hjoined : [sep].intercalate (t :: others) ≠ [] := by
                cases others <;> simp [List.intercalate_cons_cons, ht]
              have htext : ¬Blanks text := fun h => hjoined (ih.eq_nil_iff.mp (trim_eq_nil_iff.mpr h))
              rw [List.intercalate_cons_cons, List.append_assoc]
              exact reflow_two hsep hr htext ih

end LibSurvey.Text
