import LibSurvey.Path
import LibSurvey.Text.Distinct
import Mathlib.Data.List.Induction

/-!
What comes first in lists: the first thing of which something is true, and lists that keep of all that is
the same the first. What is the same is told by a key: the components of a path, a text by itself. A list of
this kind holds everything once, as it came first, in the order in which things came first.
-/

namespace LibSurvey

variable {α β γ : Type}

/-- The first thing in a list of which something is true. -/
def IsFirst (p : α → Prop) (items : List α) (x : α) : Prop :=
  p x ∧ ∃ before after, items = before ++ x :: after ∧ ∀ y ∈ before, ¬p y

section IsFirst

variable {items : List α} {x y : α}

theorem IsFirst.mem {p : α → Prop} (h : IsFirst p items x) : x ∈ items := by
  obtain ⟨-, before, after, rfl, -⟩ := h
  simp

theorem isFirst_iff_find? {p : α → Bool} :
    IsFirst (p · = true) items x ↔ items.find? p = some x := by
  simp [IsFirst, List.find?_eq_some_iff_append]

/-- If something is true of anything in a list, there is a first one. -/
theorem exists_isFirst {p : α → Prop} (h : ∃ x ∈ items, p x) : ∃ x, IsFirst p items x := by
  classical
  obtain ⟨x, hx, hp⟩ := h
  have hfound : (items.find? (p ·)).isSome = true :=
    List.find?_isSome.mpr ⟨x, hx, decide_eq_true hp⟩
  obtain ⟨first, hfirst⟩ := Option.isSome_iff_exists.mp hfound
  exact ⟨first, by simpa using isFirst_iff_find?.mpr hfirst⟩

theorem IsFirst.unique {p : α → Prop} (h : IsFirst p items x) (h' : IsFirst p items y) : x = y := by
  classical
  have hx : items.find? (p ·) = some x := isFirst_iff_find?.mp (by simpa using h)
  have hy : items.find? (p ·) = some y := isFirst_iff_find?.mp (by simpa using h')
  exact Option.some.inj (hx.symm.trans hy)

end IsFirst

/-- Some front of a list has a thing of the one kind and none of the other. -/
def Precedes (items : List α) (p q : α → Prop) : Prop :=
  ∃ front, front <+: items ∧ (∃ x ∈ front, p x) ∧ ∀ x ∈ front, ¬q x

theorem Precedes.append {items : List α} {p q : α → Prop} (h : Precedes items p q)
    (more : List α) : Precedes (items ++ more) p q := by
  obtain ⟨front, hfront, found, free⟩ := h
  exact ⟨front, hfront.trans (List.prefix_append items more), found, free⟩

/-- What is in order among the things that items give is so among the items. -/
theorem Precedes.of_filterMap {gives : β → Option α} {items : List β} {p q : α → Prop}
    (h : Precedes (items.filterMap gives) p q) :
    Precedes items (fun x => ∃ a, gives x = some a ∧ p a) (fun x => ∃ a, gives x = some a ∧ q a) := by
  obtain ⟨front, hfront, ⟨a, ha, hp⟩, free⟩ := h
  obtain ⟨before, hbefore, rfl⟩ := List.prefix_filterMap_iff.mp hfront
  obtain ⟨x, hx, hgives⟩ := List.mem_filterMap.mp ha
  refine ⟨before, hbefore, ⟨x, hx, a, hgives, hp⟩, ?_⟩
  rintro y hy ⟨b, hb, hq⟩
  exact free b (List.mem_filterMap.mpr ⟨y, hy, hb⟩) hq

section Key

variable [DecidableEq γ] (key : α → γ)

/-- A list holds each thing of another once, the first of its kind, in the order of the first ones. -/
structure Firsts (items kept : List α) : Prop where
  first : ∀ a ∈ kept, items.find? (key · = key a) = some a
  once : ∀ a ∈ items, kept.countP (key · = key a) = 1
  ordered : kept.Pairwise fun a b => Precedes items (key · = key a) (key · = key b)

/-- Adds to a list what is not the same as something in it. -/
def keepNew (kept : List α) (a : α) : List α :=
  if kept.any (key · = key a) then kept else kept ++ [a]

variable {key} {items kept : List α} {a b : α}

theorem Firsts.mem (h : Firsts key items kept) (ha : a ∈ kept) : a ∈ items :=
  List.mem_of_find?_eq_some (h.first a ha)

theorem Firsts.exists_same (h : Firsts key items kept) (ha : a ∈ items) :
    ∃ b ∈ kept, key b = key a := by
  have hcount : 0 < kept.countP (key · = key a) := by rw [h.once a ha]; exact Nat.one_pos
  simpa using List.countP_pos_iff.mp hcount

theorem keepNew_old (hb : b ∈ kept) (same : key b = key a) : keepNew key kept a = kept :=
  if_pos (List.any_eq_true.mpr ⟨b, hb, decide_eq_true same⟩)

theorem keepNew_new (h : ∀ b ∈ kept, key b ≠ key a) : keepNew key kept a = kept ++ [a] :=
  if_neg fun hany => by
    obtain ⟨b, hb, same⟩ := List.any_eq_true.mp hany
    exact h b hb (of_decide_eq_true same)

/-- Either the list has the same already and stays, or the thing is new to it and stands last. -/
theorem keepNew_cases (key : α → γ) (kept : List α) (a : α) :
    (∃ b ∈ kept, key b = key a ∧ keepNew key kept a = kept) ∨
      (∀ b ∈ kept, key b ≠ key a) ∧ keepNew key kept a = kept ++ [a] := by
  by_cases h : ∃ b ∈ kept, key b = key a
  · obtain ⟨b, hb, same⟩ := h
    exact .inl ⟨b, hb, same, keepNew_old hb same⟩
  · have hnew : ∀ b ∈ kept, key b ≠ key a := fun b hb same => h ⟨b, hb, same⟩
    exact .inr ⟨hnew, keepNew_new hnew⟩

theorem firsts_nil : Firsts key [] [] :=
  ⟨by simp, by simp, .nil⟩

theorem Firsts.old (h : Firsts key items kept) (hb : b ∈ kept) (same : key b = key a) :
    Firsts key (items ++ [a]) kept where
  first c hc := by rw [List.find?_append, h.first c hc]; rfl
  once c hc := by
    rcases List.mem_append.mp hc with hc | hc
    · exact h.once c hc
    · rw [List.mem_singleton.mp hc, ← same]
      exact h.once b (h.mem hb)
  ordered := h.ordered.imp fun hprecedes => hprecedes.append [a]

theorem Firsts.new (h : Firsts key items kept) (new : ∀ b ∈ kept, key b ≠ key a) :
    Firsts key (items ++ [a]) (kept ++ [a]) := by
  have absent : ∀ c ∈ items, key c ≠ key a := by
    intro c hc same
    obtain ⟨b, hb, hkey⟩ := h.exists_same hc
    exact new b hb (hkey.trans same)
  refine ⟨?_, ?_, ?_⟩
  · intro c hc
    rw [List.find?_append]
    rcases List.mem_append.mp hc with hc | hc
    · rw [h.first c hc]
      rfl
    · obtain rfl := List.mem_singleton.mp hc
      have hnone : items.find? (key · = key c) = none := by simpa using absent
      simp [hnone]
  · intro c hc
    rw [List.countP_append]
    rcases List.mem_append.mp hc with hc | hc
    · rw [h.once c hc]
      simp [Ne.symm (absent c hc)]
    · obtain rfl := List.mem_singleton.mp hc
      have hnone : kept.countP (key · = key c) = 0 := by simpa [List.countP_eq_zero] using new
      simp [hnone]
  · refine List.pairwise_append.mpr ⟨h.ordered.imp fun hprecedes => hprecedes.append [a], by simp, ?_⟩
    intro c hc d hd
    obtain rfl := List.mem_singleton.mp hd
    exact ⟨items, List.prefix_append items _, ⟨c, h.mem hc, rfl⟩, absent⟩

/-- Keeping one thing after another, where it is new, keeps the first of every kind. -/
theorem firsts_foldl (key : α → γ) (items : List α) :
    Firsts key items (items.foldl (keepNew key) []) := by
  induction items using List.reverseRecOn with
  | nil => exact firsts_nil
  | append_singleton items a ih =>
      rw [List.foldl_append, List.foldl_cons, List.foldl_nil]
      rcases keepNew_cases key (items.foldl (keepNew key) []) a with ⟨b, hb, same, hold⟩ | ⟨new, hnew⟩
      · rw [hold]
        exact ih.old hb same
      · rw [hnew]
        exact ih.new new

/-- What is kept after a list stands behind it, and none of it is the same as anything in the list. -/
theorem foldl_keepNew_eq_append (key : α → γ) (kept items : List α) :
    ∃ more, items.foldl (keepNew key) kept = kept ++ more ∧
      ∀ a ∈ more, a ∈ items ∧ ∀ b ∈ kept, key b ≠ key a := by
  induction items using List.reverseRecOn with
  | nil => exact ⟨[], by simp, by simp⟩
  | append_singleton items a ih =>
      obtain ⟨more, hmore, hfrom⟩ := ih
      have hweak : ∀ c ∈ more, c ∈ items ++ [a] ∧ ∀ b ∈ kept, key b ≠ key c :=
        fun c hc => ⟨List.mem_append_left _ (hfrom c hc).1, (hfrom c hc).2⟩
      rw [List.foldl_append, List.foldl_cons, List.foldl_nil, hmore]
      rcases keepNew_cases key (kept ++ more) a with ⟨b, _, _, hold⟩ | ⟨new, hnew⟩
      · exact ⟨more, hold, hweak⟩
      · refine ⟨more ++ [a], by rw [hnew, List.append_assoc], ?_⟩
        intro c hc
        rcases List.mem_append.mp hc with hc | hc
        · exact hweak c hc
        · obtain rfl := List.mem_singleton.mp hc
          exact ⟨by simp, fun b hb => new b (List.mem_append_left more hb)⟩

theorem exists_same_foldl (key : α → γ) (kept : List α) (ha : a ∈ items) :
    ∃ b ∈ items.foldl (keepNew key) kept, key b = key a := by
  obtain ⟨before, after, rfl⟩ := List.append_of_mem ha
  rw [List.foldl_append, List.foldl_cons]
  obtain ⟨more, hmore, -⟩ :=
    foldl_keepNew_eq_append key (keepNew key (before.foldl (keepNew key) kept) a) after
  rw [hmore]
  rcases keepNew_cases key (before.foldl (keepNew key) kept) a with ⟨b, hb, same, hold⟩ | ⟨-, hnew⟩
  · exact ⟨b, by simp [hold, hb], same⟩
  · exact ⟨a, by simp [hnew], rfl⟩

/-- Keeping the first of every kind beforehand makes no difference. -/
theorem foldl_keepNew_firsts (key : α → γ) (kept items : List α) :
    (items.foldl (keepNew key) []).foldl (keepNew key) kept = items.foldl (keepNew key) kept := by
  induction items using List.reverseRecOn with
  | nil => rfl
  | append_singleton items a ih =>
      rw [List.foldl_append, List.foldl_append, List.foldl_cons, List.foldl_nil, List.foldl_cons,
        List.foldl_nil]
      rcases keepNew_cases key (items.foldl (keepNew key) []) a with ⟨b, hb, same, hold⟩ | ⟨-, hnew⟩
      · obtain ⟨c, hc, hkey⟩ := exists_same_foldl key kept hb
        rw [ih] at hc
        rw [hold, ih, keepNew_old hc (hkey.trans same)]
      · rw [hnew, List.foldl_append, ih, List.foldl_cons, List.foldl_nil]

end Key

theorem Path.distinct_eq_foldl (paths : List Path) :
    Path.distinct paths = paths.foldl (keepNew Path.components) [] := rfl

theorem Path.firsts_distinct (paths : List Path) :
    Firsts Path.components paths (Path.distinct paths) :=
  firsts_foldl Path.components paths

theorem Text.firsts_distinct (texts : List String) : Firsts id texts (Text.distinct texts) := by
  have hkeep : (fun (kept : List String) text => if kept.contains text then kept else kept ++ [text]) =
      keepNew id := by
    funext kept text
    rw [keepNew, ← List.any_beq']
    rfl
  rw [Text.distinct, hkeep]
  exact firsts_foldl id texts

end LibSurvey
