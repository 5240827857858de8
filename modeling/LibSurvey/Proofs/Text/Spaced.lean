import LibSurvey.Proofs.Text.Join
import LibSurvey.Text.Blank
import Mathlib.Data.List.Forall2
import Mathlib.Data.List.Induction

/-!
Tokens with blanks around them. Trimming such a text only takes away the blanks before the first
token and after the last one. What the tokens are, and whether a reader finds them again, remains a
separate obligation.
-/

namespace LibSurvey.Text

def Blanks (text : List Char) : Prop :=
  ∀ c ∈ text, isBlank c = true

/-- A token that has no blank at its ends. -/
structure Tight (token : List Char) : Prop where
  left : trimLeft token = token
  right : trimRight token = token
  nonempty : token ≠ []

/-- A text made of these tokens in order, with any blanks before, between and after them. -/
inductive Spaced : List (List Char) → List Char → Prop where
  | nil {blanks : List Char} : Blanks blanks → Spaced [] blanks
  | cons {before token rest : List Char} {tokens : List (List Char)} :
      Blanks before → Spaced tokens rest → Spaced (token :: tokens) (before ++ (token ++ rest))

theorem blanks_append {a b : List Char} (ha : Blanks a) (hb : Blanks b) : Blanks (a ++ b) := by
  intro c hc
  rcases List.mem_append.mp hc with h | h
  · exact ha c h
  · exact hb c h

theorem trimLeft_blanks_append {blanks : List Char} (h : Blanks blanks) (text : List Char) :
    trimLeft (blanks ++ text) = trimLeft text := by
  induction blanks with
  | nil => rfl
  | cons c blanks ih =>
      have hc : isBlank c = true := h c (by simp)
      have ht : Blanks blanks := fun d hd => h d (by simp [hd])
      simpa [trimLeft, List.dropWhile_cons, hc] using ih ht

theorem trimLeft_blanks {blanks : List Char} (h : Blanks blanks) : trimLeft blanks = [] := by
  simpa [trimLeft] using trimLeft_blanks_append h []

theorem trimRight_append_blanks {blanks : List Char} (h : Blanks blanks) (text : List Char) :
    trimRight (text ++ blanks) = trimRight text := by
  have hr : Blanks blanks.reverse := fun c hc => h c (by simpa using hc)
  have := trimLeft_blanks_append hr text.reverse
  simp only [trimRight, dropLastWhile, List.reverse_append]
  exact congrArg List.reverse this

theorem tight_cons {c : Char} {rest : List Char} (h : Tight (c :: rest)) : isBlank c = false := by
  cases hc : isBlank c with
  | false => rfl
  | true =>
      have hl := congrArg List.length h.left
      have hle := (List.dropWhile_suffix (l := rest) isBlank).length_le
      simp only [trimLeft, List.dropWhile_cons, hc, ite_true, List.length_cons] at hl
      omega

theorem tight_reverse {token : List Char} (h : Tight token) : Tight token.reverse := by
  refine ⟨?_, ?_, by simpa using h.nonempty⟩
  · have := congrArg List.reverse h.right
    simpa [trimRight, dropLastWhile, trimLeft] using this
  · have := congrArg List.reverse h.left
    simpa [trimRight, dropLastWhile, trimLeft] using this

theorem trim_of_tight {token : List Char} (h : Tight token) : trim token = token := by
  rw [trim, h.left, h.right]

theorem trimLeft_solid {token : List Char} (solid : token.any isBlank = false) :
    trimLeft token = token := by
  cases token with
  | nil => rfl
  | cons c token =>
      rw [List.any_cons, Bool.or_eq_false_iff] at solid
      simp [trimLeft, solid.1]

theorem tight_of_solid {token : List Char} (nonempty : token ≠ [])
    (solid : token.any isBlank = false) : Tight token := by
  refine ⟨trimLeft_solid solid, ?_, nonempty⟩
  have hreverse : token.reverse.any isBlank = false := by rw [List.any_reverse, solid]
  simpa [trimRight, dropLastWhile, trimLeft] using
    congrArg List.reverse (trimLeft_solid hreverse)

theorem trimLeft_tight_append {token : List Char} (h : Tight token) (rest : List Char) :
    trimLeft (token ++ rest) = token ++ rest := by
  cases token with
  | nil => exact absurd rfl h.nonempty
  | cons c token => simp [trimLeft, tight_cons h]

theorem trimRight_append_tight {token : List Char} (h : Tight token) (text : List Char) :
    trimRight (text ++ token) = text ++ token := by
  have := congrArg List.reverse (trimLeft_tight_append (tight_reverse h) text.reverse)
  simpa [trimRight, dropLastWhile, trimLeft] using this

/-- Blanks are taken away at the end of what follows a token, and nowhere before it. -/
theorem trimRight_append {token : List Char} (h : Tight token) (text rest : List Char) :
    trimRight (text ++ token ++ rest) = text ++ token ++ trimRight rest := by
  induction rest using List.reverseRecOn with
  | nil => simpa [trimRight, dropLastWhile] using trimRight_append_tight h text
  | append_singleton rest c ih =>
      cases hc : isBlank c with
      | true =>
          have hb : Blanks [c] := by simpa [Blanks] using hc
          rw [← List.append_assoc, trimRight_append_blanks hb, ih, trimRight_append_blanks hb]
      | false =>
          simp [trimRight, dropLastWhile, hc]

theorem spaced_append {a b : List (List Char)} {x y : List Char}
    (hx : Spaced a x) (hy : Spaced b y) : Spaced (a ++ b) (x ++ y) := by
  induction hx with
  | nil hblanks =>
      cases hy with
      | nil h => exact .nil (blanks_append hblanks h)
      | cons h hrest =>
          rw [← List.append_assoc]
          exact .cons (blanks_append hblanks h) hrest
  | cons hbefore _ ih =>
      simpa only [List.cons_append, List.append_assoc] using Spaced.cons hbefore ih

theorem spaced_cons_append {a b : List (List Char)} {token x y : List Char} (hx : Spaced a x)
    (hy : Spaced b y) : Spaced (a ++ token :: b) (x ++ (token ++ y)) :=
  spaced_append hx (Spaced.cons (show Blanks [] by simp [Blanks]) hy)

theorem spaced_joined {gap : List Char} (h : Blanks gap) (tokens : List (List Char)) :
    Spaced tokens (gap.intercalate tokens) := by
  have hnone : Blanks [] := by simp [Blanks]
  induction tokens with
  | nil => exact .nil hnone
  | cons token tokens ih =>
      cases tokens with
      | nil => simpa using Spaced.cons hnone (.nil hnone)
      | cons next tokens =>
          rw [List.intercalate_cons_cons, List.append_assoc]
          exact .cons hnone (spaced_append (.nil h) ih)

theorem spaced_intercalate {α : Type} {tokens : α → List (List Char)} {sep : List Char}
    {items : List α} {texts : List (List Char)}
    (h : List.Forall₂ (fun item x => Spaced (tokens item) x) items texts) :
    Spaced ([sep].intercalate (items.map tokens)) (sep.intercalate texts) := by
  induction h with
  | nil => exact .nil (by simp [Blanks])
  | @cons item x items texts hx hall ih =>
      cases hall with
      | nil => simpa using hx
      | cons hnext hall =>
          rw [List.map_cons, List.map_cons, List.intercalate_cons_cons, List.intercalate_cons_cons]
          simpa using spaced_cons_append hx ih

theorem spaced_append_split {a b : List (List Char)} {text : List Char}
    (h : Spaced (a ++ b) text) :
    ∃ x y, text = x ++ y ∧ Spaced a x ∧ Spaced b y := by
  induction a generalizing text with
  | nil => exact ⟨[], text, rfl, .nil (by simp [Blanks]), h⟩
  | cons token a ih =>
      cases h with
      | cons hbefore hrest =>
          obtain ⟨x, y, rfl, hx, hy⟩ := ih hrest
          exact ⟨_, y, by simp only [List.append_assoc], .cons hbefore hx, hy⟩

theorem spaced_singleton_split {token text : List Char} (h : Spaced [token] text) :
    ∃ before after, text = before ++ (token ++ after) ∧ Blanks before ∧ Blanks after := by
  cases h with
  | cons hbefore hrest =>
      cases hrest with
      | nil hafter => exact ⟨_, _, rfl, hbefore, hafter⟩

/-- Where a token divides the tokens of a text, it divides the text. -/
theorem spaced_cons_split {a b : List (List Char)} {token text : List Char}
    (h : Spaced (a ++ token :: b) text) :
    ∃ x y, text = x ++ (token ++ y) ∧ Spaced a x ∧ Spaced b y := by
  obtain ⟨x, z, rfl, hx, hz⟩ := spaced_append_split h
  cases hz with
  | @cons before _ y _ hbefore hy =>
      refine ⟨x ++ before, y, by simp only [List.append_assoc], ?_, hy⟩
      simpa using spaced_append hx (.nil hbefore)

theorem spaced_intercalate_split {α : Type} {tokens : α → List (List Char)} {sep : List Char}
    {items : List α} {text : List Char} (nonempty : items ≠ [])
    (h : Spaced ([sep].intercalate (items.map tokens)) text) :
    ∃ texts, List.Forall₂ (fun item x => Spaced (tokens item) x) items texts ∧
      text = sep.intercalate texts :=
  intercalate_split spaced_cons_split nonempty h

theorem not_mem_spaced {tokens : List (List Char)} {text : List Char} (h : Spaced tokens text)
    {c : Char} (solid : isBlank c = false) (free : ∀ token ∈ tokens, c ∉ token) : c ∉ text := by
  have outside {blanks : List Char} (hblanks : Blanks blanks) : c ∉ blanks := fun hc => by
    rw [hblanks c hc] at solid
    exact Bool.noConfusion solid
  induction h with
  | nil hblanks => exact outside hblanks
  | cons hbefore _ ih =>
      rw [List.forall_mem_cons] at free
      simp [outside hbefore, free.1, ih free.2]

theorem spaced_ne_nil {token text : List Char} {tokens : List (List Char)} (tight : Tight token)
    (h : Spaced (token :: tokens) text) : text ≠ [] := by
  cases h with
  | cons _ _ => simp [tight.nonempty]

/-- Trimming a text keeps its tokens. -/
theorem spaced_trim {tokens : List (List Char)} {text : List Char}
    (tight : ∀ token ∈ tokens, Tight token) (h : Spaced tokens text) :
    Spaced tokens (trim text) := by
  have right {tokens : List (List Char)} {text : List Char}
      (tight : ∀ token ∈ tokens, Tight token) (h : Spaced tokens text) :
      Spaced tokens (trimRight text) := by
    induction h with
    | nil hblanks =>
        have := trimRight_append_blanks hblanks []
        simp only [List.nil_append] at this
        rw [this]
        exact .nil (by simp [Blanks, trimRight, dropLastWhile])
    | cons hbefore _ ih =>
        rw [← List.append_assoc, trimRight_append (tight _ (by simp)), List.append_assoc]
        exact .cons hbefore (ih fun t ht => tight t (by simp [ht]))
  apply right tight
  cases h with
  | nil hblanks =>
      rw [trimLeft_blanks hblanks]
      exact .nil (by simp [Blanks])
  | cons hbefore hrest =>
      rw [trimLeft_blanks_append hbefore, trimLeft_tight_append (tight _ (by simp))]
      exact Spaced.cons (show Blanks [] by simp [Blanks]) hrest

theorem trim_spaced_singleton {token text : List Char} (tight : Tight token)
    (h : Spaced [token] text) : trim text = token := by
  obtain ⟨before, after, rfl, hbefore, hafter⟩ := spaced_singleton_split h
  rw [trim, trimLeft_blanks_append hbefore, trimLeft_tight_append tight,
    trimRight_append_blanks hafter, tight.right]

end LibSurvey.Text
