import LibSurvey.Header.Prototype
import LibSurvey.Proofs.Text.Brackets
import LibSurvey.Proofs.Token.Lexeme
import Mathlib.Logic.Relation

/-!
Annotations put into a statement. Wherever one stands, with or without arguments, it is taken out
again: alone, or with the arguments of an annotation that it stands in. The two places where it
would take something with it are left out, before a parenthesis and before the language of an
`extern`.
-/

namespace LibSurvey.Prototype

variable {annotations : Annotations}

def round : Brackets Token where
  opens token := token.isPunct "("
  closes token := token.isPunct ")"
  divides _ := false

/-- What may follow an annotation: nothing, or a group whose parentheses match. -/
inductive Arguments : List Token → Prop where
  | none : Arguments []
  | group {opening closing : Token} {inner : List Token} :
      opening.isPunct "(" = true → closing.isPunct ")" = true →
      round.Level (fun _ => True) inner → Arguments (opening :: (inner ++ [closing]))

/-- A word that counts as noise, and its arguments if it has any. -/
inductive IsAnnotation (annotations : Annotations) : List Token → Prop where
  | intro {word : Token} {arguments : List Token} : word.kind = .word → word.text ≠ "extern" →
      annotations.isNoise word.text = true → Arguments arguments →
      IsAnnotation annotations (word :: arguments)

/-- A place in a statement where no parenthesis follows, nor the language of an `extern`. -/
structure Place (before after : List Token) : Prop where
  unopened : ∀ next ∈ after.head?, next.isPunct "(" = false
  unnamed : ∀ last ∈ before.getLast?, last.isWord "extern" = true →
    ∀ next ∈ after.head?, next.kind ≠ .string

/-- A statement, and the same one with an annotation put into it. -/
inductive Annotated (annotations : Annotations) : List Token → List Token → Prop where
  | insert {before after inserted : List Token} : IsAnnotation annotations inserted →
      Place before after → Annotated annotations (before ++ after) (before ++ (inserted ++ after))

theorem Place.suffix {before left after : List Token} (place : Place before after)
    (h : left <:+ before) : Place left after := by
  obtain ⟨front, rfl⟩ := h
  refine ⟨place.unopened, fun last hlast => place.unnamed last ?_⟩
  rw [Option.mem_def] at hlast ⊢
  rw [List.getLast?_append, hlast, Option.some_or]

theorem closing?_cons (depth : Nat) (seen : List Token) (token : Token) (rest : List Token) :
    closing? depth seen (token :: rest) =
      if token.isPunct "(" then closing? (depth + 1) (token :: seen) rest
      else if token.isPunct ")" then
        match depth with
        | 0 => some (seen.reverse, rest)
        | depth + 1 => closing? depth (token :: seen) rest
      else closing? depth (token :: seen) rest :=
  closing?.eq_def depth seen (token :: rest)

theorem closing?_level {p : Token → Prop} {tokens : List Token} (level : round.Level p tokens)
    (depth : Nat) (seen rest : List Token) :
    closing? depth seen (tokens ++ rest) = closing? depth (tokens.reverse ++ seen) rest := by
  induction level generalizing depth seen rest with
  | nil => rfl
  | @item _ token _ opens closes _ _ ih =>
      have hopen : token.isPunct "(" = false := opens
      have hclose : token.isPunct ")" = false := closes
      rw [List.cons_append, closing?_cons, hopen, hclose]
      simpa using ih depth (token :: seen) rest
  | @group _ first last inner _ opens unopened closes _ _ ihInner ih =>
      have hfirst : first.isPunct "(" = true := opens
      have hopen : last.isPunct "(" = false := unopened
      have hclose : last.isPunct ")" = true := closes
      rw [List.cons_append, List.append_assoc, closing?_cons, if_pos hfirst, ihInner,
        List.cons_append, closing?_cons, hopen, hclose]
      simpa using ih depth (last :: (inner.reverse ++ first :: seen)) rest

/-- What was read inside a group has no part in what follows it. -/
theorem closing?_seen (depth : Nat) (seen other tokens : List Token) :
    (closing? depth seen tokens).map Prod.snd = (closing? depth other tokens).map Prod.snd := by
  induction tokens generalizing depth seen other with
  | nil => rfl
  | cons token tokens ih =>
      rw [closing?_cons, closing?_cons]
      split
      · exact ih _ _ _
      split
      · cases depth with
        | zero => rfl
        | succ depth => exact ih _ _ _
      · exact ih _ _ _

/-- What follows a group, without tokens that are put behind others and with them: either the group
has closed before them, and they are left, or they fall inside, and it closes where it did. -/
def LeftBehind (before inserted after : List Token) (alone together : Option (List Token)) : Prop :=
  (∃ left, left <:+ before ∧ alone = some (left ++ after) ∧
    together = some (left ++ (inserted ++ after))) ∨
  together = alone

theorem LeftBehind.cons {before inserted after : List Token} {alone together : Option (List Token)}
    (h : LeftBehind before inserted after alone together) (token : Token) :
    LeftBehind (token :: before) inserted after alone together := by
  obtain ⟨left, suffix, h⟩ | h := h
  · exact .inl ⟨left, suffix.trans (List.suffix_cons token before), h⟩
  · exact .inr h

theorem closing?_insert {inserted : List Token} (level : round.Level (fun _ => True) inserted)
    (depth : Nat) (seen before after : List Token) :
    LeftBehind before inserted after ((closing? depth seen (before ++ after)).map Prod.snd)
      ((closing? depth seen (before ++ (inserted ++ after))).map Prod.snd) := by
  induction before generalizing depth seen with
  | nil =>
      refine .inr ?_
      rw [List.nil_append, List.nil_append, closing?_level level]
      exact closing?_seen _ _ _ _
  | cons token before ih =>
      rw [List.cons_append, List.cons_append, closing?_cons, closing?_cons]
      split
      · exact (ih _ _).cons token
      split
      · cases depth with
        | zero => exact .inl ⟨before, List.suffix_cons token before, rfl, rfl⟩
        | succ depth => exact (ih _ _).cons token
      · exact (ih _ _).cons token

theorem afterGroup_opened {token : Token} (h : token.isPunct "(" = true) (rest : List Token) :
    afterGroup (token :: rest) = ((closing? 0 [] rest).map Prod.snd).getD [] := by
  rw [afterGroup, if_pos h]
  cases closing? 0 [] rest <;> rfl

theorem afterGroup_unopened {tokens : List Token}
    (h : ∀ token ∈ tokens.head?, token.isPunct "(" = false) : afterGroup tokens = tokens := by
  cases tokens with
  | nil => rfl
  | cons token rest => simp [afterGroup, h token rfl]

theorem afterLanguage_suffix (tokens : List Token) : afterLanguage tokens <:+ tokens := by
  cases tokens with
  | nil => exact List.suffix_rfl
  | cons token rest =>
      rw [afterLanguage]
      split
      · exact List.suffix_cons token rest
      · exact List.suffix_rfl

theorem closing?_suffix {depth : Nat} {seen tokens : List Token}
    {found : List Token × List Token} (h : closing? depth seen tokens = some found) :
    found.2 <:+ tokens := by
  fun_induction closing? depth seen tokens with
  | case1 => cases h
  | case2 _ _ token _ _ ih => exact (ih h).trans (List.suffix_cons token _)
  | case3 _ token rest => cases h; exact List.suffix_cons token rest
  | case4 _ token _ _ _ _ ih => exact (ih h).trans (List.suffix_cons token _)
  | case5 _ _ token _ _ _ ih => exact (ih h).trans (List.suffix_cons token _)

theorem afterGroup_suffix (tokens : List Token) : afterGroup tokens <:+ tokens := by
  cases tokens with
  | nil => exact List.suffix_rfl
  | cons token rest =>
      by_cases hopen : token.isPunct "(" = true
      · rw [afterGroup_opened hopen]
        cases hclosing : closing? 0 [] rest with
        | none => exact List.nil_suffix
        | some found => exact (closing?_suffix hclosing).trans (List.suffix_cons token rest)
      · have hrest : afterGroup (token :: rest) = token :: rest := if_neg hopen
        exact hrest.symm ▸ List.suffix_rfl

/-- Taking annotations out only leaves tokens out. -/
theorem stripNoise_sublist (annotations : Annotations) (tokens : List Token) :
    (stripNoise annotations tokens).Sublist tokens := by
  fun_induction stripNoise annotations tokens with
  | case1 => exact List.Sublist.refl []
  | case2 token rest _ ih => exact (ih.trans (afterLanguage_suffix rest).sublist).cons token
  | case3 token rest _ _ ih => exact (ih.trans (afterGroup_suffix rest).sublist).cons token
  | case4 token _ _ _ ih => exact ih.cons_cons token

theorem afterLanguage_append {tokens : List Token} (h : tokens ≠ []) (rest : List Token) :
    afterLanguage (tokens ++ rest) = afterLanguage tokens ++ rest := by
  cases tokens with
  | nil => exact absurd rfl h
  | cons token tokens =>
      rw [List.cons_append, afterLanguage, afterLanguage]
      split <;> rfl

theorem afterLanguage_unnamed {tokens : List Token}
    (h : ∀ token ∈ tokens.head?, token.kind ≠ .string) : afterLanguage tokens = tokens := by
  cases tokens with
  | nil => rfl
  | cons token rest => simp [afterLanguage, h token rfl]

theorem Arguments.level {arguments : List Token} (h : Arguments arguments) :
    round.Level (fun _ => True) arguments := by
  cases h with
  | none => exact .nil
  | group opens closes level =>
      exact .group _ _ opens (Token.isPunct_ne closes (by decide)) closes level .nil

theorem Arguments.afterGroup {arguments rest : List Token} (h : Arguments arguments)
    (unopened : ∀ next ∈ rest.head?, next.isPunct "(" = false) :
    afterGroup (arguments ++ rest) = rest := by
  cases h with
  | none => exact afterGroup_unopened unopened
  | @group opening closing inner opens closes level =>
      have hopen : closing.isPunct "(" = false := Token.isPunct_ne closes (by decide)
      rw [List.cons_append, afterGroup_opened opens, List.append_assoc, closing?_level level,
        List.singleton_append, closing?, hopen, closes]
      rfl

namespace IsAnnotation

variable {inserted : List Token}

theorem level (h : IsAnnotation annotations inserted) : round.Level (fun _ => True) inserted := by
  cases h with
  | intro hkind _ _ arguments =>
      exact .item (by simp [round, Token.isPunct, hkind]) (by simp [round, Token.isPunct, hkind])
        trivial arguments.level

theorem head_word (h : IsAnnotation annotations inserted) {rest : List Token} {next : Token}
    (hnext : next ∈ (inserted ++ rest).head?) : next.kind = .word := by
  cases h with
  | intro hkind =>
      obtain rfl : _ = next := by simpa using hnext
      exact hkind

/-- An annotation at the front is taken out with its arguments. -/
theorem stripNoise_front (h : IsAnnotation annotations inserted) {rest : List Token}
    (unopened : ∀ next ∈ rest.head?, next.isPunct "(" = false) :
    stripNoise annotations (inserted ++ rest) = stripNoise annotations rest := by
  cases h with
  | intro hkind hextern hnoise arguments =>
      rw [List.cons_append, stripNoise, arguments.afterGroup unopened]
      simp [Token.isWord, hkind, hextern, hnoise]

end IsAnnotation

section

variable {inserted after : List Token} (h : IsAnnotation annotations inserted)
  (unopened : ∀ next ∈ after.head?, next.isPunct "(" = false)

include h unopened

/-- An annotation behind an `extern`. The ends of what stands between are known to be right. -/
theorem stripNoise_afterLanguage {before : List Token}
    (unnamed : before = [] → ∀ next ∈ after.head?, next.kind ≠ .string)
    (shorter : ∀ left, left <:+ before →
      stripNoise annotations (left ++ (inserted ++ after)) =
        stripNoise annotations (left ++ after)) :
    stripNoise annotations (afterLanguage (before ++ (inserted ++ after))) =
      stripNoise annotations (afterLanguage (before ++ after)) := by
  by_cases hbefore : before = []
  · have hinserted : ∀ next ∈ (inserted ++ after).head?, next.kind ≠ .string :=
      fun next hnext => by simp [h.head_word hnext]
    rw [hbefore, List.nil_append, List.nil_append, afterLanguage_unnamed hinserted,
      afterLanguage_unnamed (unnamed hbefore)]
    exact h.stripNoise_front unopened
  · rw [afterLanguage_append hbefore, afterLanguage_append hbefore]
    exact shorter _ (afterLanguage_suffix before)

/-- An annotation behind another one, or inside its arguments. -/
theorem stripNoise_afterGroup {before : List Token}
    (shorter : ∀ left, left <:+ before →
      stripNoise annotations (left ++ (inserted ++ after)) =
        stripNoise annotations (left ++ after)) :
    stripNoise annotations (afterGroup (before ++ (inserted ++ after))) =
      stripNoise annotations (afterGroup (before ++ after)) := by
  match before with
  | [] =>
      have hinserted : ∀ next ∈ (inserted ++ after).head?, next.isPunct "(" = false :=
        fun next hnext => by simp [Token.isPunct, h.head_word hnext]
      rw [List.nil_append, List.nil_append, afterGroup_unopened hinserted,
        afterGroup_unopened unopened]
      exact h.stripNoise_front unopened
  | next :: inner =>
      cases hopen : next.isPunct "(" with
      | false =>
          have hfront : ∀ rest : List Token, afterGroup (next :: rest) = next :: rest :=
            fun rest => afterGroup_unopened (by simpa using hopen)
          rw [List.cons_append, List.cons_append, hfront, hfront]
          exact shorter (next :: inner) List.suffix_rfl
      | true =>
          rw [List.cons_append, List.cons_append, afterGroup_opened hopen, afterGroup_opened hopen]
          obtain ⟨left, suffix, halone, htogether⟩ | hsame :=
            closing?_insert h.level 0 [] inner after
          · rw [halone, htogether]
            exact shorter left (suffix.trans (List.suffix_cons next inner))
          · rw [hsame]

end

/-- An annotation put into a statement is taken out again and takes nothing with it. -/
theorem stripNoise_insert {inserted after : List Token} (h : IsAnnotation annotations inserted)
    (before : List Token) (place : Place before after) :
    stripNoise annotations (before ++ (inserted ++ after)) =
      stripNoise annotations (before ++ after) := by
  match before with
  | [] => exact h.stripNoise_front place.unopened
  | token :: before =>
      have shorter : ∀ left, left <:+ before →
          stripNoise annotations (left ++ (inserted ++ after)) =
            stripNoise annotations (left ++ after) := fun left suffix =>
        have := suffix.length_le
        stripNoise_insert h left (place.suffix (suffix.trans (List.suffix_cons token before)))
      rw [List.cons_append, List.cons_append, stripNoise, stripNoise]
      split
      case isTrue hextern =>
        refine stripNoise_afterLanguage h place.unopened (fun hbefore => ?_) shorter
        exact place.unnamed token (by simp [hbefore]) hextern
      case isFalse =>
        split
        case isTrue => exact stripNoise_afterGroup h place.unopened shorter
        case isFalse => rw [shorter before List.suffix_rfl]
termination_by before.length
decreasing_by simp only [List.length_cons]; omega

/-- However many annotations are put into a statement, it declares the same function with the same
signature, or no function as before. -/
theorem ofStatement?_annotated {statement annotated : List Token}
    (h : Relation.ReflTransGen (Annotated annotations) statement annotated) :
    ofStatement? annotations annotated = ofStatement? annotations statement := by
  induction h with
  | refl => rfl
  | tail _ hlast ih =>
      cases hlast with
      | insert hannotation place =>
          rw [← ih, ofStatement?, ofStatement?, stripNoise_insert hannotation _ place]

/-- The tokens of one line. -/
def lineOf (lexemes : List Lexeme) : List Token :=
  lexemes.map (·.onLine 1)

/-- The front of a prototype, up to the arguments of an annotation. -/
def attributed : List Token :=
  lineOf [.word "extern", .word "int", .word "__attribute__", .mark "(", .word "pure"]

/-- The rest of the prototype, from the end of these arguments. -/
def named : List Token :=
  lineOf [.mark ")", .word "read", .mark "(", .word "int", .word "fd", .mark ")"]

def nonnull : List Token :=
  lineOf [.word "__nonnull", .mark "(", .mark "(", .number "1", .mark ")", .mark ")"]

/-- A word in the arguments of an annotation, then an annotation with arguments at the end. -/
theorem ofStatement?_annotated_twice :
    Relation.ReflTransGen (Annotated ⟨[]⟩) (attributed ++ named)
        (attributed ++ (lineOf [.word "__wur"] ++ named) ++ nonnull) ∧
      ofStatement? ⟨[]⟩ (attributed ++ (lineOf [.word "__wur"] ++ named) ++ nonnull) =
        ofStatement? ⟨[]⟩ (attributed ++ named) ∧
      ofStatement? ⟨[]⟩ (attributed ++ named) =
        some ("read", ⟨"int", [⟨"int", some "fd"⟩]⟩) := by
  have alone : IsAnnotation ⟨[]⟩ (lineOf [.word "__wur"]) :=
    .intro rfl (by decide) (by decide +kernel) .none
  have inner : round.Level (fun _ => True) (lineOf [.mark "(", .number "1", .mark ")"]) :=
    .group ((Lexeme.mark "(").onLine 1) ((Lexeme.mark ")").onLine 1) rfl rfl rfl
      (.item rfl rfl trivial .nil) .nil
  have grouped : IsAnnotation ⟨[]⟩ nonnull :=
    .intro rfl (by decide) (by decide +kernel) (.group rfl rfl inner)
  have first : Annotated ⟨[]⟩ (attributed ++ named)
      (attributed ++ (lineOf [.word "__wur"] ++ named)) :=
    .insert alone ⟨by decide, by decide⟩
  have second : Annotated ⟨[]⟩ (attributed ++ (lineOf [.word "__wur"] ++ named))
      (attributed ++ (lineOf [.word "__wur"] ++ named) ++ nonnull) :=
    @Annotated.insert _ (attributed ++ (lineOf [.word "__wur"] ++ named)) [] nonnull grouped
      ⟨by decide, by decide⟩
  have both : Relation.ReflTransGen (Annotated ⟨[]⟩) (attributed ++ named)
      (attributed ++ (lineOf [.word "__wur"] ++ named) ++ nonnull) := .tail (.single first) second
  exact ⟨both, ofStatement?_annotated both, by decide +kernel⟩

end LibSurvey.Prototype
