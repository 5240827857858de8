import LibSurvey.Proofs.Constant.Respaced

/-!
Texts that differ in blanks between their tokens have one value. Each alternative of the evaluator is
taken for both texts or for neither, and the texts it goes on with are alike again: the sides of an
operator, what stands in parentheses and what a call of a macro stands for.
-/

namespace LibSurvey.Literal

/-- What follows a sign and the blanks after it is not read before it is there. -/
theorem splitSign_extended {s : List Char} (nonempty : s ≠ []) (t : List Char) :
    splitSign (s ++ t) = ((splitSign s).1,
      if (splitSign s).2 = [] then Text.trimLeft t else (splitSign s).2 ++ t) := by
  have trimmed (rest : List Char) : Text.trimLeft (rest ++ t) =
      if Text.trimLeft rest = [] then Text.trimLeft t else Text.trimLeft rest ++ t := by
    by_cases h : rest.dropWhile Text.isBlank = [] <;>
      simp [Text.trimLeft, List.dropWhile_append, h]
  obtain ⟨c, s, rfl⟩ := List.exists_cons_of_ne_nil nonempty
  by_cases hminus : c = '-'
  · subst hminus
    simp [splitSign, trimmed]
  by_cases hplus : c = '+'
  · subst hplus
    simp [splitSign, trimmed]
  · rw [splitSign, splitSign]
    all_goals simp [hminus, hplus]

end LibSurvey.Literal

namespace LibSurvey.Expression
open Text (Blanks)

variable {s t : List Char} {w : Char}

/-- A joint stands within no name. -/
theorem Joint.not_nameChars (joint : Joint s t) {u : List Char} (suffix : u <:+ s) (hu : u ≠ [])
    (ht : t ≠ []) : ¬∀ c ∈ u ++ t, isNameChar c = true := by
  intro h
  obtain ⟨d, rest, rfl⟩ := List.exists_cons_of_ne_nil ht
  have hlast : u.getLast hu ∈ s.getLast? := by
    rw [suffix.getLast hu]
    exact List.getLast?_eq_some_getLast _
  have hhead := joint.names _ hlast d rfl (h _ (List.mem_append_left _ (List.getLast_mem hu)))
  rw [h d (by simp)] at hhead
  cases hhead

theorem not_nameChars_blank (hw : Text.isBlank w = true) :
    ¬∀ c ∈ s ++ w :: t, isNameChar c = true := by
  intro h
  rw [isBlank_of_isNameChar (h w (by simp))] at hw
  cases hw

theorem isName_widened (joint : Joint s t) (hs : s ≠ []) (ht : t ≠ [])
    (hw : Text.isBlank w = true) :
    isName (s ++ t) = false ∧ isName (s ++ w :: t) = false :=
  ⟨Bool.eq_false_iff.mpr fun h =>
      joint.not_nameChars List.suffix_rfl hs ht fun _ => isNameChar_of_isName h,
    Bool.eq_false_iff.mpr fun h => not_nameChars_blank hw fun _ => isNameChar_of_isName h⟩

/-- A literal has its blanks only after a sign. -/
theorem literal_widened (joint : Joint s t) (hs : s ≠ []) (ht : t ≠ []) (hw : Text.isBlank w = true)
    (narrow : Text.trim (s ++ t) = s ++ t) (wide : Text.trim (s ++ w :: t) = s ++ w :: t) :
    Literal.ofChars? (s ++ t) = Literal.ofChars? (s ++ w :: t) := by
  by_cases hsign : (Literal.splitSign s).2 = []
  · have hblank : Text.trimLeft (w :: t) = Text.trimLeft t := by
      rw [Text.trimLeft, List.dropWhile_cons_of_pos hw, Text.trimLeft]
    rw [Literal.ofChars?, Literal.ofChars?, narrow, wide, Literal.splitSign_extended hs,
      Literal.splitSign_extended hs, if_pos hsign, if_pos hsign, hblank]
  · have hsuffix : (Literal.splitSign s).2 <:+ s := by
      obtain ⟨sign, -, gap, -, htext⟩ := Literal.splitSign_spec s
      exact ⟨sign ++ gap, by rw [List.append_assoc, ← htext]⟩
    have chars {text after : List Char} (htrim : Text.trim text = text) (htext : text = s ++ after)
        (h : (Literal.ofChars? text).isSome) :
        ∀ c ∈ (Literal.splitSign s).2 ++ after, isNameChar c = true := by
      intro c hc
      refine Literal.isNameChar_of_isBody (Literal.isBody_of_ofChars? h ?_)
      rwa [htrim, htext, Literal.splitSign_extended hs, if_neg hsign]
    have hnarrow : Literal.ofChars? (s ++ t) = none :=
      Option.not_isSome_iff_eq_none.mp fun h =>
        joint.not_nameChars hsuffix hsign ht (chars narrow rfl h)
    have hwide : Literal.ofChars? (s ++ w :: t) = none :=
      Option.not_isSome_iff_eq_none.mp fun h => not_nameChars_blank hw (chars wide rfl h)
    rw [hnarrow, hwide]

/-- What stands in the parentheses of two texts that begin with one. -/
theorem enclosed?_open (joint : Joint s t) (ht : t ≠ []) (hw : Text.isBlank w = true) :
    Option.Rel Widened (enclosed? ('(' :: (s ++ t))) (enclosed? ('(' :: (s ++ w :: t))) := by
  have hclosed := closing?_widened hw ht 0 [] joint
  rw [enclosed?, enclosed?]
  generalize closing? 0 [] (s ++ t) = narrow at hclosed ⊢
  generalize closing? 0 [] (s ++ w :: t) = wide at hclosed ⊢
  cases hclosed with
  | none => exact .none
  | @before inner a b ha hb =>
      obtain ⟨x, a, rfl⟩ := List.exists_cons_of_ne_nil ha
      obtain ⟨y, b, rfl⟩ := List.exists_cons_of_ne_nil hb
      exact .none
  | @after a b rest widened =>
      cases rest with
      | nil => exact .some widened
      | cons c rest => exact .none

theorem enclosed?_widened (joint : Joint s t) (hs : s ≠ []) (ht : t ≠ [])
    (hw : Text.isBlank w = true) :
    Option.Rel Widened (enclosed? (s ++ t)) (enclosed? (s ++ w :: t)) := by
  obtain ⟨c, s, rfl⟩ := List.exists_cons_of_ne_nil hs
  by_cases hopen : c = '('
  · subst hopen
    refine enclosed?_open (Joint.of_suffix (u := ['(']) joint ?_) ht hw
    simp
  · rw [List.cons_append, List.cons_append, enclosed?, enclosed?]
    · exact .none
    all_goals simp [hopen]

/-- Two calls of one macro. -/
structure CallAlike (a b : List Char × List Char) : Prop where
  name : a.1 = b.1
  arguments : a.2 = b.2 ∨ Widened a.2 b.2

theorem splitCall?_widened (joint : Joint s t) (ht : t ≠ []) (hw : Text.isBlank w = true) :
    Option.Rel CallAlike (splitCall? (s ++ t)) (splitCall? (s ++ w :: t)) := by
  have hwopen : '(' ≠ w := by rintro rfl; exact absurd hw (by decide)
  by_cases hopen : '(' ∈ s
  · obtain ⟨front, rest, rfl, hfront⟩ := List.eq_append_cons_of_mem hopen
    have hjoint : Joint rest t := by
      refine Joint.of_suffix (u := front ++ ['(']) (by simpa using joint) ?_
      simp
    rw [List.append_assoc, List.append_assoc, List.cons_append, List.cons_append,
      splitCall?_open hfront, splitCall?_open hfront]
    cases isName (Text.trim front) with
    | false => exact .none
    | true =>
        have henclosed := enclosed?_open hjoint ht hw
        generalize enclosed? ('(' :: (rest ++ t)) = narrow at henclosed ⊢
        generalize enclosed? ('(' :: (rest ++ w :: t)) = wide at henclosed ⊢
        cases henclosed with
        | none => exact .none
        | some widened => exact .some ⟨rfl, .inr widened⟩
  by_cases hlate : '(' ∈ t
  · obtain ⟨front, rest, rfl, hfront⟩ := List.eq_append_cons_of_mem hlate
    have hnarrow : '(' ∉ s ++ front := by simp [hopen, hfront]
    have hwide : '(' ∉ s ++ w :: front := by simp [hopen, hfront, hwopen]
    have hwidened := Widened.blank hw (joint.of_front (List.prefix_append front ('(' :: rest)))
    rw [← List.append_assoc, ← List.cons_append, ← List.append_assoc, splitCall?_open hnarrow,
      splitCall?_open hwide]
    have same (call : Option (List Char × List Char)) : Option.Rel CallAlike call call := by
      cases call with
      | none => exact .none
      | some call => exact .some ⟨rfl, .inl rfl⟩
    rcases hwidened.trim with htrim | ⟨x, y, v, hx, hy, hv, hjoint, hnarrow, hwide⟩
    · rw [htrim]
      exact same _
    · rw [hnarrow, hwide, (isName_widened hjoint hx hy hv).1, (isName_widened hjoint hx hy hv).2]
      exact .none
  · rw [splitCall?_unopened (by simp [hopen, hlate]),
      splitCall?_unopened (by simp [hopen, hlate, hwopen])]
    exact .none

theorem splitArguments_alike {a b : List Char} (h : a = b ∨ Widened a b) :
    List.Forall₂ Respaced (splitArguments a) (splitArguments b) := by
  rcases h with rfl | h
  · exact List.forall₂_same.mpr fun argument _ => respaced_refl argument
  have hparts : List.Forall₂ Alike (splitTop ',' a) (splitTop ',' b) := by
    cases h with
    | blank hw joint =>
        exact splitTopFrom_widened (by decide) (by decide) hw [] [] joint (by simp)
  rw [splitArguments, splitArguments]
  generalize splitTop ',' a = narrow at hparts ⊢
  generalize splitTop ',' b = wide at hparts ⊢
  cases hparts with
  | nil => exact .nil
  | @cons x y xs ys first rest =>
      cases rest with
      | nil =>
          have hempty : (Text.trim x).isEmpty = (Text.trim y).isEmpty := by
            rw [Bool.eq_iff_iff, List.isEmpty_iff, List.isEmpty_iff]
            exact Respaced.nil_iff first
          simp only [hempty]
          split
          · exact .nil
          · exact .cons first .nil
      | cons second rest =>
          refine .cons first (.cons second ?_)
          exact List.forall₂_map_left_iff.mpr (List.forall₂_map_right_iff.mpr rest)

theorem argumentFor_respaced (params : List String) {xs ys : List (List Char)}
    (h : List.Forall₂ Respaced xs ys) (word : List Char) :
    Respaced (argumentFor params xs word) (argumentFor params ys word) := by
  have found : Option.Rel Respaced ((params.zip xs).lookup (String.ofList word))
      ((params.zip ys).lookup (String.ofList word)) := by
    induction h generalizing params with
    | nil => simp
    | cons hx _ ih =>
        cases params with
        | nil => exact .none
        | cons param params =>
            rw [List.zip_cons_cons, List.zip_cons_cons, List.lookup_cons, List.lookup_cons]
            split
            · exact .some hx
            · exact ih params
  unfold argumentFor
  split
  · exact respaced_refl []
  · generalize (params.zip xs).lookup (String.ofList word) = x at found ⊢
    generalize (params.zip ys).lookup (String.ofList word) = y at found ⊢
    cases found with
    | none => exact respaced_refl word
    | some h => exact h

/-- The arguments come into the body as they are written. -/
theorem substitute_respaced (body : List Char) (params : List String) {xs ys : List (List Char)}
    (h : List.Forall₂ Respaced xs ys) :
    Respaced (substitute body params xs) (substitute body params ys) := by
  fun_induction wordsIn body with
  | case1 => exact respaced_refl []
  | case2 c rest hstart ih =>
      rw [substitute_word hstart, substitute_word hstart]
      exact (argumentFor_respaced params h _).append ih
  | case3 c rest hother ih =>
      rw [substitute_other hother, substitute_other hother]
      exact (respaced_refl [c]).append ih

theorem expandCall?_widened (macros : MacroSet) (joint : Joint s t) (ht : t ≠ [])
    (hw : Text.isBlank w = true) :
    Option.Rel Alike (expandCall? macros (s ++ t)) (expandCall? macros (s ++ w :: t)) := by
  have hcall := splitCall?_widened joint ht hw
  rw [expandCall?, expandCall?]
  generalize splitCall? (s ++ t) = narrow at hcall ⊢
  generalize splitCall? (s ++ w :: t) = wide at hcall ⊢
  cases hcall with
  | none => exact .none
  | @some a b hcall =>
      obtain ⟨name, a⟩ := a
      obtain ⟨other, b⟩ := b
      obtain rfl : name = other := hcall.name
      have harguments := splitArguments_alike hcall.arguments
      simp only [Option.bind_eq_bind, Option.bind_some]
      cases macros[String.ofList name]? with
      | none => exact .none
      | some definition =>
          generalize splitArguments a = xs at harguments ⊢
          generalize splitArguments b = ys at harguments ⊢
          simp only [Option.bind_some]
          cases pasteSuffix? definition with
          | some suffix =>
              cases harguments with
              | nil => exact .none
              | cons first rest =>
                  cases rest with
                  | nil => exact .some (first.append (respaced_refl suffix)).alike
                  | cons _ _ => exact .none
          | none =>
              simp only [harguments.length_eq]
              split
              · exact .some (substitute_respaced _ _ harguments).alike
              · exact .none

/-- One alternative for both texts, and the texts in it alike. -/
inductive FormAlike : Form → Form → Prop where
  | same (form : Form) : FormAlike form form
  | group {a b : List Char} : Alike a b → FormAlike (.group a) (.group b)
  | bitwise {op : Bitwise} {xs ys : List (List Char)} :
      List.Forall₂ Alike xs ys → FormAlike (.bitwise op xs) (.bitwise op ys)
  | shift {a b : ShiftSplit} : ShiftAlike a b → FormAlike (.shift a) (.shift b)
  | call {a b : List Char} :
      (∀ macros, Option.Rel Alike (expandCall? macros a) (expandCall? macros b)) →
      FormAlike (.call a) (.call b)

theorem FormAlike.value? {constants : ConstantSet} {macros : MacroSet}
    {part : List Char → Option Int64} (same : ∀ a b, Alike a b → part a = part b) {a b : Form}
    (h : FormAlike a b) : a.value? constants macros part = b.value? constants macros part := by
  cases h with
  | same => rfl
  | group h => exact same _ _ h
  | bitwise h =>
      have hparts := List.forall₂_eq_eq_eq ▸
        List.forall₂_map_left_iff.mpr (List.forall₂_map_right_iff.mpr (h.imp same))
      simp only [Form.value?]
      rw [hparts]
  | shift h =>
      simp only [Form.value?, same _ _ h.left, same _ _ h.right, h.op]
  | @call a b h =>
      have hexpansion := h macros
      simp only [Form.value?]
      generalize expandCall? macros a = x at hexpansion ⊢
      generalize expandCall? macros b = y at hexpansion ⊢
      cases hexpansion with
      | none => rfl
      | some h => exact same _ _ h

/-- The operators of which two in a row are no two operators. -/
def isDoubled (c : Char) : Bool :=
  c = '|' || c = '&' || c = '<' || c = '>'

/-- With one blank more a text keeps its form, unless the blank parts two operators outside
parentheses. -/
theorem form_widened {a b : List Char} (ha : Text.trim a = s ++ t) (hb : Text.trim b = s ++ w :: t)
    (hs : s ≠ []) (ht : t ≠ []) (hw : Text.isBlank w = true) (joint : Joint s t)
    (apart : ∀ c ∈ s.getLast?, c ∈ t.head? → isDoubled c = true → nesting s ≠ 0) :
    FormAlike (form a) (form b) := by
  have hempty {v : List Char} : (s ++ v).isEmpty = false := by simp [hs]
  have narrow : Text.trim (s ++ t) = s ++ t := by rw [← ha, Text.trim_trim]
  have wide : Text.trim (s ++ w :: t) = s ++ w :: t := by rw [← hb, Text.trim_trim]
  have hpieces (op : Bitwise) :
      List.Forall₂ Alike (splitTop op.char (s ++ t)) (splitTop op.char (s ++ w :: t)) := by
    refine splitTopFrom_widened ?_ ?_ hw [] [] joint fun _ hlast hhead => ?_
    · cases op <;> decide
    · cases op <;> decide
    · rw [Int.zero_add]
      exact apart _ hlast hhead (by cases op <;> rfl)
  have hshift : Option.Rel ShiftAlike (lastShift? (s ++ t)) (lastShift? (s ++ w :: t)) := by
    refine lastShiftFrom_widened hw [] joint (fun c hlast hhead hc => ?_) .none
    rw [Int.zero_add]
    exact apart c hlast hhead (by rcases hc with rfl | rfl <;> rfl)
  have henclosed := enclosed?_widened joint hs ht hw
  obtain ⟨hname, hother⟩ := isName_widened joint hs ht hw
  rw [form, form, ha, hb]
  simp only [hempty, Bool.false_eq_true, if_false, ← literal_widened joint hs ht hw narrow wide]
  generalize enclosed? (s ++ t) = x at henclosed ⊢
  generalize enclosed? (s ++ w :: t) = y at henclosed ⊢
  cases henclosed with
  | some h => exact .group h.alike
  | none =>
      cases Literal.ofChars? (s ++ t) with
      | some value => exact .same _
      | none =>
          simp only [show '|' = Bitwise.or.char from rfl, show '&' = Bitwise.and.char from rfl,
            (hpieces .or).length_eq, (hpieces .and).length_eq, hname, hother]
          split
          · exact .bitwise (hpieces .or)
          split
          · exact .bitwise (hpieces .and)
          generalize lastShift? (s ++ t) = x at hshift ⊢
          generalize lastShift? (s ++ w :: t) = y at hshift ⊢
          cases hshift with
          | some h => exact .shift h
          | none => exact .call fun macros => expandCall?_widened macros joint ht hw

theorem outline_level (state : Int × Last) (text : List Char) :
    (outline state text).1 = state.1 + nesting text := by
  induction text generalizing state with
  | nil => simp
  | cons c text ih =>
      have hstep : (outlineStep state c).1 = state.1 + level c := by
        unfold outlineStep level
        split
        · rfl
        split
        · rfl
        split <;> simp [*]
      rw [outline_cons, ih, hstep, nesting_cons, Int.add_assoc]

/-- The operators after which an operand has to follow, and the arrow. -/
def marks : List (List Char) :=
  [['|'], ['&'], ['<', '<'], ['>', '>'], ['-', '>']]

/-- After an operator and blanks no other operator may follow. -/
theorem outline_doubled {mark gap : List Char} {c : Char} (hmark : mark ∈ marks) (hgap : Blanks gap)
    (hc : isDoubled c = true) (last : Last) :
    (outline (0, last) (mark ++ (gap ++ [c]))).2 = .jammed := by
  have hstate : outline (0, last) mark = (0, .start) ∨ outline (0, last) mark = (0, .jammed) := by
    simp only [marks, List.mem_cons, List.not_mem_nil, or_false] at hmark
    cases last with
    | start | operand | minus | jammed =>
        rcases hmark with rfl | rfl | rfl | rfl | rfl <;> decide
    | half d =>
        -- Only the first character of the operator could still end a shift.
        rcases hmark with rfl | rfl | rfl | rfl | rfl
        all_goals
          rw [outline_cons, outlineStep, if_neg (by decide), if_neg (by decide), if_pos rfl]
          simp only [Last.next]
          split <;> decide
  rw [outline_append]
  rcases hstate with hstate | hstate
  · rw [hstate, outline_append, outline_blanks (.inl rfl) hgap]
    simp only [isDoubled, Bool.or_eq_true, decide_eq_true_eq] at hc
    rcases hc with ((rfl | rfl) | rfl) | rfl <;> decide
  · rw [hstate]
    exact outline_jammed rfl _

theorem value?_trim (constants : ConstantSet) (macros : MacroSet) (steps : Nat) (text : List Char) :
    value? constants macros steps (Text.trim text) = value? constants macros steps text := by
  cases steps with
  | zero => rfl
  | succ steps => rw [value?_succ, value?_succ, form, form, Text.trim_trim]

/-- Two operators outside parentheses have no value, with blanks between them or without. -/
theorem value?_doubled (constants : ConstantSet) (macros : MacroSet) (steps : Nat) {c : Char}
    {gap : List Char} (joint : Joint s t) (hlast : c ∈ s.getLast?) (hhead : c ∈ t.head?)
    (hc : isDoubled c = true) (level : nesting s = 0) (hgap : Blanks gap) :
    value? constants macros steps (s ++ (gap ++ t)) = none := by
  obtain ⟨after, rfl⟩ := List.head?_eq_some_iff.mp hhead
  obtain ⟨before, mark, hmark, rfl⟩ : ∃ before, ∃ mark ∈ marks, s = before ++ mark := by
    have shift (h : c = '<' ∨ c = '>') : ∃ before, ∃ mark ∈ marks, s = before ++ mark := by
      rcases joint.shifts c hlast rfl h with ⟨before, hs⟩ | ⟨rfl, before, hs⟩
      · exact ⟨before, [c, c], by rcases h with rfl | rfl <;> decide, hs.symm⟩
      · exact ⟨before, ['-', '>'], by decide, hs.symm⟩
    have single (h : [c] ∈ marks) : ∃ before, ∃ mark ∈ marks, s = before ++ mark :=
      ⟨s.dropLast, [c], h, (List.dropLast_append_getLast? c hlast).symm⟩
    simp only [isDoubled, Bool.or_eq_true, decide_eq_true_eq] at hc
    rcases hc with ((rfl | rfl) | rfl) | rfl
    · exact single (by decide)
    · exact single (by decide)
    · exact shift (.inl rfl)
    · exact shift (.inr rfl)
  have hlevel : nesting mark = 0 := by
    simp only [marks, List.mem_cons, List.not_mem_nil, or_false] at hmark
    rcases hmark with rfl | rfl | rfl | rfl | rfl <;> rfl
  have hbefore : (outline (0, .start) before).1 = 0 := by
    rw [outline_level, Int.zero_add]
    rwa [nesting_append, hlevel, Int.add_zero] at level
  have hnone := value?_jammed constants macros steps hbefore (outline_doubled hmark hgap hc) after
  simpa using hnone

theorem value?_widened {constants : ConstantSet} {macros : MacroSet} {steps : Nat}
    (ih : ∀ a b, Alike a b → value? constants macros steps a = value? constants macros steps b)
    {a b : List Char} (h : Widened a b) :
    value? constants macros (steps + 1) a = value? constants macros (steps + 1) b := by
  rcases h.trim with htrim | ⟨s, t, w, hs, ht, hw, joint, ha, hb⟩
  · rw [← value?_trim, htrim, value?_trim]
  by_cases apart : ∀ c ∈ s.getLast?, c ∈ t.head? → isDoubled c = true → nesting s ≠ 0
  · rw [value?_succ, value?_succ]
    exact (form_widened ha hb hs ht hw joint apart).value? ih
  · push Not at apart
    obtain ⟨c, hlast, hhead, hc, level⟩ := apart
    have hnone (gap : List Char) (hgap : Blanks gap) :=
      value?_doubled constants macros (steps + 1) joint hlast hhead hc level hgap
    rw [← value?_trim, ← value?_trim _ _ _ b, ha, hb]
    exact (hnone [] (by simp [Blanks])).trans (hnone [w] (by simpa [Blanks])).symm

/-- Texts that differ in blanks at joints have one value. -/
theorem value?_alike (constants : ConstantSet) (macros : MacroSet) (steps : Nat) {a b : List Char}
    (h : Alike a b) : value? constants macros steps a = value? constants macros steps b := by
  induction steps generalizing a b with
  | zero => rfl
  | succ steps ih =>
      -- The texts in between need not be trimmed, so each blank is added to any text.
      have respaced {x y : List Char} (h : Respaced x y) :
          value? constants macros (steps + 1) x = value? constants macros (steps + 1) y := by
        induction h with
        | rel x y step =>
            cases step with
            | blank _ _ hw joint => exact value?_widened (fun _ _ => ih) (.blank hw joint)
        | refl x => rfl
        | symm _ _ _ ih => exact ih.symm
        | trans _ _ _ _ _ left right => exact left.trans right
      rw [← value?_trim, respaced h, value?_trim]

end LibSurvey.Expression
