import LibSurvey.Proofs.Line.Parts
import LibSurvey.Proofs.Line.Shape
import LibSurvey.Proofs.Text.Reflow

/-!
A prototype is read alike from lines that differ in their blanks. Each part of the reading finds the
same words in both, and what it leaves differs in its blanks again.
-/

namespace LibSurvey.Line
open Text (Blanks Reflow)

variable {a b : List Char}

theorem isWordStart_of_isBlank {c : Char} (h : Text.isBlank c = true) :
    Text.isWordStart c = false := by
  have hcodes : ∀ code ∈ blankCodes, Text.isWordStart (Char.ofNat code) = false := by
    decide +kernel
  simpa using hcodes c.toNat (mem_blankCodes h)

theorem word?_reflow (h : Reflow a b) :
    Option.Rel (fun x y => x.1 = y.1 ∧ Reflow x.2 y.2) (word? a) (word? b) := by
  obtain ⟨rfl, rfl⟩ | ⟨c, a, b, -, rfl, rfl, hrest⟩ | ⟨c, d, a, b, hc, hd, rfl, rfl⟩ := h.front
  · exact .none
  · rw [word?, word?]
    split
    · have hblank : ∀ c, Text.isBlank c = true → Text.isWordChar c = false :=
        fun _ => isWordChar_of_isBlank
      exact .some ⟨by rw [hrest.takeWhile_eq hblank], hrest.dropWhile hblank⟩
    · exact .none
  · rw [word?, word?, isWordStart_of_isBlank hc, isWordStart_of_isBlank hd]
    exact .none

theorem after?_reflow {start : List Char} (solid : ∀ c ∈ start, Text.isBlank c = false)
    (h : Reflow a b) : Option.Rel Reflow (after? start a) (after? start b) := by
  induction start generalizing a b with
  | nil => exact .some h
  | cons s start ih =>
      obtain ⟨hs, hstart⟩ := List.forall_mem_cons.mp solid
      obtain ⟨rfl, rfl⟩ | ⟨c, a, b, -, rfl, rfl, hrest⟩ | ⟨c, d, a, b, hc, hd, rfl, rfl⟩ := h.front
      · exact .none
      · rw [after?, after?]
        split
        · exact ih hstart hrest
        · exact .none
      · rw [after?, after?, if_neg (Text.ne_of_isBlank hc hs).symm,
          if_neg (Text.ne_of_isBlank hd hs).symm]
        exact .none

theorem afterBlanks?_reflow (h : Reflow a b) :
    Option.Rel Reflow (afterBlanks? a) (afterBlanks? b) := by
  have hleft := h.trimLeft
  obtain ⟨rfl, rfl⟩ | ⟨c, a, b, hc, rfl, rfl, -⟩ | ⟨c, d, a, b, hc, hd, rfl, rfl⟩ := h.front
  · exact .none
  · simp only [afterBlanks?, hc, Bool.false_eq_true, if_false]
    exact .none
  · simp only [afterBlanks?, hc, hd, if_true]
    simp only [Text.trimLeft, List.dropWhile_cons, hc, hd, if_true] at hleft
    exact .some hleft

theorem pieces_reflow (h : Reflow a b) : pieces a = pieces b := by
  have run (run : List Char) (done : List String) :
      piecesFrom run done a = piecesFrom run done b := by
    induction h generalizing run done with
    | nil => rfl
    | keep _ ih =>
        rw [piecesFrom_cons, piecesFrom_cons, ih, ih, ih]
    | @gap x y a b hx hy nonemptyX nonemptyY _ ih =>
        have hblank {x : List Char} (hx : Blanks x) (nonempty : x ≠ []) (rest : List Char) :
            piecesFrom run done (x ++ rest) = piecesFrom [] (endPiece run done) rest := by
          rw [piecesFrom_stop, piecesFrom_blanks hx]
          obtain ⟨c, x, rfl⟩ := List.exists_cons_of_ne_nil nonempty
          rintro d ⟨⟩
          exact isPieceChar_of_isBlank (hx c List.mem_cons_self)
        rw [hblank hx nonemptyX, hblank hy nonemptyY, ih]
  exact run [] []

theorem isGap_of_isBlank {c : Char} (h : Text.isBlank c = true) : isGap c = true := by
  simp [isGap, h]

theorem word?_reflow_none (h : Reflow a b) (hword : word? a = none) : word? b = none := by
  have hrel := word?_reflow h
  rw [hword] at hrel
  cases hb : word? b with
  | none => rfl
  | some found => rw [hb] at hrel; cases hrel

theorem word?_reflow_some (h : Reflow a b) {word rest : List Char}
    (hword : word? a = some (word, rest)) :
    ∃ rest', word? b = some (word, rest') ∧ Reflow rest rest' := by
  have hrel := word?_reflow h
  rw [hword] at hrel
  cases hb : word? b with
  | none => rw [hb] at hrel; cases hrel
  | some found =>
      rw [hb] at hrel
      cases hrel with
      | some hparts => exact ⟨found.2, by rw [show word = found.1 from hparts.1], hparts.2⟩

theorem headed?_none {seen text : List Char} (h : word? text = none) : headed? seen text = none := by
  rw [headed?]
  split
  · rfl
  · rename_i hsome
    rw [h] at hsome
    cases hsome

/-- The search goes on behind a word that no parenthesis follows. -/
theorem headed?_other {seen text word rest : List Char} (h : word? text = some (word, rest))
    (other : ∀ inside, Text.trimLeft rest = '(' :: inside → seen.isEmpty = false → False) :
    headed? seen text =
      if (rest.takeWhile isGap).isEmpty then none
      else headed? ((rest.takeWhile isGap).reverse ++ word.reverse ++ seen)
        (rest.dropWhile isGap) := by
  rw [headed?_word h]
  split
  · rename_i hopen hstarted
    exact (other _ hopen hstarted).elim
  · rfl

theorem headed?_reflow {seen seen' : List Char} (hseen : Reflow seen seen') (h : Reflow a b) :
    Option.Rel (fun x y => Reflow x.1 y.1 ∧ x.2.1 = y.2.1 ∧ Reflow x.2.2 y.2.2)
      (headed? seen a) (headed? seen' b) := by
  have hgap : ∀ c, Text.isBlank c = true → isGap c = true := fun _ => isGap_of_isBlank
  have hother {seen seen' rest rest' : List Char} (hseen : Reflow seen seen')
      (hrest : Reflow rest rest')
      (other : ∀ inside, Text.trimLeft rest = '(' :: inside → seen.isEmpty = false → False) :
      ∀ inside, Text.trimLeft rest' = '(' :: inside → seen'.isEmpty = false → False := by
    intro inside hopen hstarted
    obtain ⟨inside', hopen', -⟩ := (hopen ▸ hrest.trimLeft.symm).cons_solid (by decide)
    exact other inside' hopen' (hseen.isEmpty_eq.trans hstarted)
  fun_induction headed? seen a generalizing seen' b with
  | case1 seen a hword =>
      rw [headed?_none (word?_reflow_none h hword)]
      exact .none
  | case2 seen a word rest hword inside hstarted hopen =>
      obtain ⟨rest', hb, hrest⟩ := word?_reflow_some h hword
      obtain ⟨inside', hopen', hinside⟩ := (hopen ▸ hrest.trimLeft).cons_solid (by decide)
      rw [headed?_word hb, hopen', ← hseen.isEmpty_eq, hstarted]
      exact .some ⟨hseen.reverse, rfl, hinside⟩
  | case3 seen a word rest hword hends other =>
      obtain ⟨rest', hb, hrest⟩ := word?_reflow_some h hword
      rw [headed?_other hb (hother hseen hrest other), ← (hrest.takeWhile hgap).isEmpty_eq,
        if_pos hends]
      exact .none
  | case4 seen a word rest hword hends other ih =>
      obtain ⟨rest', hb, hrest⟩ := word?_reflow_some h hword
      rw [headed?_other hb (hother hseen hrest other), ← (hrest.takeWhile hgap).isEmpty_eq,
        if_neg hends]
      exact ih (((hrest.takeWhile hgap).reverse.append (.refl word.reverse)).append hseen)
        (hrest.dropWhile hgap)

theorem params?_skip {text : List Char} (free : ∀ c ∈ text, c ≠ '(' ∧ c ≠ ')') (inner : Bool)
    (seen rest : List Char) :
    params? inner seen (text ++ rest) = params? inner (text.reverse ++ seen) rest := by
  induction text generalizing seen with
  | nil => rfl
  | cons c text ih =>
      obtain ⟨hopen, hclose⟩ := free c List.mem_cons_self
      have hstep : params? inner seen (c :: (text ++ rest)) =
          params? inner (c :: seen) (text ++ rest) := by
        rw [params?] <;> simp [hopen, hclose]
      rw [List.cons_append, hstep, ih fun d hd => free d (List.mem_cons_of_mem c hd)]
      simp

theorem params?_reflow {seen seen' : List Char} (hseen : Reflow seen seen') (h : Reflow a b)
    (inner : Bool) :
    Option.Rel (fun x y => Reflow x.1 y.1 ∧ Reflow x.2 y.2) (params? inner seen a)
      (params? inner seen' b) := by
  induction h generalizing inner seen seen' with
  | nil => exact .none
  | @keep c a b h ih =>
      by_cases hopen : c = '('
      · subst hopen
        rw [params?, params?]
        split
        · exact .none
        · exact ih (.keep hseen) true
      by_cases hclose : c = ')'
      · subst hclose
        rw [params?, params?]
        split
        · exact ih (.keep hseen) false
        · exact .some ⟨hseen.reverse, h⟩
      · rw [params?, params?]
        · exact ih (.keep hseen) inner
        all_goals simp [hopen, hclose]
  | gap hx hy nonemptyX nonemptyY _ ih =>
      have hfree {x : List Char} (hx : Blanks x) : ∀ c ∈ x, c ≠ '(' ∧ c ≠ ')' := fun c hc =>
        ⟨Text.ne_of_isBlank (hx c hc) (by decide), Text.ne_of_isBlank (hx c hc) (by decide)⟩
      rw [params?_skip (hfree hx), params?_skip (hfree hy)]
      exact ih (((Reflow.blanks hx hy nonemptyX nonemptyY).reverse).append hseen) inner

theorem endsStatement_none {text : List Char} (h : word? (Text.trimLeft text) = none)
    (other : ∀ rest, Text.trimLeft text ≠ ';' :: rest) : endsStatement text = false := by
  rw [endsStatement]
  split
  · rename_i hends
    exact (other _ hends).elim
  · split
    · rfl
    all_goals
      rename_i hword
      rw [h] at hword
      cases hword

theorem endsStatement_word {text word rest : List Char}
    (h : word? (Text.trimLeft text) = some (word, rest)) (other : ∀ inside, rest ≠ '(' :: inside) :
    endsStatement text = endsStatement rest := by
  rw [endsStatement]
  split
  · rename_i hends
    rw [hends] at h
    cases h
  · split
    all_goals
      rename_i hword
      rw [h] at hword
      cases hword
    · exact (other _ rfl).elim
    · rfl

theorem endsStatement_call {text word inside : List Char}
    (h : word? (Text.trimLeft text) = some (word, '(' :: inside)) :
    endsStatement text = match inside.dropWhile (· != ')') with
      | _ :: rest => endsStatement rest
      | [] => false := by
  rw [endsStatement]
  split
  · rename_i hends
    rw [hends] at h
    cases h
  · split
    all_goals
      rename_i hword
      rw [h] at hword
      cases hword
    · split <;> simp [*]
    · rename_i called
      exact (called _ rfl).elim

theorem endsStatement_reflow (h : Reflow a b) : endsStatement a = endsStatement b := by
  have hclose : ∀ c, Text.isBlank c = true → (c != ')') = true := fun c hc =>
    bne_iff_ne.mpr (Text.ne_of_isBlank hc (by decide))
  fun_induction endsStatement a generalizing b with
  | case1 a rest hends =>
      obtain ⟨rest', hends', -⟩ := (hends ▸ h.trimLeft).cons_solid (by decide)
      rw [endsStatement, hends']
      rfl
  | case2 a other hword =>
      refine (endsStatement_none (word?_reflow_none h.trimLeft hword) fun rest hends => ?_).symm
      obtain ⟨rest', hends', -⟩ := (hends ▸ h.trimLeft.symm).cons_solid (by decide)
      exact other rest' hends'
  | case3 a word inside c rest hinside other hword ih =>
      obtain ⟨rest', hb, hrest⟩ := word?_reflow_some h.trimLeft hword
      obtain ⟨inside', rfl, hinside'⟩ := hrest.cons_solid (by decide)
      have hdrop := hinside'.dropWhile hclose
      have hc : c = ')' := by
        have := List.head?_dropWhile_not (· != ')') inside
        rw [hinside] at this
        simpa using this
      rw [hinside, hc] at hdrop
      obtain ⟨after, hafter, hrest'⟩ := hdrop.cons_solid (by decide)
      rw [endsStatement_call hb, hafter]
      exact ih hrest'
  | case4 a word inside hinside other hword =>
      obtain ⟨rest', hb, hrest⟩ := word?_reflow_some h.trimLeft hword
      obtain ⟨inside', rfl, hinside'⟩ := hrest.cons_solid (by decide)
      rw [endsStatement_call hb, (hinside'.dropWhile hclose).eq_nil_iff.mp hinside]
  | case5 a word rest called other hword ih =>
      obtain ⟨rest', hb, hrest⟩ := word?_reflow_some h.trimLeft hword
      rw [endsStatement_word hb, ih hrest]
      rintro inside rfl
      obtain ⟨inside', hcalled, -⟩ := hrest.symm.cons_solid (by decide)
      exact called inside' hcalled

/-- Two readings of a prototype's parts, which differ in blanks only. -/
structure Shape.Alike (x y : Shape) : Prop where
  head : Reflow x.head y.head
  name : x.name = y.name
  params : Reflow x.params y.params

theorem shapeHere?_reflow (h : Reflow a b) :
    Option.Rel Shape.Alike (shapeHere? a) (shapeHere? b) := by
  have hheaded := headed?_reflow .nil h
  rw [shapeHere?, shapeHere?]
  simp only [Option.bind_eq_bind]
  cases hx : headed? [] a <;> cases hy : headed? [] b <;> rw [hx, hy] at hheaded <;>
    cases hheaded
  case none.none => exact .none
  case some.some x y hparts =>
    obtain ⟨hhead, hname, hinside⟩ := hparts
    have hparams := params?_reflow .nil hinside false
    simp only [Option.bind_some]
    cases hu : params? false [] x.2.2 <;> cases hv : params? false [] y.2.2 <;>
      rw [hu, hv] at hparams <;> cases hparams
    case none.none => exact .none
    case some.some u v hparts =>
      simp only [Option.bind_some, endsStatement_reflow hparts.2]
      split
      · exact .some ⟨hhead, hname, hparts.1⟩
      · exact .none

theorem shape?_reflow (h : Reflow a b) : Option.Rel Shape.Alike (shape? a) (shape? b) := by
  have hextern : ∀ c ∈ "extern".toList, Text.isBlank c = false := by simp [Text.isBlank]
  have hafter := after?_reflow hextern h.trimLeft
  have hfound : Option.Rel Shape.Alike
      (((after? "extern".toList (Text.trimLeft a)).bind afterBlanks?).bind shapeHere?)
      (((after? "extern".toList (Text.trimLeft b)).bind afterBlanks?).bind shapeHere?) := by
    cases hx : after? "extern".toList (Text.trimLeft a) <;>
      cases hy : after? "extern".toList (Text.trimLeft b) <;> rw [hx, hy] at hafter <;> cases hafter
    case none.none => exact .none
    case some.some x y hrest =>
      have hblanks := afterBlanks?_reflow hrest
      simp only [Option.bind_some]
      cases hu : afterBlanks? x <;> cases hv : afterBlanks? y <;> rw [hu, hv] at hblanks <;>
        cases hblanks
      case none.none => exact .none
      case some.some hrest => exact shapeHere?_reflow hrest
  rw [shape?, shape?]
  simp only [Option.bind_eq_bind]
  generalize ((after? "extern".toList (Text.trimLeft a)).bind afterBlanks?).bind shapeHere? = x
    at hfound ⊢
  generalize ((after? "extern".toList (Text.trimLeft b)).bind afterBlanks?).bind shapeHere? = y
    at hfound ⊢
  cases hfound with
  | some halike => exact .some halike
  | none => exact shapeHere?_reflow h.trimLeft

theorem splitCommasFrom_skip {text : List Char}
    (free : ∀ c ∈ text, c ∉ ['(', '[', ')', ']', ',']) (depth : Int) (current : List Char)
    (done : List (List Char)) (rest : List Char) :
    splitCommasFrom depth current done (text ++ rest) =
      splitCommasFrom depth (text.reverse ++ current) done rest := by
  induction text generalizing current with
  | nil => rfl
  | cons c text ih =>
      have hc := free c List.mem_cons_self
      simp only [List.mem_cons, List.not_mem_nil, or_false, not_or] at hc
      rw [List.cons_append, splitCommasFrom]
      simp only [hc, decide_false, Bool.or_self, Bool.false_eq_true, if_false, Bool.false_and]
      rw [ih fun d hd => free d (List.mem_cons_of_mem c hd)]
      simp

theorem splitCommasFrom_reflow (h : Reflow a b) (depth : Int) {current current' : List Char}
    (hcurrent : Reflow current current') {done done' : List (List Char)}
    (hdone : List.Forall₂ Reflow done done') :
    List.Forall₂ Reflow (splitCommasFrom depth current done a)
      (splitCommasFrom depth current' done' b) := by
  induction h generalizing depth current current' done done' with
  | nil => exact List.rel_reverse (.cons hcurrent.reverse hdone)
  | @keep c a b _ ih =>
      rw [splitCommasFrom, splitCommasFrom]
      split
      · exact ih _ (.keep hcurrent) hdone
      split
      · exact ih _ (.keep hcurrent) hdone
      split
      · exact ih _ .nil (.cons hcurrent.reverse hdone)
      · exact ih _ (.keep hcurrent) hdone
  | @gap x y a b hx hy nonemptyX nonemptyY _ ih =>
      have hfree {x : List Char} (hx : Blanks x) : ∀ c ∈ x, c ∉ ['(', '[', ')', ']', ','] := by
        intro c hc
        have hne {d : Char} (hd : Text.isBlank d = false) : c ≠ d := Text.ne_of_isBlank (hx c hc) hd
        simp [hne (d := '(') (by decide), hne (d := '[') (by decide), hne (d := ')') (by decide),
          hne (d := ']') (by decide), hne (d := ',') (by decide)]
      rw [splitCommasFrom_skip (hfree hx), splitCommasFrom_skip (hfree hy)]
      exact ih depth ((Reflow.blanks hx hy nonemptyX nonemptyY).reverse.append hcurrent) hdone

variable {annotations : Annotations}

theorem eq_solid_iff (h : Reflow a b) {text : List Char}
    (solid : ∀ c ∈ text, Text.isBlank c = false) : a = text ↔ b = text :=
  ⟨fun ha => (h.eq_of_solid (ha ▸ solid)).symm.trans ha,
    fun hb => (h.symm.eq_of_solid (hb ▸ solid)).symm.trans hb⟩

theorem param_reflow (h : Reflow a b) : param annotations a = param annotations b := by
  have hdots : a = ['.', '.', '.'] ↔ b = ['.', '.', '.'] :=
    eq_solid_iff h (by simp [Text.isBlank])
  have hbracket : ∀ c, Text.isBlank c = true → (c != '[') = true := fun c hc =>
    bne_iff_ne.mpr (Text.ne_of_isBlank hc (by decide))
  have hsize : a.contains '[' = b.contains '[' := by
    rw [Bool.eq_iff_iff, List.contains_iff_mem, List.contains_iff_mem, h.mem_iff (by decide)]
  rw [param, param, hsize, pieces_reflow (h.takeWhile hbracket)]
  simp only [hdots]

theorem params_reflow (h : Reflow a b) : params annotations a = params annotations b := by
  have hvoid : Text.trim a = "void".toList ↔ Text.trim b = "void".toList :=
    eq_solid_iff h.trim (by simp [Text.isBlank])
  have hparts := splitCommasFrom_reflow h.trim 0 .nil .nil
  have hmap : (((splitCommasFrom 0 [] [] (Text.trim a)).map Text.trim).filter (!·.isEmpty)).map
        (param annotations) =
      (((splitCommasFrom 0 [] [] (Text.trim b)).map Text.trim).filter (!·.isEmpty)).map
        (param annotations) := by
    generalize splitCommasFrom 0 [] [] (Text.trim a) = xs at hparts ⊢
    generalize splitCommasFrom 0 [] [] (Text.trim b) = ys at hparts ⊢
    induction hparts with
    | nil => rfl
    | cons hpart _ ih =>
        rw [List.map_cons, List.map_cons, List.filter_cons, List.filter_cons, hpart.trim.isEmpty_eq]
        split
        · rw [List.map_cons, List.map_cons, param_reflow hpart.trim, ih]
        · exact ih
  rw [params, params]
  simp only [h.trim.isEmpty_eq, hvoid, hmap]

/-- Lines that differ in their blanks declare the same function. -/
theorem function?_reflow (h : Reflow a b) : function? annotations a = function? annotations b := by
  have hshape := shape?_reflow h
  rw [function?, function?]
  cases hx : shape? a <;> cases hy : shape? b <;> rw [hx, hy] at hshape <;> cases hshape
  case some.some.some x y halike =>
    simp only [Option.bind_eq_bind, Option.bind_some, halike.name, pieces_reflow halike.head,
      @params_reflow _ _ annotations halike.params]

end LibSurvey.Line
