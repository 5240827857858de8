import LibSurvey.Proofs.Line.Pieces
import LibSurvey.Proofs.Line.Shape
import LibSurvey.Proofs.Text.Brackets

/-!
The function of a spelled prototype, read from its line. The texts of types are divided into pieces
again, the list into its parameters; sizes of arrays are only looked at for being there.
-/

namespace LibSurvey.Line
open Lexeme (Written)
open Spelling (Piece Typed Size Parameter)

variable {annotations : Annotations}

theorem piecesFrom_written {items : List Piece} {text : List Char}
    (h : Written (items.map Piece.lexeme) text) (done : List String) :
    piecesFrom [] done text = done.reverse ++ items.map Piece.text := by
  induction items generalizing text done with
  | nil =>
      cases h with
      | nil hgap =>
          have := piecesFrom_blanks (Lexeme.blanks_of_gap hgap) done []
          simpa [piecesFrom, endPiece] using this
  | cons item items ih =>
      cases h with
      | @cons _ _ _ rest hgap formed ends hrest =>
          rw [piecesFrom_blanks (Lexeme.blanks_of_gap hgap)]
          cases item with
          | word word =>
              have hname := Lexeme.isName_of_formed formed
              have hword : (Piece.word word).lexeme.text.toList = word.toList := rfl
              have hnonempty : word.toList ≠ [] := by
                intro hnil
                rw [hnil] at hname
                exact absurd hname (by decide)
              rw [hword, piecesFrom_run (fun c hc => isNameChar_of_isName hname hc),
                piecesFrom_stop ends, ih hrest]
              simp [endPiece, hnonempty, Piece.text]
          | star =>
              have hstep : piecesFrom [] done ('*' :: rest) = piecesFrom [] ("*" :: done) rest := by
                rw [piecesFrom_cons]
                rfl
              have hstar : Piece.star.lexeme.text.toList = ['*'] := rfl
              rw [hstar, List.singleton_append, hstep, ih hrest]
              simp [Piece.text]

theorem pieces_typed {type : Typed} {text : List Char} (h : Written type.lexemes text) :
    pieces text = type.texts := by
  rw [pieces, piecesFrom_written h]
  rfl

def brackets : Brackets Char where
  opens c := c = '(' || c = '['
  closes c := c = ')' || c = ']'
  divides c := c = ','

theorem divides_splitCommas : brackets.Divides splitCommasFrom := by
  refine ⟨fun _ _ _ => rfl, fun depth current pieces c rest => ?_⟩
  simp [splitCommasFrom, brackets]

/-- Nothing divides a text without brackets and commas. -/
theorem level_free (marks : List String) {lexemes : List Lexeme} {text : List Char}
    (h : Written lexemes text) (among : ∀ lexeme ∈ lexemes, Spelling.Among marks lexeme)
    (hmarks : ∀ c ∈ ['(', ')', '[', ']', ','], ∀ mark ∈ marks, c ∉ mark.toList)
    {p : Char → Prop} (hp : ∀ c, brackets.divides c = false → p c) : brackets.Level p text := by
  have hother : ∀ c ∈ ['(', ')', '[', ']', ','], c ∉ text := by
    intro c hc
    refine not_mem_among _ h among ?_ ?_ (hmarks c hc)
    all_goals
      simp only [List.mem_cons, List.not_mem_nil, or_false] at hc
      rcases hc with rfl | rfl | rfl | rfl | rfl <;> decide
  refine Brackets.Level.of_forall fun c hc => ?_
  have hne : ∀ d ∈ ['(', ')', '[', ']', ','], c ≠ d := fun d hd h => hother d hd (h ▸ hc)
  simp only [List.mem_cons, List.not_mem_nil, or_false, forall_eq_or_imp, forall_eq] at hne
  exact ⟨by simp [brackets, hne], by simp [brackets, hne], hp c (by simp [brackets, hne])⟩

theorem level_sizes {sizes : List Size} {text : List Char}
    (h : Written (sizes.flatMap Size.lexemes) text) :
    brackets.Level (fun c => brackets.divides c = false) text := by
  induction sizes generalizing text with
  | nil => exact level_free [] h (by simp) (by simp) fun _ h => h
  | cons size sizes ih =>
      have hlexemes : (size :: sizes).flatMap Size.lexemes =
          Lexeme.mark "[" :: (size.content ++ Lexeme.mark "]" :: sizes.flatMap Size.lexemes) := by
        simp [Size.lexemes]
      rw [hlexemes] at h
      cases h with
      | @cons gap _ _ rest hgap _ _ hrest =>
          obtain ⟨x, y, rfl, hx, -, -, hy⟩ := Lexeme.written_cons_split hrest
          have hinner : brackets.Level (fun _ => True) x := by
            refine level_free [] hx ?_ (by simp) fun _ _ => trivial
            intro lexeme hlexeme
            cases size with
            | empty => exact absurd hlexeme (by simp [Size.content])
            | name text => exact .inl (by rw [List.mem_singleton.mp hlexeme]; rfl)
            | number text => exact .inr (.inl (by rw [List.mem_singleton.mp hlexeme]; rfl))
          have hbefore : brackets.Level (fun c => brackets.divides c = false) gap :=
            level_free [] (.nil hgap) (by simp) (by simp) fun _ h => h
          exact hbefore.append (.group '[' ']' rfl rfl rfl hinner (ih hy))

theorem level_parameter {param : Parameter} {text : List Char} (h : Written param.lexemes text) :
    brackets.Level (fun c => brackets.divides c = false) text := by
  cases param with
  | variadic =>
      refine level_free ["..."] h ?_ (by simp) fun _ h => h
      intro lexeme hlexeme
      exact .inr (.inr ⟨"...", by simp, List.mem_singleton.mp hlexeme⟩)
  | typed type sizes =>
      obtain ⟨x, y, rfl, hx, hy, -⟩ := Lexeme.written_append_split h
      exact (level_free _ hx (fun _ => Spelling.among_typed) (by simp) fun _ h => h).append
        (level_sizes hy)

theorem isNoise_star (star : "*" ∉ annotations.extra) : annotations.isNoise "*" = false := by
  have hknown : knownAnnotations.contains "*" = false := by decide
  have hlooks : Annotations.looksLikeNoise "*" = false := by decide
  rw [Annotations.isNoise, hknown, hlooks, Bool.or_false, Bool.false_or]
  simpa using star

/-- The text of a type ends before the first size, and there is one if there are sizes. -/
theorem takeWhile_typed {type : Typed} {sizes : List Size} {text : List Char}
    (h : Written (Parameter.typed type sizes).lexemes text) :
    pieces (text.takeWhile (· != '[')) = type.texts ∧ text.contains '[' = !sizes.isEmpty := by
  obtain ⟨x, y, rfl, hx, hy, hfirst⟩ := Lexeme.written_append_split h
  have hfree : '[' ∉ x := not_mem_among _ hx (fun _ => Spelling.among_typed) (by decide) (by decide)
    (by decide)
  have hinside : ∀ c ∈ x, (c != '[') = true := fun c hc =>
    bne_iff_ne.mpr fun h => hfree (h ▸ hc)
  cases sizes with
  | nil =>
      have hempty : '[' ∉ y := not_mem_among [] hy (by simp) (by decide) (by decide)
        (by simp)
      have hall : ∀ c ∈ x ++ y, (c != '[') = true := by
        intro c hc
        rcases List.mem_append.mp hc with hc | hc
        · exact hinside c hc
        · exact bne_iff_ne.mpr fun h => hempty (h ▸ hc)
      have hwhole : Written type.lexemes (x ++ y) := by simpa [Parameter.lexemes] using h
      refine ⟨by rw [List.takeWhile_eq_self_iff.mpr hall, pieces_typed hwhole], ?_⟩
      simpa using ⟨hfree, hempty⟩
  | cons size sizes =>
      obtain ⟨rest, rfl⟩ := hfirst _ _ rfl
      have hbracket : (Lexeme.mark "[").text.toList = ['['] := rfl
      rw [hbracket, List.singleton_append, Text.takeWhile_front hinside (by simp)]
      exact ⟨pieces_typed hx, by simp⟩

theorem param_written {param : Parameter} (plain : param.Plain annotations)
    (star : "*" ∉ annotations.extra) {text : List Char} (h : Written param.lexemes text) :
    Line.param annotations (Text.trim text) = param.meaning := by
  cases param with
  | variadic =>
      rw [Lexeme.trim_written_one h]
      rfl
  | typed type sizes =>
      have htrim := Lexeme.written_trim h
      obtain ⟨hpieces, hsizes⟩ := takeWhile_typed htrim
      have hdots : Text.trim text ≠ ['.', '.', '.'] := by
        intro hdots
        obtain ⟨rest, htext, formed, -⟩ := Lexeme.trim_written h
        have hchar := head_isNameChar (Lexeme.isName_of_formed formed) rest (c := '.')
          (by rw [hdots] at htext; exact htext ▸ rfl)
        exact absurd hchar (by decide)
      have hnoise : ∀ piece ∈ type.texts, (!annotations.isNoise piece) = true :=
        Typed.forall_texts (fun word hword => by simp [(plain.1 word hword).notNoise])
          (by simp [isNoise_star star])
      have hopen : type.texts.contains "(" = false := by
        have hother : ∀ piece ∈ type.texts, piece ≠ "(" := by
          refine Typed.forall_texts (fun word hword => ?_) (by decide)
          rintro rfl
          exact absurd (plain.1 "(" hword).name (by decide)
        rw [List.contains_eq_mem, decide_eq_false_iff_not]
        exact fun hmem => hother "(" hmem rfl
      rw [Line.param, if_neg hdots, hpieces, hsizes, List.filter_eq_self.mpr hnoise]
      simp only [hopen, Bool.false_eq_true, ite_false]
      rfl

/-- Only the parameter `void` is written so. -/
theorem eq_void {param : Parameter} (h : Written param.lexemes "void".toList) : param = .void := by
  cases param with
  | variadic => exact absurd (Lexeme.trim_written_one h) (by decide)
  | typed type sizes =>
      obtain ⟨hpieces, hsizes⟩ := takeWhile_typed h
      have hnil : sizes = [] := by
        have : "void".toList.contains '[' = false := by decide
        rw [this] at hsizes
        simpa using hsizes.symm
      have htexts : type.texts = ["void"] := by
        rw [← hpieces]
        decide
      obtain ⟨first, rest⟩ := type
      simp only [Typed.texts, Typed.pieces, List.map_cons, List.cons.injEq, List.map_eq_nil_iff] at htexts
      rw [hnil, htexts.2, show first = "void" from htexts.1, Parameter.void]

theorem list_ne_void {params : List Parameter} {text : List Char} (notVoid : params ≠ [.void])
    (h : Written (Spelling.Prototype.listLexemes params) text) : text ≠ "void".toList := by
  rintro rfl
  rcases params with _ | ⟨param, _ | ⟨two, params⟩⟩
  case nil =>
      cases h with
      | nil hgap => exact absurd (hgap 'v' (by simp)).1 (by decide)
  case cons.nil =>
      have hparam : Written param.lexemes "void".toList := by
        simpa [Spelling.Prototype.listLexemes] using h
      exact notVoid (by rw [eq_void hparam])
  case cons.cons =>
      obtain ⟨texts, hall, htext⟩ := Lexeme.written_intercalate_split (by simp) h
      obtain ⟨x, y, others, rfl⟩ : ∃ x y others, texts = x :: y :: others := by
        cases hall with
        | cons _ hall => cases hall with
          | cons _ _ => exact ⟨_, _, _, rfl⟩
      have hcomma : ',' ∈ "void".toList := by
        rw [htext]
        simp [List.intercalate_cons_cons, Lexeme.mark]
      exact absurd hcomma (by decide)

theorem params_parts {params : List Parameter} {texts : List (List Char)}
    (h : List.Forall₂ (fun param x => Written param.lexemes x) params texts)
    (plain : ∀ param ∈ params, param.Plain annotations) (star : "*" ∉ annotations.extra) :
    ((texts.map Text.trim).filter (!·.isEmpty)).map (Line.param annotations) =
      params.map Parameter.meaning := by
  induction h with
  | nil => rfl
  | @cons param text params texts hparam _ ih =>
      have hnonempty : (!(Text.trim text).isEmpty) = true := by
        simpa using Lexeme.written_ne_nil (Lexeme.written_trim hparam) param.lexemes_ne_nil
      rw [List.map_cons, List.filter_cons, if_pos hnonempty, List.map_cons,
        param_written (plain param List.mem_cons_self) star hparam,
        ih fun p hp => plain p (List.mem_cons_of_mem param hp), List.map_cons]

theorem splitCommas_written {params : List Parameter} {texts : List (List Char)}
    (nonempty : params ≠ [])
    (h : List.Forall₂ (fun param x => Written param.lexemes x) params texts) :
    splitCommasFrom 0 [] [] ([','].intercalate texts) = texts := by
  have hlevel : ∀ part ∈ texts, brackets.Level (fun c => brackets.divides c = false) part := by
    clear nonempty
    induction h with
    | nil => simp
    | cons hparam _ ih => simpa using ⟨level_parameter hparam, ih⟩
  refine divides_splitCommas.intercalate _ rfl rfl rfl ?_ hlevel
  rintro rfl
  cases h
  exact nonempty rfl

theorem params_written {params : List Parameter}
    (plain : params = [.void] ∨ ∀ param ∈ params, param.Plain annotations)
    (star : "*" ∉ annotations.extra) {text : List Char}
    (h : Written (Spelling.Prototype.listLexemes params) text) :
    Line.params annotations text = Spelling.Prototype.meanings params := by
  by_cases hvoid : params = [.void]
  · subst hvoid
    have htrim : Text.trim text = "void".toList := Lexeme.trim_written_one h
    rw [Line.params, htrim]
    rfl
  by_cases hnil : params = []
  · subst hnil
    have htrim : Text.trim text = [] := by
      cases h with
      | nil hgap =>
          rw [Text.trim, Text.trimLeft_blanks (Lexeme.blanks_of_gap hgap)]
          rfl
    rw [Line.params, htrim]
    rfl
  have plain := plain.resolve_left hvoid
  have htrim := Lexeme.written_trim h
  have hword : Text.trim text ≠ "void".toList := list_ne_void hvoid htrim
  obtain ⟨texts, hall, htexts⟩ := Lexeme.written_intercalate_split hnil htrim
  have hempty : (Text.trim text).isEmpty = false := by
    obtain ⟨param, others, rfl⟩ := List.exists_cons_of_ne_nil hnil
    have : Spelling.Prototype.listLexemes (param :: others) ≠ [] := by
      cases others <;> simp [Spelling.Prototype.listLexemes, List.intercalate_cons_cons,
        param.lexemes_ne_nil]
    simpa using Lexeme.written_ne_nil htrim this
  have hcomma : (Lexeme.mark ",").text.toList = [','] := rfl
  rw [hcomma] at htexts
  rw [Line.params, Spelling.Prototype.meanings, if_neg hvoid]
  simp only [hempty, hword, decide_false, Bool.or_self, Bool.false_eq_true, ite_false]
  rw [htexts, splitCommas_written hnil hall, params_parts hall plain star]

theorem returnWords_plain {type : Typed} (plain : type.Plain annotations)
    (lower : ∀ word, .word word ∈ type.pieces → isAllCaps word = false)
    (star : "*" ∉ annotations.extra) : returnWords annotations type.texts = type.texts := by
  have hkept : ∀ piece ∈ type.texts,
      (piece != "extern" && !annotations.isNoise piece) = true :=
    Typed.forall_texts
      (fun word hword => by simp [(plain word hword).notExtern, (plain word hword).notNoise])
      (by simp [isNoise_star star])
  have hlower : ∀ piece ∈ type.texts, (!isAllCaps piece) = true :=
    Typed.forall_texts (fun word hword => by simp [lower word hword]) (by decide)
  rw [returnWords, List.filter_eq_self.mpr hkept, List.filter_eq_self.mpr hlower]
  split <;> rfl

/-- A line of this shape is read as a function, but for what is left out of its type. -/
theorem function?_of_shape {type : Typed} {name : String} (plain : type.Plain annotations)
    (plainName : IsPlain annotations name) (nameable : isTypeKeyword name = false)
    {text head inside : List Char} (hshape : shape? text = some ⟨head, name.toList, inside⟩)
    (htype : Written type.lexemes head)
    (word : (returnWords annotations type.texts).any (· != "*") = true) :
    function? annotations text = some (name,
      ⟨renderType (returnWords annotations type.texts), params annotations inside⟩) := by
  have hreserved : type.texts.head?.map isReserved = some false := by
    simp [Typed.texts, Typed.pieces, Piece.text, (plain type.first List.mem_cons_self).notReserved]
  have hname : mayNameFunction annotations name = true := by
    simp [mayNameFunction, nameable, plainName.notReserved, plainName.notNoise]
  rw [function?, hshape]
  simp only [Option.bind_eq_bind, Option.bind_some, String.ofList_toList, pieces_typed htype, hname,
    hreserved, word, Option.getD_some, Bool.not_false, Bool.and_self, ite_true]

theorem function?_shape {prototype : Spelling.Prototype} (plain : prototype.Plain annotations)
    {text : List Char} (h : Written (prototype.lexemes ++ [Lexeme.mark ";"]) text)
    (word : (returnWords annotations prototype.type.texts).any (· != "*") = true) :
    ∃ inside, Written (Spelling.Prototype.listLexemes prototype.params) inside ∧
      function? annotations text = some (prototype.name,
        ⟨renderType (returnWords annotations prototype.type.texts), params annotations inside⟩) := by
  obtain ⟨head, inside, hshape, htype, hlist⟩ :=
    shape?_written (plain.type prototype.type.first List.mem_cons_self).notExtern h
  exact ⟨inside, hlist, function?_of_shape plain.type plain.name plain.nameable hshape htype word⟩

/-- A spelled prototype is read from its line as what it means. -/
theorem function?_written {prototype : Spelling.Prototype} (plain : prototype.Plain annotations)
    (lower : ∀ word, .word word ∈ prototype.type.pieces → isAllCaps word = false)
    (star : "*" ∉ annotations.extra) {text : List Char}
    (h : Written (prototype.lexemes ++ [Lexeme.mark ";"]) text) :
    function? annotations text = some prototype.meaning := by
  have hreturn := returnWords_plain plain.type lower star
  have hword : (returnWords annotations prototype.type.texts).any (· != "*") = true := by
    have hfirst : prototype.type.first ≠ "*" := by
      intro hstar
      have hname := (plain.type prototype.type.first List.mem_cons_self).name
      rw [hstar] at hname
      exact absurd hname (by decide)
    rw [hreturn]
    simp [Typed.texts, Typed.pieces, Piece.text, hfirst]
  obtain ⟨inside, hlist, hfunction⟩ := function?_shape plain h hword
  rw [hfunction, hreturn, params_written plain.params star hlist]
  rfl

end LibSurvey.Line
