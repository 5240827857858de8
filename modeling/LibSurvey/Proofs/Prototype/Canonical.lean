import LibSurvey.Proofs.Prototype.Tokens
import LibSurvey.Proofs.Token.Rendered

/-!
Signatures in canonical form, whose prototypes say all that the signatures do. Types are words and
stars, and the last word of a parameter is its name exactly where a reader takes it for one. Reading
the prototype of such a signature gives the function back, unless it has more tokens than a header
may have.
-/

namespace LibSurvey
open Spelling (Piece Typed Parameter)
open Lexeme (Written)

variable {annotations : Annotations}

/-- A word after this type is taken for the name of a parameter. -/
structure Spelling.Typed.Takes (type : Typed) (name : String) : Prop where
  notKeyword : isTypeKeyword name = false
  word : ∃ word, .word word ∈ type.pieces ∧ isQualifier word = false
  untagged : ∀ before word, type.pieces = before ++ [.word word] → isTagKeyword word = false

/-- No word of this type is taken for the name of a parameter. -/
inductive Spelling.Typed.Nameless : Typed → Prop where
  | word {first : String} : Nameless ⟨first, []⟩
  | star {type : Typed} {before : List Piece} : type.pieces = before ++ [.star] → Nameless type
  | keyword {type : Typed} {before : List Piece} {word : String} :
      type.pieces = before ++ [.word word] → isTypeKeyword word = true → Nameless type
  | tagged {type : Typed} {before : List Piece} {tag word : String} :
      type.pieces = before ++ [.word tag, .word word] → isTagKeyword tag = true → Nameless type
  | qualified {type : Typed} {before : List Piece} {word : String} :
      type.pieces = before ++ [.word word] →
      (∀ other, .word other ∈ before → isQualifier other = true) → Nameless type

inductive Param.Canonical (annotations : Annotations) : Param → Prop where
  | variadic : Canonical annotations ⟨"...", none⟩
  | named (type : Typed) (name : String) :
      type.Plain annotations → IsPlain annotations name → type.Takes name →
      Canonical annotations ⟨type.render, some name⟩
  | unnamed (type : Typed) :
      type.Plain annotations → type.Nameless → Canonical annotations ⟨type.render, none⟩

/-- A list of only `void` would be an empty one. -/
structure Signature.Canonical (annotations : Annotations) (signature : Signature) : Prop where
  returns : ∃ type : Typed, type.Plain annotations ∧ signature.returnType = type.render
  params : ∀ param ∈ signature.params, param.Canonical annotations
  notVoid : signature.params ≠ [⟨"void", none⟩]

namespace Line

theorem hasTypeWord_texts {pieces : List Piece}
    (names : ∀ word, .word word ∈ pieces → isName word.toList = true) :
    hasTypeWord (pieces.map Piece.text) = true ↔
      ∃ word, .word word ∈ pieces ∧ isQualifier word = false := by
  rw [hasTypeWord, List.any_map, List.any_eq_true]
  constructor
  · rintro ⟨piece, hpiece, h⟩
    cases piece with
    | word word => exact ⟨word, hpiece, by simpa [Piece.text, names word hpiece] using h⟩
    | star => exact absurd h (by decide)
  · rintro ⟨word, hword, h⟩
    exact ⟨.word word, hword, by simp [Piece.text, names word hword, h]⟩

/-- How the last of two pieces or more is understood. -/
theorem plainParam_append (before : List String) (tag last : String) :
    plainParam (before ++ [tag, last]) false =
      if mayName last && !isTagKeyword tag && hasTypeWord (tag :: before.reverse) then
        ⟨renderType (before ++ [tag]), some last⟩
      else ⟨renderType (before ++ [tag, last]), none⟩ := by
  have hreverse : (before ++ [tag, last]).reverse = last :: tag :: before.reverse := by simp
  rw [plainParam, hreverse]
  simp

end Line

theorem texts_pair {type : Typed} {before : List Piece} {last : Piece}
    (h : type.pieces = before ++ [last]) :
    before = [] ∨ ∃ front tag, before = front ++ [tag] ∧
      type.texts = front.map Piece.text ++ [tag.text, last.text] := by
  rcases List.eq_nil_or_concat' before with rfl | ⟨front, tag, rfl⟩
  · exact .inl rfl
  · exact .inr ⟨front, tag, rfl, by simp [Typed.texts, h]⟩

theorem hasTypeWord_reverse (front : List Piece) (tag : Piece) :
    Line.hasTypeWord (tag.text :: (front.map Piece.text).reverse) =
      Line.hasTypeWord ((front ++ [tag]).map Piece.text) := by
  rw [Line.hasTypeWord, Line.hasTypeWord]
  simp [Bool.or_comm]

theorem meaning_named {type : Typed} {name : String} (plain : type.Plain annotations)
    (hname : isName name.toList = true) (takes : type.Takes name) :
    (Parameter.typed ⟨type.first, type.rest ++ [Piece.word name]⟩ []).meaning =
      ⟨type.render, some name⟩ := by
  obtain ⟨front, tag, hpieces⟩ : ∃ front tag, type.pieces = front ++ [tag] :=
    ⟨_, _, (List.dropLast_append_getLast (l := type.pieces) (by simp [Typed.pieces])).symm⟩
  have htexts : (Typed.mk type.first (type.rest ++ [Piece.word name])).texts =
      front.map Piece.text ++ [tag.text, name] := by
    have : (Typed.mk type.first (type.rest ++ [Piece.word name])).pieces =
        type.pieces ++ [Piece.word name] := rfl
    simp [Typed.texts, this, hpieces, Piece.text]
  have htag : isTagKeyword tag.text = false := by
    cases tag with
    | word word => exact takes.untagged front word hpieces
    | star => decide
  have hword : Line.hasTypeWord (tag.text :: (front.map Piece.text).reverse) = true := by
    rw [hasTypeWord_reverse, ← hpieces,
      Line.hasTypeWord_texts fun word hw => (plain word hw).name]
    exact takes.word
  have hrender : type.render = renderType (front.map Piece.text ++ [tag.text]) := by
    simp [Typed.render, Typed.texts, hpieces]
  rw [Parameter.meaning, htexts, hrender]
  simp [Line.plainParam_append, Line.mayName, hname, takes.notKeyword, htag, hword]

theorem meaning_nameless {type : Typed} (plain : type.Plain annotations)
    (nameless : type.Nameless) : (Parameter.typed type []).meaning = ⟨type.render, none⟩ := by
  have names : ∀ word, .word word ∈ type.pieces → isName word.toList = true :=
    fun word hw => (plain word hw).name
  -- All cases but the first look at the last piece and those before it.
  have last {before : List Piece} {last : Piece} (h : type.pieces = before ++ [last])
      (unnamed : ∀ front tag, before = front ++ [tag] → (Line.mayName last.text &&
        !isTagKeyword tag.text && Line.hasTypeWord (before.map Piece.text)) = false) :
      Line.plainParam type.texts false = ⟨type.render, none⟩ := by
    rcases texts_pair h with hnil | ⟨front, tag, hbefore, htexts⟩
    · have htexts : type.texts = [last.text] := by simp [Typed.texts, h, hnil]
      rw [Typed.render, htexts]
      simp [Line.plainParam]
    · have hunnamed := unnamed front tag hbefore
      rw [hbefore, ← hasTypeWord_reverse] at hunnamed
      rw [Typed.render, htexts, Line.plainParam_append, hunnamed]
      simp
  have htype : Line.plainParam type.texts false = ⟨type.render, none⟩ := by
    cases nameless with
    | word => rfl
    | star h => exact last h fun _ _ _ => rfl
    | keyword h hkeyword =>
        refine last h fun _ _ _ => ?_
        simp [Piece.text, Line.mayName, hkeyword]
    | @tagged _ before tag word h htag =>
        have h' : type.pieces = (before ++ [Piece.word tag]) ++ [Piece.word word] := by simp [h]
        refine last h' fun front other hfront => ?_
        obtain ⟨_, hother⟩ := List.append_inj' hfront rfl
        simp only [List.cons.injEq, and_true] at hother
        simp [← hother, Piece.text, htag]
    | @qualified _ before word h hqualified =>
        refine last h fun _ _ _ => ?_
        have hnames : ∀ other, .word other ∈ before → isName other.toList = true :=
          fun other hother => names other (by simp [h, hother])
        have : Line.hasTypeWord (before.map Piece.text) = false := by
          refine Bool.eq_false_iff.mpr fun htrue => ?_
          obtain ⟨other, hother, hfalse⟩ := (Line.hasTypeWord_texts hnames).mp htrue
          rw [hqualified other hother] at hfalse
          exact Bool.noConfusion hfalse
        simp [this]
  exact htype

theorem written_render {type : Typed} (plain : type.Plain annotations) :
    Written type.lexemes type.render.toList := by
  have formed : ∀ lexeme ∈ type.lexemes, lexeme.Formed := by
    intro lexeme hlexeme
    obtain ⟨piece, hpiece, rfl⟩ := List.mem_map.mp hlexeme
    cases piece with
    | word word => exact .word (plain word hpiece).name
    | star => exact .mark (by simp [Lexeme.marks])
  have htexts : type.texts = type.lexemes.map Lexeme.text := by
    rw [Typed.lexemes, List.map_map, Typed.texts]
    exact List.map_congr_left fun piece _ => by cases piece <;> rfl
  rw [Typed.render, htexts]
  exact Lexeme.written_renderType formed

/-- A word after a space. -/
theorem written_name {lexemes : List Lexeme} {text rest : List Char} {name : String}
    (htext : Written lexemes text) (hname : isName name.toList = true) {after : List Lexeme}
    (hrest : Written after rest) (stops : Lexeme.Stops rest) :
    Written (lexemes ++ Lexeme.word name :: after) (text ++ ' ' :: (name.toList ++ rest)) := by
  have := Written.cons Lexeme.gap_space (.word hname) (Lexeme.ends_of_stops stops _) hrest
  exact Lexeme.written_append htext this (Lexeme.stops_cons (by decide) _)

/-- A canonical parameter is printed as a spelling that means it. -/
theorem Param.Canonical.spelled {param : Param} (h : param.Canonical annotations) :
    ∃ spelling : Parameter, spelling.Plain annotations ∧ spelling.meaning = param ∧
      Written spelling.lexemes param.render.toList := by
  cases h with
  | variadic =>
      refine ⟨.variadic, trivial, rfl, ?_⟩
      have := Lexeme.written_mark "..." (by simp [Lexeme.marks]) Lexeme.written_nil
      simpa [Parameter.lexemes, Param.render] using this
  | named type name plain hname takes =>
      refine ⟨.typed ⟨type.first, type.rest ++ [Piece.word name]⟩ [], ⟨?_, by simp⟩,
        meaning_named plain hname.name takes, ?_⟩
      · intro word hword
        have hword : Piece.word word ∈ type.pieces ++ [Piece.word name] := hword
        rcases List.mem_append.mp hword with h | h
        · exact plain word h
        · simp only [List.mem_singleton, Piece.word.injEq] at h
          rw [h]
          exact hname
      · have := written_name (written_render plain) hname.name Lexeme.written_nil
          (by simp [Lexeme.Stops])
        simpa [Parameter.lexemes, Typed.lexemes, Typed.pieces, Param.render, Piece.lexeme] using this
  | unnamed type plain nameless =>
      refine ⟨.typed type [], ⟨plain, by simp⟩, meaning_nameless plain nameless, ?_⟩
      simpa [Parameter.lexemes, Param.render] using written_render plain

theorem spelled_params {params : List Param} (h : ∀ param ∈ params, param.Canonical annotations) :
    ∃ spellings : List Parameter, (∀ spelling ∈ spellings, spelling.Plain annotations) ∧
      spellings.map Parameter.meaning = params ∧
      Written (Spelling.Prototype.listLexemes spellings)
        (", ".intercalate (params.map Param.render)).toList := by
  induction params with
  | nil => exact ⟨[], by simp, rfl, Lexeme.written_nil⟩
  | cons param params ih =>
      obtain ⟨first, hplain, hmeaning, hwritten⟩ := (h param List.mem_cons_self).spelled
      obtain ⟨others, hothers, hmeanings, hrest⟩ :=
        ih fun p hp => h p (List.mem_cons_of_mem param hp)
      refine ⟨first :: others, by simpa using ⟨hplain, hothers⟩, by simp [hmeaning, hmeanings], ?_⟩
      cases params with
      | nil =>
          obtain rfl : others = [] := by simpa using hmeanings
          simpa [Spelling.Prototype.listLexemes] using hwritten
      | cons next params =>
          obtain ⟨second, others, rfl⟩ : ∃ second more, others = second :: more :=
            List.exists_cons_of_ne_nil (by rintro rfl; simp at hmeanings)
          have hspaced := Lexeme.written_gap Lexeme.gap_space hrest
          have hcomma := Lexeme.written_mark "," (by simp [Lexeme.marks]) hspaced
          have := Lexeme.written_append hwritten hcomma (Lexeme.stops_cons (by decide) _)
          simpa [Spelling.Prototype.listLexemes, List.intercalate_cons_cons,
            String.toList_intercalate] using this

theorem written_void : Written (Spelling.Prototype.listLexemes [.void]) "void".toList := by
  have := Lexeme.written_one (.word (show isName "void".toList = true by decide))
    (by simp [Lexeme.Ends, Lexeme.word]) Lexeme.written_nil
  simpa [Spelling.Prototype.listLexemes, Parameter.void, Parameter.lexemes, Typed.lexemes,
    Typed.pieces, Piece.lexeme, Lexeme.word] using this

theorem written_prototype {type : Typed} (htype : type.Plain annotations) {name : String}
    (hname : isName name.toList = true) {params : List Parameter} {list : String}
    (hlist : Written (Spelling.Prototype.listLexemes params) list.toList) :
    Written ((Spelling.Prototype.mk false type name params).lexemes ++ [Lexeme.mark ";"])
      (type.render ++ " " ++ name ++ "(" ++ list ++ ")" ++ ";").toList := by
  have hsemicolon := Lexeme.written_mark ";" (by simp [Lexeme.marks]) Lexeme.written_nil
  have hclose := Lexeme.written_mark ")" (by simp [Lexeme.marks]) hsemicolon
  have hinside := Lexeme.written_append hlist hclose (Lexeme.stops_cons (by decide) _)
  have hopen := Lexeme.written_mark "(" (by simp [Lexeme.marks]) hinside
  have := written_name (written_render htype) hname hopen (Lexeme.stops_cons (by decide) _)
  simpa [Spelling.Prototype.lexemes] using this

/-- A canonical signature is printed as a prototype that means it. -/
theorem Signature.Canonical.spelled {signature : Signature} (h : signature.Canonical annotations)
    {name : String} (hname : IsPlain annotations name) (nameable : isTypeKeyword name = false) :
    ∃ prototype : Spelling.Prototype, prototype.Plain annotations ∧
      prototype.meaning = (name, signature) ∧
      Written (prototype.lexemes ++ [Lexeme.mark ";"]) (signature.render name ++ ";").toList := by
  obtain ⟨type, htype, hreturn⟩ := h.returns
  obtain ⟨params, hparams, hmeanings, hlist⟩ :
      ∃ params : List Parameter,
        (params = [.void] ∨ ∀ param ∈ params, param.Plain annotations) ∧
        Spelling.Prototype.meanings params = signature.params ∧
        Written (Spelling.Prototype.listLexemes params) (renderParams signature.params).toList := by
    by_cases hnil : signature.params = []
    · exact ⟨[.void], .inl rfl, by rw [hnil]; rfl, by rw [hnil]; exact written_void⟩
    · obtain ⟨params, hplain, hmeanings, hlist⟩ := spelled_params h.params
      have hvoid : params ≠ [.void] := by
        rintro rfl
        exact h.notVoid hmeanings.symm
      refine ⟨params, .inr hplain, ?_, ?_⟩
      · rw [Spelling.Prototype.meanings, if_neg hvoid, hmeanings]
      · simpa [renderParams, hnil] using hlist
  refine ⟨⟨false, type, name, params⟩, ⟨htype, hname, nameable, hparams⟩, ?_, ?_⟩
  · rw [Spelling.Prototype.meaning, hmeanings, ← hreturn]
  · rw [Signature.render, hreturn]
    exact written_prototype htype hname.name hlist

/-- Reading a printed canonical signature gives it back; the text is refused exactly when it is made
of more lexemes than a header may have. -/
theorem Declarations.ofBytes?_render {signature : Signature}
    (canonical : signature.Canonical annotations) {name : String}
    (hname : IsPlain annotations name) (nameable : isTypeKeyword name = false) :
    ∃ lexemes, Written lexemes (signature.render name ++ ";").toList ∧
      ofBytes? annotations (Text.Utf8.encode (signature.render name ++ ";").toList) =
        if lexemes.length ≤ Token.limit then .ok [.function name signature]
        else .error (.tokens .tooMany) := by
  obtain ⟨prototype, plain, hmeaning, hwritten⟩ := canonical.spelled hname nameable
  refine ⟨_, hwritten, ?_⟩
  split
  · rename_i room
    have := ofBytes?_lines (.cons (Token.reads_written hwritten) .nil)
      (.cons (Prototype.declares_spelled plain) .nil) (by simpa using room)
    simpa [List.reduceOption, hmeaning] using this
  · rename_i room
    exact ofBytes?_tooMany hwritten (by omega)

theorem Declarations.ofBytes?_render_find :
    let signature : Signature :=
      ⟨"const char*", [⟨"int", some "size"⟩, ⟨"struct point", none⟩, ⟨"...", none⟩]⟩
    signature.Canonical ⟨[]⟩ ∧ IsPlain ⟨[]⟩ "find" ∧
      ∃ lexemes, Written lexemes (signature.render "find" ++ ";").toList ∧
        ofBytes? ⟨[]⟩ (Text.Utf8.encode (signature.render "find" ++ ";").toList) =
          if lexemes.length ≤ Token.limit then .ok [.function "find" signature]
          else .error (.tokens .tooMany) := by
  have plain {words : List String} (h : ∀ word ∈ words, IsPlain ⟨[]⟩ word) {type : Typed}
      (htype : ∀ word, .word word ∈ type.pieces → word ∈ words) : type.Plain ⟨[]⟩ :=
    fun word hword => h word (htype word hword)
  have words : ∀ word ∈ ["const", "char", "int", "size", "struct", "point", "find"],
      IsPlain ⟨[]⟩ word := by
    intro word hword
    simp only [List.mem_cons, List.not_mem_nil, or_false] at hword
    rcases hword with rfl | rfl | rfl | rfl | rfl | rfl | rfl <;>
      exact ⟨by decide, by decide, by decide, by decide⟩
  have canonical : Signature.Canonical ⟨[]⟩
      ⟨"const char*", [⟨"int", some "size"⟩, ⟨"struct point", none⟩, ⟨"...", none⟩]⟩ := by
    refine ⟨⟨⟨"const", [.word "char", .star]⟩, plain words (by simp [Typed.pieces]), by decide⟩,
      ?_, by simp⟩
    intro param hparam
    simp only [List.mem_cons, List.not_mem_nil, or_false] at hparam
    rcases hparam with rfl | rfl | rfl
    · refine Param.Canonical.named ⟨"int", []⟩ "size" (plain words (by simp [Typed.pieces]))
        (words "size" (by simp)) ⟨by decide, ⟨"int", by simp [Typed.pieces], by decide⟩, ?_⟩
      intro before word h
      obtain ⟨rfl, rfl⟩ : before = [] ∧ "int" = word := by
        cases before <;> simp_all [Typed.pieces]
      decide
    · exact Param.Canonical.unnamed ⟨"struct", [.word "point"]⟩
        (plain words (by simp [Typed.pieces])) (.tagged (List.nil_append _).symm (by decide))
    · exact .variadic
  exact ⟨canonical, words "find" (by simp), ofBytes?_render canonical (words "find" (by simp))
    (by decide)⟩

/-- A type of many stars is canonical, and its prototype may be too long to be read. -/
theorem Declarations.ofBytes?_stars (stars : Nat) (excess : Token.limit ≤ stars) {type : Typed}
    (htype : type = ⟨"int", List.replicate stars .star⟩) :
    Signature.Canonical ⟨[]⟩ ⟨type.render, []⟩ ∧ IsPlain ⟨[]⟩ "f" ∧
      ofBytes? ⟨[]⟩ (Text.Utf8.encode ((Signature.mk type.render []).render "f" ++ ";").toList) =
        .error (.tokens .tooMany) := by
  have plain : type.Plain ⟨[]⟩ := by
    intro word hword
    simp only [htype, Typed.pieces, List.mem_cons, List.mem_replicate, reduceCtorEq, and_false,
      or_false, Piece.word.injEq] at hword
    rw [hword]
    exact ⟨by decide, by decide, by decide, by decide⟩
  have hname : IsPlain ⟨[]⟩ "f" := ⟨by decide, by decide, by decide, by decide⟩
  refine ⟨⟨⟨type, plain, rfl⟩, by simp, by simp⟩, hname,
    ofBytes?_tooMany (written_prototype plain hname.name written_void) ?_⟩
  have hlength : type.lexemes.length = stars + 1 := by simp [htype, Typed.lexemes, Typed.pieces]
  simp only [Spelling.Prototype.lexemes, List.length_append, hlength]
  omega

theorem Declarations.ofBytes?_stars_limit :
    ∃ signature : Signature, signature.Canonical ⟨[]⟩ ∧ IsPlain ⟨[]⟩ "f" ∧
      isTypeKeyword "f" = false ∧
      signature = ⟨(Typed.mk "int" (List.replicate Token.limit .star)).render, []⟩ ∧
      ofBytes? ⟨[]⟩ (Text.Utf8.encode (signature.render "f" ++ ";").toList) ≠
        .ok [.function "f" signature] := by
  obtain ⟨canonical, hname, hread⟩ := ofBytes?_stars Token.limit (Nat.le_refl _) rfl
  refine ⟨_, canonical, hname, by decide, rfl, fun hok => ?_⟩
  rw [hread] at hok
  cases hok

end LibSurvey
