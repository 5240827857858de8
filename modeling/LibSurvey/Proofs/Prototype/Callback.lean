import LibSurvey.Proofs.Prototype.Arrays

/-!
Callbacks among the parameters of a prototype: a result, a star in parentheses with or without a name,
and the arguments in parentheses of their own. Read by tokens, a callback is what it is spelled as,
since its name is looked for in the first parentheses alone.
-/

namespace LibSurvey

namespace Spelling

/-- An argument of a callback; a typed one may have a name as its last word. -/
inductive Argument where
  | variadic
  | typed (type : Typed)
deriving DecidableEq, Repr

def Argument.lexemes : Argument → List Lexeme
  | .variadic => [.mark "..."]
  | .typed type => type.lexemes

/-- The spelling of a parameter that is a callback. -/
structure Callback where
  result : Typed
  name : Option String
  args : List Argument
deriving DecidableEq, Repr

namespace Callback

/-- What stands before the name, or before the place where one may stand. -/
def before (callback : Callback) : List Lexeme :=
  callback.result.lexemes ++ [.mark "(", .mark "*"]

def argLexemes (callback : Callback) : List Lexeme :=
  [.mark ","].intercalate (callback.args.map Argument.lexemes)

def after (callback : Callback) : List Lexeme :=
  .mark ")" :: .mark "(" :: (callback.argLexemes ++ [.mark ")"])

def lexemes (callback : Callback) : List Lexeme :=
  callback.before ++ ((callback.name.map Lexeme.word).toList ++ callback.after)

/-- The parameter that is meant: its type is all of it but the name. -/
def meaning (callback : Callback) : Param :=
  ⟨renderType ((callback.before ++ callback.after).map Lexeme.text), callback.name⟩

/-- The name, if there is one, may be one and is no other word of the parameter. -/
def Named (callback : Callback) : Prop :=
  ∀ name ∈ callback.name, isTypeKeyword name = false ∧
    .word name ∉ callback.before ++ callback.after

end Callback

/-- What divides a list or a statement, or encloses a part of it. -/
def delimiters : List Char :=
  ['(', ')', '[', ']', ',', ';', '\x7b', '\x7d']

/-- A lexeme that neither divides a list nor ends a statement. -/
structure Free (lexeme : Lexeme) : Prop where
  tight : Text.Tight lexeme.text.toList
  chars : ∀ c ∈ lexeme.text.toList, c ∉ delimiters
  notEquals : lexeme ≠ .mark "="
  notDirective : lexeme.kind ≠ .directive

/-- Lexemes whose brackets match. Parentheses may open where `nests` is set and hold none of their
own; commas may stand where `commas` is set and within brackets. -/
inductive Bracketed : Bool → Bool → List Lexeme → Prop where
  | nil {nests commas : Bool} : Bracketed nests commas []
  | item {nests commas : Bool} {lexeme : Lexeme} {rest : List Lexeme} :
      Free lexeme → Bracketed nests commas rest → Bracketed nests commas (lexeme :: rest)
  | comma {nests : Bool} {rest : List Lexeme} :
      Bracketed nests true rest → Bracketed nests true (.mark "," :: rest)
  | group {commas : Bool} {inner rest : List Lexeme} :
      Bracketed false true inner → Bracketed true commas rest →
      Bracketed true commas (.mark "(" :: (inner ++ .mark ")" :: rest))
  | index {nests commas : Bool} {inner rest : List Lexeme} :
      Bracketed nests true inner → Bracketed nests commas rest →
      Bracketed nests commas (.mark "[" :: (inner ++ .mark "]" :: rest))

namespace Bracketed

variable {nests commas : Bool} {lexemes : List Lexeme}

theorem append {a b : List Lexeme} (ha : Bracketed nests commas a) (hb : Bracketed nests commas b) :
    Bracketed nests commas (a ++ b) := by
  induction ha with
  | nil => exact hb
  | item free _ ih => exact .item free (ih hb)
  | comma _ ih => exact .comma (ih hb)
  | group inner _ _ ih => simpa only [List.cons_append, List.append_assoc] using inner.group (ih hb)
  | index inner _ _ ih => simpa only [List.cons_append, List.append_assoc] using inner.index (ih hb)

theorem forall_lexemes (h : Bracketed nests commas lexemes) :
    ∀ lexeme ∈ lexemes, Free lexeme ∨ ∃ mark ∈ ["(", ")", "[", "]", ","], lexeme = .mark mark := by
  induction h with
  | nil => simp
  | item free _ ih => exact List.forall_mem_cons.mpr ⟨.inl free, ih⟩
  | comma _ ih => exact List.forall_mem_cons.mpr ⟨.inr ⟨",", by simp, rfl⟩, ih⟩
  | group _ _ ihInner ih =>
      have hrest := List.forall_mem_cons.mpr ⟨.inr ⟨")", by simp, rfl⟩, ih⟩
      exact List.forall_mem_cons.mpr ⟨.inr ⟨"(", by simp, rfl⟩,
        List.forall_mem_append.mpr ⟨ihInner, hrest⟩⟩
  | index _ _ ihInner ih =>
      have hrest := List.forall_mem_cons.mpr ⟨.inr ⟨"]", by simp, rfl⟩, ih⟩
      exact List.forall_mem_cons.mpr ⟨.inr ⟨"[", by simp, rfl⟩,
        List.forall_mem_append.mpr ⟨ihInner, hrest⟩⟩

theorem loosen (h : Bracketed nests commas lexemes) : Bracketed nests true lexemes := by
  induction h with
  | nil => exact .nil
  | item free _ ih => exact .item free ih
  | comma _ ih => exact .comma ih
  | group inner _ _ ih => exact inner.group ih
  | index inner _ _ ih => exact inner.index ih

theorem intercalate {parts : List (List Lexeme)} (h : ∀ part ∈ parts, Bracketed nests commas part) :
    Bracketed nests true ([.mark ","].intercalate parts) := by
  induction parts with
  | nil => exact .nil
  | cons part parts ih =>
      obtain ⟨hpart, hparts⟩ := List.forall_mem_cons.mp h
      cases parts with
      | nil => simpa using hpart.loosen
      | cons next parts =>
          rw [List.intercalate_cons_cons, List.append_assoc]
          exact hpart.loosen.append (.comma (ih hparts))

theorem of_forall (h : ∀ lexeme ∈ lexemes, Free lexeme) : Bracketed nests commas lexemes := by
  induction lexemes with
  | nil => exact .nil
  | cons lexeme lexemes ih =>
      obtain ⟨hlexeme, hrest⟩ := List.forall_mem_cons.mp h
      exact .item hlexeme (ih hrest)

end Bracketed

theorem free_word {word : String} (h : isName word.toList = true) : Free (.word word) := by
  refine ⟨tight_of_isName h, fun c hc hmem => ?_, by simp [Lexeme.word, Lexeme.mark],
    Token.Kind.noConfusion⟩
  have hother : ∀ c ∈ delimiters, isNameChar c = false :=
    List.forall_iff_forall_mem.mp (by decide)
  have hname : isNameChar c = true := isNameChar_of_isName h hc
  rw [hother c hmem] at hname
  exact Bool.noConfusion hname

theorem free_star : Free (.mark "*") :=
  ⟨Text.tight_of_solid (by decide) (by decide), List.forall_iff_forall_mem.mp (by decide),
    by decide, Token.Kind.noConfusion⟩

theorem free_variadic : Free (.mark "...") :=
  ⟨Text.tight_of_solid (by decide) (by decide), List.forall_iff_forall_mem.mp (by decide),
    by decide, Token.Kind.noConfusion⟩

theorem free_typed {type : Typed}
    (words : ∀ word, .word word ∈ type.lexemes → isName word.toList = true) :
    ∀ lexeme ∈ type.lexemes, Free lexeme := by
  intro lexeme hlexeme
  obtain ⟨piece, -, rfl⟩ := List.mem_map.mp hlexeme
  cases piece with
  | word word => exact free_word (words word hlexeme)
  | star => exact free_star

/-- A callback may stand in a list. -/
theorem bracketed_callback {callback : Callback}
    (words : ∀ word, .word word ∈ callback.lexemes → isName word.toList = true) :
    Bracketed true false callback.lexemes := by
  obtain ⟨result, name, args⟩ := callback
  have hresult : ∀ lexeme ∈ result.lexemes, Free lexeme := free_typed fun word hword =>
    words word (List.mem_append_left _ (List.mem_append_left _ hword))
  have hname : ∀ lexeme ∈ .mark "*" :: (name.map Lexeme.word).toList, Free lexeme := by
    refine List.forall_mem_cons.mpr ⟨free_star, fun lexeme hlexeme => ?_⟩
    obtain ⟨word, -, rfl⟩ : ∃ word, name = some word ∧ Lexeme.word word = lexeme := by
      simpa using hlexeme
    exact free_word (words word (by simp [Callback.lexemes, hlexeme]))
  have hargs : Bracketed false true (Callback.mk result name args).argLexemes := by
    have hfree : ∀ part ∈ args.map Argument.lexemes, Bracketed false false part := by
      refine List.forall_mem_map.mpr fun arg harg => Bracketed.of_forall ?_
      cases arg with
      | variadic => exact List.forall_mem_singleton.mpr free_variadic
      | typed type =>
          refine free_typed fun word hword => words word ?_
          have hmem : .word word ∈ (Callback.mk result name args).argLexemes :=
            (Text.infix_intercalate (List.mem_map_of_mem harg)).subset hword
          simp [Callback.lexemes, Callback.after, hmem]
    exact .intercalate hfree
  have hgroups := Bracketed.group (.of_forall hname)
    (Bracketed.group hargs (.nil : Bracketed true false []))
  simpa [Callback.lexemes, Callback.before, Callback.after] using
    (Bracketed.of_forall hresult).append hgroups

/-- The spelling of a prototype with any parameters between its commas. -/
structure Listing where
  external : Bool
  type : Typed
  name : String
  params : List (List Lexeme)
deriving DecidableEq, Repr

namespace Listing

def list (listing : Listing) : List Lexeme :=
  [.mark ","].intercalate listing.params

/-- All of a prototype before its first parenthesis. -/
def head (listing : Listing) : List Lexeme :=
  (if listing.external then [.word "extern"] else []) ++
    (listing.type.lexemes ++ [.word listing.name])

def lexemes (listing : Listing) : List Lexeme :=
  listing.head ++ .mark "(" :: (listing.list ++ [.mark ")"])

/-- No word is noise, the name is one that a function may have, and parentheses nest no deeper than
within a parameter. -/
structure Plain (annotations : Annotations) (listing : Listing) : Prop where
  type : listing.type.Plain annotations
  name : IsPlain annotations listing.name
  nameable : isTypeKeyword listing.name = false
  nonempty : ∀ param ∈ listing.params, param ≠ []
  bracketed : ∀ param ∈ listing.params, Bracketed true false param
  words : ∀ param ∈ listing.params, ∀ word, .word word ∈ param → IsPlain annotations word

variable {annotations : Annotations} {listing : Listing}

theorem Plain.list (plain : listing.Plain annotations) : Bracketed true true listing.list :=
  .intercalate plain.bracketed

theorem Plain.list_words (plain : listing.Plain annotations) {word : String}
    (h : .word word ∈ listing.list) : IsPlain annotations word := by
  rcases Text.mem_intercalate h with h | ⟨param, hparam, hword⟩
  · cases h
  · exact plain.words param hparam word hword

end Listing
end Spelling

namespace Prototype
open Spelling (Typed Argument Callback Bracketed)

variable {annotations : Annotations} {nests commas : Bool} {lexemes : List Lexeme}

theorem isPunct_free {lexeme : Lexeme} (free : Spelling.Free lexeme) {mark : String}
    (hmark : mark ∈ ["(", ")", "[", "]", ",", ";", "\x7b", "\x7d", "="]) (line : Nat) :
    (lexeme.onLine line).isPunct mark = false := by
  refine Bool.eq_false_iff.mpr fun h => ?_
  simp only [Token.isPunct, Bool.and_eq_true, decide_eq_true_eq] at h
  obtain ⟨hkind, htext⟩ : lexeme.kind = .punctuation ∧ lexeme.text = mark := h
  have hlexeme : lexeme = .mark mark := by rw [Lexeme.mark, ← hkind, ← htext]
  have hchars := free.chars
  rw [htext] at hchars
  simp only [List.mem_cons, List.not_mem_nil, or_false] at hmark
  rcases hmark with rfl | rfl | rfl | rfl | rfl | rfl | rfl | rfl | rfl
  case inr.inr.inr.inr.inr.inr.inr.inr => exact free.notEquals hlexeme
  all_goals exact absurd (hchars _ (List.mem_singleton.mpr rfl)) (by decide)

theorem balanced_bracketed (h : Bracketed nests commas lexemes) (line : Nat) :
    Balanced (lexemes.map (·.onLine line)) := by
  induction h with
  | nil => exact .nil
  | item free _ ih =>
      refine .item (isBracket_eq_false_iff.mpr ⟨?_, ?_, ?_, ?_⟩) ih
      all_goals exact isPunct_free free (by simp) line
  | comma _ ih => exact .item rfl ih
  | group _ _ ihInner ih =>
      simpa using @Balanced.group ((Lexeme.mark "(").onLine line)
        ((Lexeme.mark ")").onLine line) _ _ rfl rfl ihInner ih
  | index _ _ ihInner ih =>
      simpa using @Balanced.index ((Lexeme.mark "[").onLine line)
        ((Lexeme.mark "]").onLine line) _ _ rfl rfl ihInner ih

/-- Commas stand in brackets, or where they may. -/
theorem level_bracketed (h : Bracketed nests commas lexemes) (line : Nat) :
    brackets.Level (fun token => commas = false → brackets.divides token = false)
      (lexemes.map (·.onLine line)) := by
  induction h with
  | nil => exact .nil
  | item free _ ih =>
      refine .item ?_ ?_ (fun _ => isPunct_free free (by simp) line) ih
      · simp [brackets, @isPunct_free _ free "(" (by simp) line,
          @isPunct_free _ free "[" (by simp) line]
      · simp [brackets, @isPunct_free _ free ")" (by simp) line,
          @isPunct_free _ free "]" (by simp) line]
  | comma _ ih => exact .item rfl rfl (fun h => absurd h (by decide)) ih
  | group _ _ ihInner ih =>
      have hinner := ihInner.mono (q := fun _ => True) fun _ _ => trivial
      simpa using Brackets.Level.group ((Lexeme.mark "(").onLine line)
        ((Lexeme.mark ")").onLine line) rfl rfl rfl hinner ih
  | index _ _ ihInner ih =>
      have hinner := ihInner.mono (q := fun _ => True) fun _ _ => trivial
      simpa using Brackets.Level.group ((Lexeme.mark "[").onLine line)
        ((Lexeme.mark "]").onLine line) rfl rfl rfl hinner ih

theorem text_onLine (lexemes : List Lexeme) (line : Nat) :
    (lexemes.map (·.onLine line)).map Token.text = lexemes.map Lexeme.text := by
  rw [List.map_map]
  rfl

/-- Of a star and the word behind it, if there is one, the word is the name. -/
theorem callback_declarator {name : Option String} (named : ∀ word ∈ name, isTypeKeyword word = false)
    (before after : List String) (line : Nat) :
    callback before ((Lexeme.mark "*" :: (name.map Lexeme.word).toList).map (·.onLine line)) after =
      ⟨renderType (before ++ "*" :: after), name⟩ := by
  cases name with
  | none => simp [callback, mayName, Lexeme.onLine, Lexeme.mark]
  | some word => simp [callback, mayName, Lexeme.onLine, Lexeme.word, Lexeme.mark, named word rfl]

/-- A callback is read as what it means. -/
theorem param_callback {callback : Callback} (named : callback.Named) (line : Nat) :
    param (callback.lexemes.map (·.onLine line)) = callback.meaning := by
  obtain ⟨result, name, args⟩ := callback
  generalize hafter : (Callback.mk result name args).argLexemes ++ [Lexeme.mark ")"] = after
  have hspan : ((Callback.mk result name args).lexemes.map (·.onLine line)).span (!·.isPunct "(") =
      (result.lexemes.map (·.onLine line), (Lexeme.mark "(").onLine line ::
        ((Lexeme.mark "*" :: (name.map Lexeme.word).toList).map (·.onLine line) ++
          (Lexeme.mark ")").onLine line :: (Lexeme.mark "(" :: after).map (·.onLine line))) := by
    rw [← span_unopened (fun token htoken => isPunct_typed htoken (show "(" ≠ "*" by decide)) _
      (by rintro token ⟨⟩; rfl), ← hafter]
    simp [Callback.lexemes, Callback.before, Callback.after]
  have hclosing := @closing?_unbracketed
    ((Lexeme.mark "*" :: (name.map Lexeme.word).toList).map (·.onLine line))
    (by cases name <;> simp [Token.isPunct, Lexeme.onLine, Lexeme.mark, Lexeme.word])
    ((Lexeme.mark ")").onLine line) rfl [] ((Lexeme.mark "(" :: after).map (·.onLine line))
  unfold param
  rw [hspan]
  simp only [hclosing, List.reverse_nil, List.nil_append, text_onLine,
    callback_declarator fun word hword => (named word hword).1]
  simp [Callback.meaning, Callback.before, Callback.after, ← hafter, Lexeme.mark]

/-- The parameters of a list that is not `void` are those between its commas. -/
theorem params_bracketed {params : List (List Lexeme)} (nonempty : params ≠ [])
    (formed : ∀ param ∈ params, param ≠ [] ∧ Bracketed true false param) (line : Nat)
    (notVoid : isVoid (([.mark ","].intercalate params).map (·.onLine line)) = false) :
    Prototype.params (([.mark ","].intercalate params).map (·.onLine line)) =
      params.map fun tokens => param (tokens.map (·.onLine line)) := by
  have hsplit : splitCommas (([.mark ","].intercalate params).map (·.onLine line)) =
      params.map (·.map (·.onLine line)) := by
    rw [Text.map_intercalate]
    refine divides_splitCommas.intercalate ((Lexeme.mark ",").onLine line) rfl rfl rfl
      (by simpa using nonempty) fun part hpart => ?_
    obtain ⟨param, hparam, rfl⟩ := List.mem_map.mp hpart
    exact (level_bracketed (formed param hparam).2 line).mono fun _ h => h rfl
  have hempty : (([.mark ","].intercalate params).map (·.onLine line)).isEmpty = false := by
    obtain ⟨param, others, rfl⟩ := List.exists_cons_of_ne_nil nonempty
    have := (formed param List.mem_cons_self).1
    cases others <;> simp [List.intercalate_cons_cons, this]
  have hparts : ∀ part ∈ params.map (·.map (·.onLine line)), (!part.isEmpty) = true := by
    intro part hpart
    obtain ⟨param, hparam, rfl⟩ := List.mem_map.mp hpart
    simpa using (formed param hparam).1
  rw [Prototype.params, hempty, notVoid, hsplit, List.filter_eq_self.mpr hparts, List.map_map]
  rfl

/-- Noise is only taken out where there is some. -/
theorem stripNoise_keeps (h : ∀ lexeme ∈ lexemes, keeps annotations lexeme = true) (line : Nat) :
    stripNoise annotations (lexemes.map (·.onLine line)) = lexemes.map (·.onLine line) := by
  induction lexemes with
  | nil => rw [List.map_nil, stripNoise]
  | cons lexeme lexemes ih =>
      obtain ⟨hlexeme, hrest⟩ := List.forall_mem_cons.mp h
      rw [List.map_cons, stripNoise_kept hlexeme, ih hrest]

theorem isVoid_of_mem {tokens : List Token} {token : Token} (h : token ∈ tokens)
    (kind : token.kind ≠ .word) : isVoid tokens = false := by
  rcases tokens with _ | ⟨only, _ | ⟨next, rest⟩⟩
  · rfl
  · rw [List.mem_singleton.mp h] at kind
    simp [isVoid, Token.isWord, kind]
  · rfl

/-- A callback in a list is read as what it means. -/
theorem params_callback {listing : Spelling.Listing} (plain : listing.Plain annotations)
    {callback : Callback} {i : Nat} (h : listing.params[i]? = some callback.lexemes)
    (named : callback.Named) (line : Nat) :
    (Prototype.params (listing.list.map (·.onLine line)))[i]? = some callback.meaning := by
  have hmem : callback.lexemes ∈ listing.params := List.mem_of_getElem? h
  have hopen : Lexeme.mark "(" ∈ listing.list :=
    (Text.infix_intercalate hmem).subset (by simp [Callback.lexemes, Callback.before])
  have notVoid : isVoid (listing.list.map (·.onLine line)) = false :=
    isVoid_of_mem (List.mem_map_of_mem hopen) Token.Kind.noConfusion
  rw [Spelling.Listing.list, params_bracketed (List.ne_nil_of_mem hmem)
    (fun param hparam => ⟨plain.nonempty param hparam, plain.bracketed param hparam⟩) line notVoid,
    List.getElem?_map, h, Option.map_some, param_callback named]

theorem keeps_bracketed (words : ∀ word, .word word ∈ lexemes → IsPlain annotations word) :
    ∀ lexeme ∈ lexemes, keeps annotations lexeme = true := by
  rintro ⟨kind, text⟩ hlexeme
  by_cases hkind : kind = .word
  · subst hkind
    exact keeps_word (words text hlexeme)
  · simp [keeps, hkind]

theorem isPunct_bracketed (h : Bracketed nests commas lexemes) {mark : String}
    (hmark : mark ∈ [";", "\x7b", "\x7d", "="]) (line : Nat) :
    ∀ token ∈ lexemes.map (·.onLine line), token.isPunct mark = false := by
  intro token htoken
  obtain ⟨lexeme, hlexeme, rfl⟩ := List.mem_map.mp htoken
  rcases h.forall_lexemes lexeme hlexeme with free | ⟨text, htext, rfl⟩
  · exact isPunct_free free (List.mem_of_mem_drop (i := 5) hmark) line
  · have hne : text ≠ mark := by
      rintro rfl
      simp only [List.mem_cons, List.not_mem_nil, or_false] at hmark htext
      rcases hmark with rfl | rfl | rfl | rfl <;> simp at htext
    simp [Token.isPunct, Lexeme.onLine, Lexeme.mark, hne]

theorem joins_bracketed (h : Bracketed nests commas lexemes) {lexeme : Lexeme}
    (hlexeme : lexeme ∈ lexemes) (line : Nat) : Declarations.Joins (lexeme.onLine line) := by
  have hmark (mark : String) (hmark : mark ∈ [";", "\x7b", "\x7d"]) :
      (lexeme.onLine line).isPunct mark = false :=
    isPunct_bracketed h (List.mem_append_left ["="] hmark) line _ (List.mem_map_of_mem hlexeme)
  refine ⟨?_, hmark⟩
  rcases h.forall_lexemes lexeme hlexeme with free | ⟨text, -, rfl⟩
  · exact free.notDirective
  · exact Token.Kind.noConfusion

theorem ofStatement?_listing {listing : Spelling.Listing} (plain : listing.Plain annotations)
    (line : Nat) : ofStatement? annotations (listing.lexemes.map (·.onLine line)) =
      some (listing.name,
        ⟨listing.type.render, Prototype.params (listing.list.map (·.onLine line))⟩) := by
  have hbefore : ∀ lexeme ∈ (if listing.external then [Lexeme.word "extern"] else []) ++
      listing.type.lexemes, Quiet (lexeme.onLine line) :=
    fun lexeme hlexeme => quiet_among (Spelling.among_head hlexeme) (by decide) line
  have hkept : ∀ lexeme ∈
      Lexeme.word listing.name :: .mark "(" :: (listing.list ++ [Lexeme.mark ")"]),
      keeps annotations lexeme = true := by
    refine List.forall_mem_cons.mpr ⟨keeps_word plain.name, List.forall_mem_cons.mpr
      ⟨keeps_mark "(", List.forall_mem_append.mpr ⟨keeps_bracketed fun _ => plain.list_words, ?_⟩⟩⟩
    exact List.forall_mem_singleton.mpr (keeps_mark ")")
  have hclosing : closing? 0 [] (listing.list.map (·.onLine line) ++
      [(Lexeme.mark ")").onLine line]) = some (listing.list.map (·.onLine line), []) := by
    rw [closing?_level (balanced_bracketed plain.list line).round]
    simp [closing?, Token.isPunct, Lexeme.onLine, Lexeme.mark]
  have hlexemes : listing.lexemes = ((if listing.external then [Lexeme.word "extern"] else []) ++
      listing.type.lexemes) ++
        Lexeme.word listing.name :: .mark "(" :: (listing.list ++ [Lexeme.mark ")"]) := by
    simp [Spelling.Listing.lexemes, Spelling.Listing.head]
  rw [ofStatement?, hlexemes, List.map_append,
    stripNoise_quiet hbefore (by rintro token ⟨⟩; exact ⟨rfl, Token.Kind.noConfusion⟩),
    filter_external plain.type, stripNoise_keeps hkept]
  have := ofWords?_closed plain.type plain.name plain.nameable line hclosing
    (isPunct_bracketed plain.list (by simp) line)
  simpa using this

end Prototype

namespace Declarations

variable {annotations : Annotations}

/-- A text that is one statement declares what the statement does. -/
theorem ofBytes?_statement {text : List Char} {tokens : List Token} {last : Token}
    (read : Token.ofChars? text = .ok (tokens ++ [last])) (joins : ∀ token ∈ tokens, Joins token)
    (ends : last.isPunct ";" = true) :
    ofBytes? annotations (Text.Utf8.encode text) =
      .ok ((Prototype.ofStatement? annotations tokens).map
        fun (name, signature) => Emission.function name signature).toList := by
  have htokens : Token.ofBytes? (Text.Utf8.encode text) = .ok (tokens ++ [last]) := by
    rw [Token.ofBytes?, Text.Utf8.decode?_encode]
    exact read
  have hrun : State.start.run annotations (tokens ++ [last]) = _ := run_statement joins ends []
  rw [ofBytes?, htokens]
  simp only [ofTokens?, hrun, State.finish, State.settled, List.append_nil]
  cases Prototype.ofStatement? annotations tokens <;> rfl

theorem joins_listing {listing : Spelling.Listing} (plain : listing.Plain annotations) (line : Nat) :
    ∀ token ∈ listing.lexemes.map (·.onLine line), Joins token := by
  intro token htoken
  obtain ⟨lexeme, hlexeme, rfl⟩ := List.mem_map.mp htoken
  have mark {text : String} (h : text ∈ ["(", ")"]) : Joins ((Lexeme.mark text).onLine line) :=
    Prototype.joins_among (.inr (.inr ⟨text, h, rfl⟩)) (by decide) line
  rw [Spelling.Listing.lexemes, Spelling.Listing.head, ← List.append_assoc] at hlexeme
  simp only [List.mem_append, List.mem_cons, List.not_mem_nil, or_false] at hlexeme
  rcases hlexeme with (h | rfl) | rfl | h | rfl
  · exact Prototype.joins_among (Spelling.among_head (List.mem_append.mpr h)) (by decide) line
  · exact joins_of_kind Token.Kind.noConfusion Token.Kind.noConfusion
  · exact mark (by simp)
  · exact Prototype.joins_bracketed plain.list h line
  · exact mark (by simp)

theorem ofBytes?_listing {listing : Spelling.Listing} (plain : listing.Plain annotations)
    {text : List Char} {line : Nat}
    (read : Token.ofChars? text = .ok
      ((listing.lexemes ++ [Lexeme.mark ";"]).map (·.onLine line))) :
    ofBytes? annotations (Text.Utf8.encode text) = .ok [.function listing.name
      ⟨listing.type.render, Prototype.params (listing.list.map (·.onLine line))⟩] := by
  rw [List.map_append, List.map_singleton] at read
  rw [ofBytes?_statement read (joins_listing plain line) rfl, Prototype.ofStatement?_listing plain]
  rfl

end Declarations
end LibSurvey
