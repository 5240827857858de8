import LibSurvey.Proofs.Declarations.Lines
import LibSurvey.Proofs.Prototype.Noise
import LibSurvey.Proofs.Prototype.Spelling
import LibSurvey.Proofs.Text.Brackets
import Mathlib.Data.List.TakeDrop

/-!
Prototypes read from their tokens. Noise and names of sizes that look like noise are taken out first;
what is left has one pair of parentheses, and its list divides at its commas. The meaning of a spelled
prototype comes out whatever line its tokens stand on.
-/

namespace LibSurvey.Prototype
open Spelling (Piece Typed Size Parameter)

variable {annotations : Annotations}

def brackets : Brackets Token where
  opens token := token.isPunct "(" || token.isPunct "["
  closes token := token.isPunct ")" || token.isPunct "]"
  divides token := token.isPunct ","

theorem divides_splitCommas : brackets.Divides splitCommasFrom :=
  ⟨fun _ _ _ => rfl, fun _ _ _ _ _ => rfl⟩

/-- Whether a lexeme stays when noise is taken out. -/
def keeps (annotations : Annotations) (lexeme : Lexeme) : Bool :=
  !(lexeme.kind = .word && (lexeme.text = "extern" || annotations.isNoise lexeme.text))

/-- Neither opens arguments nor names a language. -/
structure Quiet (token : Token) : Prop where
  unopened : token.isPunct "(" = false
  unquoted : token.kind ≠ .string

/-- Where no arguments and no language follow, noise is filtered out word by word. -/
theorem stripNoise_quiet {lexemes : List Lexeme} {line : Nat} {rest : List Token}
    (quiet : ∀ lexeme ∈ lexemes, Quiet (lexeme.onLine line))
    (hrest : ∀ token ∈ rest.head?, Quiet token) :
    stripNoise annotations (lexemes.map (·.onLine line) ++ rest) =
      (lexemes.filter (keeps annotations)).map (·.onLine line) ++ stripNoise annotations rest := by
  induction lexemes with
  | nil => rfl
  | cons lexeme lexemes ih =>
      have hquiet : ∀ l ∈ lexemes, Quiet (l.onLine line) :=
        fun l hl => quiet l (List.mem_cons_of_mem lexeme hl)
      have hhead : ∀ token ∈ (lexemes.map (·.onLine line) ++ rest).head?, Quiet token := by
        intro token htoken
        cases lexemes with
        | nil => exact hrest token htoken
        | cons next _ =>
            obtain rfl : next.onLine line = token := by simpa using htoken
            exact hquiet next List.mem_cons_self
      rw [List.map_cons, List.cons_append, stripNoise,
        afterGroup_unopened fun token h => (hhead token h).unopened,
        afterLanguage_unnamed fun token h => (hhead token h).unquoted, ih hquiet]
      by_cases hkind : lexeme.kind = .word
      · by_cases hlanguage : lexeme.text = "extern"
        · simp [Token.isWord, Lexeme.onLine, keeps, hkind, hlanguage]
        · cases hnoise : annotations.isNoise lexeme.text <;>
            simp [Token.isWord, Lexeme.onLine, keeps, hkind, hlanguage, hnoise]
      · simp [Token.isWord, Lexeme.onLine, keeps, hkind]

theorem stripNoise_kept {lexeme : Lexeme} (h : keeps annotations lexeme = true) (line : Nat)
    (rest : List Token) : stripNoise annotations (lexeme.onLine line :: rest) =
      lexeme.onLine line :: stripNoise annotations rest := by
  rw [stripNoise]
  by_cases hkind : lexeme.kind = .word
  · simp only [keeps, hkind, decide_true, Bool.true_and, Bool.not_eq_true', Bool.or_eq_false_iff,
      decide_eq_false_iff_not] at h
    simp [Token.isWord, Lexeme.onLine, hkind, h.1, h.2]
  · simp [Token.isWord, Lexeme.onLine, hkind]

theorem keeps_word {word : String} (h : IsPlain annotations word) :
    keeps annotations (.word word) = true := by
  simp [keeps, Lexeme.word, h.notExtern, h.notNoise]

theorem keeps_mark (text : String) : keeps annotations (.mark text) = true := by
  simp [keeps, Lexeme.mark]

theorem filter_pieces {pieces : List Piece}
    (plain : ∀ word, .word word ∈ pieces → IsPlain annotations word) :
    (pieces.map Piece.lexeme).filter (keeps annotations) = pieces.map Piece.lexeme := by
  refine List.filter_eq_self.mpr fun lexeme hlexeme => ?_
  obtain ⟨piece, hpiece, rfl⟩ := List.mem_map.mp hlexeme
  cases piece with
  | word text => exact keeps_word (plain text hpiece)
  | star => exact keeps_mark "*"

/-- The size that is left of one: names in sizes may be noise. -/
def keptSize (annotations : Annotations) : Size → Size
  | .name text => if keeps annotations (.word text) then .name text else .empty
  | size => size

theorem filter_size (size : Size) :
    size.lexemes.filter (keeps annotations) = (keptSize annotations size).lexemes := by
  cases size with
  | empty => simp [Size.lexemes, Size.content, keptSize, keeps_mark]
  | name text =>
      by_cases h : keeps annotations (.word text) = true
      · simp [Size.lexemes, Size.content, keptSize, keeps_mark, h]
      · simp [Size.lexemes, Size.content, keptSize, keeps_mark, h]
  | number text =>
      have : keeps annotations (.number text) = true := by simp [keeps, Lexeme.number]
      simp [Size.lexemes, Size.content, keptSize, keeps_mark, this]

def keptParameter (annotations : Annotations) : Parameter → Parameter
  | .variadic => .variadic
  | .typed type sizes => .typed type (sizes.map (keptSize annotations))

theorem filter_parameter {param : Parameter} (plain : param.Plain annotations) :
    param.lexemes.filter (keeps annotations) = (keptParameter annotations param).lexemes := by
  cases param with
  | variadic => simp [Parameter.lexemes, keptParameter, keeps_mark]
  | typed type sizes =>
      rw [Parameter.lexemes, List.filter_append, Typed.lexemes, filter_pieces plain.1,
        List.filter_flatMap]
      simp [keptParameter, Parameter.lexemes, Typed.lexemes, List.flatMap_map, filter_size]

theorem meaning_keptParameter (param : Parameter) :
    (keptParameter annotations param).meaning = param.meaning := by
  cases param with
  | variadic => rfl
  | typed type sizes => simp [keptParameter, Parameter.meaning]

theorem filter_list {params : List Parameter} (plain : ∀ param ∈ params, param.Plain annotations) :
    (Spelling.Prototype.listLexemes params).filter (keeps annotations) =
      Spelling.Prototype.listLexemes (params.map (keptParameter annotations)) := by
  rw [Spelling.Prototype.listLexemes, Text.filter_intercalate (keeps_mark ","), List.map_map,
    Spelling.Prototype.listLexemes, List.map_map]
  refine congrArg _ (List.map_congr_left fun param hparam => ?_)
  exact filter_parameter (plain param hparam)

/-- Sizes fall away from the end, and it is known whether there were any. -/
theorem dropSizes_sizes (type : Typed) (sizes : List Size) (line : Nat) :
    dropSizes ((Parameter.typed type sizes).lexemes.map (·.onLine line)).reverse =
      ((type.lexemes.map (·.onLine line)).reverse, !sizes.isEmpty) := by
  induction sizes using List.reverseRecOn with
  | nil =>
      obtain ⟨init, last, hlast⟩ : ∃ init last, type.pieces = init ++ [last] :=
        ⟨_, _, (List.dropLast_append_getLast (l := type.pieces) (by simp [Typed.pieces])).symm⟩
      have hclose : ((last.lexeme).onLine line).isPunct "]" = false := by
        cases last <;> simp [Piece.lexeme, Lexeme.onLine, Lexeme.word, Lexeme.mark, Token.isPunct]
      simp [Parameter.lexemes, Typed.lexemes, hlast, dropSizes, hclose]
  | append_singleton sizes size ih =>
      have hcontent : ∀ token ∈ (size.content.map (·.onLine line)).reverse,
          (!token.isPunct "[") = true := by
        cases size <;> simp [Size.content, Lexeme.onLine, Lexeme.word, Lexeme.number, Token.isPunct]
      have hdrop : ((size.content.map (·.onLine line)).reverse ++ (Lexeme.mark "[").onLine line ::
          ((Parameter.typed type sizes).lexemes.map (·.onLine line)).reverse).dropWhile
            (!·.isPunct "[") = (Lexeme.mark "[").onLine line ::
          ((Parameter.typed type sizes).lexemes.map (·.onLine line)).reverse := by
        rw [List.dropWhile_append_of_pos hcontent]
        simp [Lexeme.onLine, Lexeme.mark, Token.isPunct]
      have hreverse : ((Parameter.typed type (sizes ++ [size])).lexemes.map (·.onLine line)).reverse =
          (Lexeme.mark "]").onLine line :: ((size.content.map (·.onLine line)).reverse ++
            (Lexeme.mark "[").onLine line ::
              ((Parameter.typed type sizes).lexemes.map (·.onLine line)).reverse) := by
        simp [Parameter.lexemes, Size.lexemes]
      have hclose : ((Lexeme.mark "]").onLine line).isPunct "]" = true := rfl
      rw [hreverse, dropSizes, if_pos hclose]
      split
      · rename_i h
        rw [hdrop] at h
        cases h
        simp [ih]
      · rename_i h
        rw [hdrop] at h
        exact absurd h (by simp)

theorem mayName_piece (piece : Piece) (h : ∀ word, piece = .word word → isName word.toList = true)
    (line : Nat) : mayName (piece.lexeme.onLine line) = Line.mayName piece.text := by
  cases piece with
  | word text => simp [mayName, Line.mayName, Piece.lexeme, Piece.text, Lexeme.onLine, Lexeme.word,
      h text rfl]
  | star => rfl

theorem hasTypeWord_pieces (pieces : List Piece)
    (h : ∀ word, .word word ∈ pieces → isName word.toList = true) (line : Nat) :
    hasTypeWord (pieces.map fun piece => piece.lexeme.onLine line) =
      Line.hasTypeWord (pieces.map Piece.text) := by
  induction pieces with
  | nil => rfl
  | cons piece pieces ih =>
      have hrest := ih fun word hw => h word (List.mem_cons_of_mem piece hw)
      rw [hasTypeWord, Line.hasTypeWord] at hrest ⊢
      rw [List.map_cons, List.map_cons, List.any_cons, List.any_cons, hrest]
      cases piece with
      | word text =>
          simp [Piece.lexeme, Piece.text, Lexeme.onLine, Lexeme.word, h text List.mem_cons_self]
      | star => rfl

theorem text_lexeme (piece : Piece) (line : Nat) :
    (piece.lexeme.onLine line).text = piece.text := by
  cases piece <;> rfl

/-- The last word is taken for the name by its spelling and by what stands before it, whether these
are tokens or texts. -/
theorem plainParam_typed {type : Typed} (names : ∀ word, .word word ∈ type.pieces →
    isName word.toList = true) (sizes : List Size) (line : Nat) :
    plainParam ((Parameter.typed type sizes).lexemes.map (·.onLine line)) =
      Line.plainParam type.texts !sizes.isEmpty := by
  have hreverse : (type.lexemes.map (·.onLine line)).reverse =
      type.pieces.reverse.map fun piece => piece.lexeme.onLine line := by
    simp [Typed.lexemes]
  have htexts : type.texts = (type.pieces.reverse.map Piece.text).reverse := by
    simp [Typed.texts]
  have hnames : ∀ word, .word word ∈ type.pieces.reverse → isName word.toList = true :=
    fun word h => names word (List.mem_reverse.mp h)
  rw [plainParam, dropSizes_sizes, hreverse, Line.plainParam, htexts]
  generalize type.pieces.reverse = pieces at hnames
  rcases pieces with _ | ⟨last, _ | ⟨tag, head⟩⟩
  case nil => rfl
  case cons.nil => simp [text_lexeme]
  case cons.cons =>
      have hlast := mayName_piece last
        (fun word hw => hnames word (by simp [hw])) line
      have hhead := hasTypeWord_pieces (tag :: head)
        (fun word hw => hnames word (List.mem_cons_of_mem last hw)) line
      simp only [List.map_cons] at hhead
      simp only [List.map_cons, List.reverse_reverse, hlast, hhead, text_lexeme]
      simp [Function.comp_def, text_lexeme]

theorem span_unopened {tokens : List Token} (h : ∀ token ∈ tokens, token.isPunct "(" = false)
    (rest : List Token) (hrest : ∀ token ∈ rest.head?, token.isPunct "(" = true) :
    (tokens ++ rest).span (!·.isPunct "(") = (tokens, rest) := by
  have hall : ∀ token ∈ tokens, (!token.isPunct "(") = true := fun t ht => by simp [h t ht]
  rw [List.span_eq_takeWhile_dropWhile, List.takeWhile_append_of_pos hall,
    List.dropWhile_append_of_pos hall]
  cases rest with
  | nil => simp
  | cons token rest => simp [hrest token rfl]

theorem param_parameter {param : Parameter} (plain : param.Plain annotations) (line : Nat) :
    Prototype.param (param.lexemes.map (·.onLine line)) = param.meaning := by
  have hspan : (param.lexemes.map (·.onLine line)).span (!·.isPunct "(") =
      (param.lexemes.map (·.onLine line), []) := by
    have hunopened : ∀ token ∈ param.lexemes.map (·.onLine line), token.isPunct "(" = false := by
      intro token htoken
      obtain ⟨lexeme, hlexeme, rfl⟩ := List.mem_map.mp htoken
      exact (Spelling.among_parameter hlexeme).isPunct line (by decide)
    simpa using span_unopened hunopened [] (by simp)
  unfold Prototype.param
  rw [hspan]
  cases param with
  | variadic => rfl
  | typed type sizes =>
      have hplain : plainParam ((Parameter.typed type sizes).lexemes.map (·.onLine line)) =
          (Parameter.typed type sizes).meaning :=
        plainParam_typed (fun word hw => (plain.1 word hw).name) sizes line
      simp only
      split
      · rename_i only hone
        have hdots : only.isPunct "..." = false := by
          have hmem : only = (Lexeme.word type.first).onLine line := by
            simp only [Parameter.lexemes, Typed.lexemes, Typed.pieces, List.map_cons,
              List.cons_append, Piece.lexeme, List.cons.injEq] at hone
            exact hone.1.symm
          simp [hmem, Token.isPunct, Lexeme.onLine, Lexeme.word]
        rw [hdots, if_neg Bool.false_ne_true]
        exact hplain
      · exact hplain

theorem closing?_unbracketed {tokens : List Token}
    (h : ∀ token ∈ tokens, token.isPunct "(" = false ∧ token.isPunct ")" = false)
    (close : Token) (hclose : close.isPunct ")" = true) (seen rest : List Token) :
    closing? 0 seen (tokens ++ close :: rest) = some (seen.reverse ++ tokens, rest) := by
  have level : round.Level (fun _ => True) tokens :=
    .of_forall fun token htoken => ⟨(h token htoken).1, (h token htoken).2, trivial⟩
  have hopen : close.isPunct "(" = false := Token.isPunct_ne hclose (by decide)
  rw [closing?_level level]
  simp [closing?, hopen, hclose]

theorem level_parameter (param : Parameter) (line : Nat) :
    brackets.Level (fun token => brackets.divides token = false)
      (param.lexemes.map (·.onLine line)) := by
  have free {lexeme : Lexeme} {marks : List String} (h : Spelling.Among marks lexeme)
      (hopen : "(" ∉ marks) (hsize : "[" ∉ marks) (hclose : ")" ∉ marks) (hend : "]" ∉ marks)
      (hcomma : "," ∉ marks) : brackets.opens (lexeme.onLine line) = false ∧
        brackets.closes (lexeme.onLine line) = false ∧
        brackets.divides (lexeme.onLine line) = false := by
    simp [brackets, h.isPunct line hopen, h.isPunct line hsize,
      h.isPunct line hclose, h.isPunct line hend, h.isPunct line hcomma]
  cases param with
  | variadic => exact .item rfl rfl rfl .nil
  | typed type sizes =>
      rw [Parameter.lexemes, List.map_append]
      refine Brackets.Level.append (Brackets.Level.of_forall fun token htoken => ?_) ?_
      · obtain ⟨lexeme, hlexeme, rfl⟩ := List.mem_map.mp htoken
        exact free (Spelling.among_typed hlexeme) (by decide) (by decide) (by decide) (by decide)
          (by decide)
      · induction sizes with
        | nil => exact .nil
        | cons size sizes ih =>
            have hinner : brackets.Level (fun _ => True) (size.content.map (·.onLine line)) := by
              refine Brackets.Level.of_forall fun token htoken => ?_
              cases size with
              | empty => exact absurd htoken (by simp [Size.content])
              | name text =>
                  obtain rfl := List.mem_singleton.mp htoken
                  exact ⟨rfl, rfl, trivial⟩
              | number text =>
                  obtain rfl := List.mem_singleton.mp htoken
                  exact ⟨rfl, rfl, trivial⟩
            have := Brackets.Level.group (p := fun token => brackets.divides token = false)
              ((Lexeme.mark "[").onLine line) ((Lexeme.mark "]").onLine line) rfl rfl rfl hinner ih
            simpa [Size.lexemes] using this

theorem isVoid_list {params : List Parameter} (notVoid : params ≠ [.void]) (line : Nat) :
    isVoid ((Spelling.Prototype.listLexemes params).map (·.onLine line)) = false := by
  rcases params with _ | ⟨one, _ | ⟨two, params⟩⟩
  case nil => rfl
  case cons.nil =>
      cases one with
      | variadic => rfl
      | typed type sizes =>
          obtain ⟨first, _ | ⟨next, rest⟩⟩ := type
          case cons =>
              simp [Spelling.Prototype.listLexemes, Parameter.lexemes, Typed.lexemes,
                Typed.pieces, isVoid]
          case nil =>
              cases sizes with
              | nil =>
                  have hfirst : first ≠ "void" := by rintro rfl; exact notVoid rfl
                  simp [Spelling.Prototype.listLexemes, Parameter.lexemes, Typed.lexemes,
                    Typed.pieces, Piece.lexeme, isVoid, Token.isWord, Lexeme.onLine, Lexeme.word,
                    hfirst]
              | cons size sizes =>
                  simp [Spelling.Prototype.listLexemes, Parameter.lexemes, Typed.lexemes,
                    Typed.pieces, Size.lexemes, isVoid]
  case cons.cons =>
      obtain ⟨first, more, hone⟩ := List.exists_cons_of_ne_nil (Spelling.Parameter.lexemes_ne_nil one)
      cases more <;> simp [Spelling.Prototype.listLexemes, List.intercalate_cons_cons, hone, isVoid]

/-- A list divides into its parameters. -/
theorem params_list {params : List Parameter} (plain : ∀ param ∈ params, param.Plain annotations)
    (notVoid : params ≠ [.void]) (line : Nat) :
    Prototype.params ((Spelling.Prototype.listLexemes params).map (·.onLine line)) =
      params.map Parameter.meaning := by
  by_cases hnil : params = []
  · subst hnil
    rfl
  have hsplit : splitCommas ((Spelling.Prototype.listLexemes params).map (·.onLine line)) =
      params.map fun param => param.lexemes.map (·.onLine line) := by
    rw [Spelling.Prototype.listLexemes, Text.map_intercalate, List.map_map]
    refine divides_splitCommas.intercalate ((Lexeme.mark ",").onLine line) rfl rfl rfl
      (by simpa using hnil) fun part hpart => ?_
    obtain ⟨param, _, rfl⟩ := List.mem_map.mp hpart
    exact level_parameter param line
  have hempty : ((Spelling.Prototype.listLexemes params).map (·.onLine line)).isEmpty = false := by
    obtain ⟨param, others, rfl⟩ := List.exists_cons_of_ne_nil hnil
    obtain ⟨first, more, hfirst⟩ := List.exists_cons_of_ne_nil (Spelling.Parameter.lexemes_ne_nil param)
    cases others <;>
      simp [Spelling.Prototype.listLexemes, List.intercalate_cons_cons, hfirst]
  have hparts : ∀ part ∈ params.map fun param => param.lexemes.map (·.onLine line),
      (!part.isEmpty) = true := by
    intro part hpart
    obtain ⟨param, _, rfl⟩ := List.mem_map.mp hpart
    simpa using Spelling.Parameter.lexemes_ne_nil param
  rw [Prototype.params, hempty, isVoid_list notVoid, hsplit, List.filter_eq_self.mpr hparts,
    List.map_map]
  exact List.map_congr_left fun param hparam => param_parameter (plain param hparam) line

theorem isReturnType_typed {type : Typed} (plain : type.Plain annotations) (line : Nat) :
    isReturnType (type.lexemes.map (·.onLine line)) = true := by
  rw [isReturnType, Bool.and_eq_true, List.any_eq_true, List.all_eq_true]
  refine ⟨⟨(Lexeme.word type.first).onLine line, by simp [Typed.lexemes, Typed.pieces,
    Piece.lexeme], rfl⟩, fun token htoken => ?_⟩
  obtain ⟨lexeme, hlexeme, rfl⟩ := List.mem_map.mp htoken
  obtain ⟨piece, hpiece, rfl⟩ := List.mem_map.mp hlexeme
  cases piece with
  | word text =>
      simp [Piece.lexeme, Lexeme.onLine, Lexeme.word, (plain text hpiece).notReserved]
  | star => rfl

theorem typeText_typed (type : Typed) (line : Nat) :
    typeText (type.lexemes.map (·.onLine line)) = type.render := by
  simp [typeText, Typed.lexemes, Typed.render, Typed.texts, Function.comp_def, text_lexeme]

theorem isPunct_typed {type : Typed} {line : Nat} {token : Token}
    (h : token ∈ type.lexemes.map (·.onLine line)) {mark : String} (hmark : mark ≠ "*") :
    token.isPunct mark = false := by
  obtain ⟨lexeme, hlexeme, rfl⟩ := List.mem_map.mp h
  exact (Spelling.among_typed hlexeme).isPunct line (by simpa using hmark)

/-- The first parenthesis comes after the name. -/
theorem span_typed (type : Typed) (name : String) (line : Nat) (after : List Token) :
    (type.lexemes.map (·.onLine line) ++ (Lexeme.word name).onLine line ::
      (Lexeme.mark "(").onLine line :: after).span (!·.isPunct "(") =
      (type.lexemes.map (·.onLine line) ++ [(Lexeme.word name).onLine line],
        (Lexeme.mark "(").onLine line :: after) := by
  have hunopened : ∀ token ∈ type.lexemes.map (·.onLine line) ++
      [(Lexeme.word name).onLine line], token.isPunct "(" = false := by
    intro token htoken
    rcases List.mem_append.mp htoken with h | h
    · exact isPunct_typed h (by decide)
    · rw [List.mem_singleton.mp h]
      rfl
  have := span_unopened hunopened ((Lexeme.mark "(").onLine line :: after)
    (by rintro token ⟨⟩; rfl)
  simpa using this

/-- Words and stars with a name, a list in parentheses and nothing else are a function. -/
theorem ofWords?_closed {type : Typed} (htype : type.Plain annotations) {name : String}
    (hname : IsPlain annotations name) (nameable : isTypeKeyword name = false)
    {inside : List Token} (line : Nat)
    (hclosing : closing? 0 [] (inside ++ [(Lexeme.mark ")").onLine line]) = some (inside, []))
    (unequal : ∀ token ∈ inside, token.isPunct "=" = false) :
    ofWords? (type.lexemes.map (·.onLine line) ++ (Lexeme.word name).onLine line ::
      (Lexeme.mark "(").onLine line :: (inside ++ [(Lexeme.mark ")").onLine line])) =
      some (name, ⟨type.render, Prototype.params inside⟩) := by
  have hequals : (type.lexemes.map (·.onLine line) ++ (Lexeme.word name).onLine line ::
      (Lexeme.mark "(").onLine line :: (inside ++ [(Lexeme.mark ")").onLine line])).any
        (·.isPunct "=") = false := by
    refine List.any_eq_false.mpr fun token htoken => ?_
    simp only [List.mem_append, List.mem_cons, List.not_mem_nil, or_false] at htoken
    rcases htoken with h | rfl | rfl | h | rfl
    · simp [isPunct_typed h (show "=" ≠ "*" by decide)]
    · simp [Token.isPunct, Lexeme.onLine, Lexeme.word]
    · simp [Token.isPunct, Lexeme.onLine, Lexeme.mark]
    · simp [unequal token h]
    · simp [Token.isPunct, Lexeme.onLine, Lexeme.mark]
  have hfirst : ((Lexeme.word type.first).onLine line).isWord "typedef" = false := by
    have hreserved := (htype type.first List.mem_cons_self).notReserved
    have hne : type.first ≠ "typedef" := by
      intro h
      rw [h] at hreserved
      exact absurd hreserved (by decide)
    simp [Token.isWord, Lexeme.onLine, Lexeme.word, hne]
  have hmay : mayNameFunction ((Lexeme.word name).onLine line) = true := by
    simp [mayNameFunction, Lexeme.onLine, Lexeme.word, nameable, hname.notReserved]
  have hhead : (type.lexemes.map (·.onLine line) ++ (Lexeme.word name).onLine line ::
      (Lexeme.mark "(").onLine line :: (inside ++ [(Lexeme.mark ")").onLine line])).head? =
      some ((Lexeme.word type.first).onLine line) := rfl
  rw [ofWords?, hhead]
  simp only [hfirst, hequals, Bool.or_self, Bool.false_eq_true, ite_false, span_typed,
    List.reverse_append, List.reverse_singleton, List.singleton_append, hclosing,
    List.reverse_reverse, hmay, areAnnotations, isReturnType_typed htype, typeText_typed,
    Bool.and_self, ite_true]
  rfl

theorem ofWords?_plain {type : Typed} (htype : type.Plain annotations) {name : String}
    (hname : IsPlain annotations name) (nameable : isTypeKeyword name = false)
    {inside : List Token} (line : Nat)
    (unmarked : ∀ token ∈ inside, ∀ mark ∈ ["(", ")", "="], token.isPunct mark = false) :
    ofWords? (type.lexemes.map (·.onLine line) ++ (Lexeme.word name).onLine line ::
      (Lexeme.mark "(").onLine line :: (inside ++ [(Lexeme.mark ")").onLine line])) =
      some (name, ⟨type.render, Prototype.params inside⟩) := by
  have hmatch : ∀ token ∈ inside, token.isPunct "(" = false ∧ token.isPunct ")" = false :=
    fun t ht => ⟨unmarked t ht "(" (by simp), unmarked t ht ")" (by simp)⟩
  have hclosing := closing?_unbracketed hmatch ((Lexeme.mark ")").onLine line) rfl [] []
  exact ofWords?_closed htype hname nameable line (by simpa using hclosing)
    fun token htoken => unmarked token htoken "=" (by simp)

theorem plain_keptParameter {param : Parameter} (plain : param.Plain annotations) :
    (keptParameter annotations param).Plain annotations := by
  cases param with
  | variadic => trivial
  | typed type sizes =>
      refine ⟨plain.1, fun size hsize => ?_⟩
      obtain ⟨old, hold, rfl⟩ := List.mem_map.mp hsize
      have hformed := plain.2 old hold
      cases old with
      | empty => trivial
      | number text => exact hformed
      | name text =>
          rw [keptSize]
          split
          · exact hformed
          · trivial

theorem keptParameter_eq_void {param : Parameter}
    (h : keptParameter annotations param = .void) : param = .void := by
  cases param with
  | variadic => exact absurd h (by simp [keptParameter, Parameter.void])
  | typed type sizes =>
      simp only [keptParameter, Parameter.void, Parameter.typed.injEq, List.map_eq_nil_iff] at h
      rw [h.1, h.2, Parameter.void]

/-- What is left of a list still means its parameters. -/
theorem params_kept {params : List Parameter}
    (plain : params = [.void] ∨ ∀ param ∈ params, param.Plain annotations) (line : Nat) :
    Prototype.params (((Spelling.Prototype.listLexemes params).filter (keeps annotations)).map
      (·.onLine line)) = Spelling.Prototype.meanings params := by
  by_cases hvoid : params = [.void]
  · subst hvoid
    have hlist : Spelling.Prototype.listLexemes [.void] = [.word "void"] := by
      simp [Spelling.Prototype.listLexemes, Parameter.void, Parameter.lexemes, Typed.lexemes,
        Typed.pieces, Piece.lexeme]
    rw [hlist, Spelling.Prototype.meanings, if_pos rfl]
    by_cases hkeeps : keeps annotations (.word "void") = true
    · rw [List.filter_cons_of_pos hkeeps]
      rfl
    · rw [List.filter_cons_of_neg hkeeps]
      rfl
  · have plain := plain.resolve_left hvoid
    have hkept : ∀ param ∈ params.map (keptParameter annotations), param.Plain annotations := by
      intro param hparam
      obtain ⟨old, hold, rfl⟩ := List.mem_map.mp hparam
      exact plain_keptParameter (plain old hold)
    have notVoid : params.map (keptParameter annotations) ≠ [.void] := by
      intro h
      obtain ⟨param, rfl, hparam⟩ := List.map_eq_singleton_iff.mp h
      exact hvoid (by rw [keptParameter_eq_void hparam])
    rw [filter_list plain, params_list hkept notVoid, List.map_map, Spelling.Prototype.meanings,
      if_neg hvoid]
    exact List.map_congr_left fun param _ => meaning_keptParameter param

theorem quiet_among {lexeme : Lexeme} {marks : List String} (h : Spelling.Among marks lexeme)
    (hopen : "(" ∉ marks) (line : Nat) : Quiet (lexeme.onLine line) := by
  refine ⟨h.isPunct line hopen, fun hstring => ?_⟩
  have hstring : lexeme.kind = .string := hstring
  rcases h.kind with h | h | h <;> rw [h] at hstring <;> cases hstring

theorem filter_external {type : Typed} (plain : type.Plain annotations) (external : Bool) :
    ((if external then [Lexeme.word "extern"] else []) ++ type.lexemes).filter (keeps annotations) =
      type.lexemes := by
  have hlanguage : keeps annotations (.word "extern") = false := by simp [keeps, Lexeme.word]
  have htype : type.lexemes.filter (keeps annotations) = type.lexemes := filter_pieces plain
  cases external <;> simp [hlanguage, htype]

/-- A spelled prototype is read as what it means. -/
theorem ofStatement?_spelled {prototype : Spelling.Prototype} (plain : prototype.Plain annotations)
    (line : Nat) :
    ofStatement? annotations (prototype.lexemes.map (·.onLine line)) = some prototype.meaning := by
  obtain ⟨external, type, name, params⟩ := prototype
  have hbefore : ∀ lexeme ∈ (if external then [Lexeme.word "extern"] else []) ++ type.lexemes,
      Quiet (lexeme.onLine line) :=
    fun lexeme hlexeme => quiet_among (Spelling.among_head hlexeme) (by decide) line
  have hlist : stripNoise annotations
      ((Spelling.Prototype.listLexemes params).map (·.onLine line) ++
        [(Lexeme.mark ")").onLine line]) =
      ((Spelling.Prototype.listLexemes params).filter (keeps annotations)).map (·.onLine line) ++
        [(Lexeme.mark ")").onLine line] := by
    rw [stripNoise_quiet (fun lexeme h => quiet_among (Spelling.among_list h) (by decide) line)
      (by rintro token ⟨⟩; exact ⟨rfl, Token.Kind.noConfusion⟩),
      stripNoise_kept (keeps_mark ")"), stripNoise]
  have hinside : ∀ token ∈
      ((Spelling.Prototype.listLexemes params).filter (keeps annotations)).map (·.onLine line),
      ∀ mark ∈ ["(", ")", "="], token.isPunct mark = false := by
    intro token htoken mark hmark
    obtain ⟨lexeme, hlexeme, rfl⟩ := List.mem_map.mp htoken
    refine (Spelling.among_list (List.mem_of_mem_filter hlexeme)).isPunct line ?_
    simp only [List.mem_cons, List.not_mem_nil, or_false] at hmark
    rcases hmark with rfl | rfl | rfl <;> decide
  have hwords := ofWords?_plain plain.type plain.name plain.nameable line hinside
  rw [params_kept plain.params] at hwords
  rw [ofStatement?, Spelling.Prototype.lexemes, ← List.append_assoc, List.map_append,
    stripNoise_quiet hbefore (by rintro token ⟨⟩; exact ⟨rfl, Token.Kind.noConfusion⟩),
    filter_external plain.type, List.map_cons, List.map_cons, List.map_append, List.map_singleton,
    stripNoise_kept (keeps_word plain.name), stripNoise_kept (keeps_mark "("), hlist]
  exact hwords

theorem joins_among {lexeme : Lexeme} {marks : List String} (h : Spelling.Among marks lexeme)
    (hmarks : ∀ mark ∈ [";", "\x7b", "\x7d"], mark ∉ marks) (line : Nat) :
    Declarations.Joins (lexeme.onLine line) := by
  refine ⟨fun hdirective => ?_, fun mark hmark => h.isPunct line (hmarks mark hmark)⟩
  have hdirective : lexeme.kind = .directive := hdirective
  rcases h.kind with h | h | h <;> rw [h] at hdirective <;> cases hdirective

/-- A spelled prototype with its semicolon declares its function and nothing else. -/
theorem declares_spelled {prototype : Spelling.Prototype} (plain : prototype.Plain annotations) :
    Declarations.Declares annotations (prototype.lexemes ++ [Lexeme.mark ";"])
      (some (.function prototype.meaning.1 prototype.meaning.2)) := by
  intro line emissions
  have joins : ∀ token ∈ prototype.lexemes.map (·.onLine line), Declarations.Joins token := by
    intro token htoken
    obtain ⟨lexeme, hlexeme, rfl⟩ := List.mem_map.mp htoken
    exact joins_among (Spelling.among_prototype hlexeme) (by decide) line
  rw [List.map_append, List.map_singleton, Declarations.run_statement joins rfl,
    ofStatement?_spelled plain]
  rfl

end LibSurvey.Prototype
