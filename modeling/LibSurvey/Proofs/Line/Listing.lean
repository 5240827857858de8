import LibSurvey.Proofs.Line.Joined
import LibSurvey.Proofs.Line.Lines
import LibSurvey.Proofs.Line.Prototype
import LibSurvey.Proofs.Line.Reflow
import LibSurvey.Proofs.Prototype.Callback
import LibSurvey.Proofs.Token.Laid

/-!
Prototypes with any parameters, read from their line. Parentheses within a parameter do not end the
list, and the commas in them do not divide it, so each parameter is read from what lies between its
commas.
-/

namespace LibSurvey.Line
open Lexeme (Written)
open Spelling (Bracketed Listing)
open Text (Blanks)
open Token (Laid)

variable {annotations : Annotations} {nests commas : Bool} {lexemes : List Lexeme}
  {text : List Char}

theorem tight_bracketed (h : Bracketed nests commas lexemes) :
    ∀ lexeme ∈ lexemes, Text.Tight lexeme.text.toList := by
  intro lexeme hlexeme
  rcases h.forall_lexemes lexeme hlexeme with free | ⟨mark, hmark, rfl⟩
  · exact free.tight
  · refine Lexeme.tight_of_formed (.mark ?_)
    simp only [List.mem_cons, List.not_mem_nil, or_false] at hmark
    rcases hmark with rfl | rfl | rfl | rfl | rfl <;> simp [Lexeme.marks]

theorem not_mem_delimiters {gap : List Char} (h : Lexeme.Gap gap) :
    ∀ c ∈ gap, c ∉ Spelling.delimiters :=
  fun c hc hmem => by
    have hsolid : ∀ c ∈ Spelling.delimiters, Text.isBlank c = false := by
      simp [Spelling.delimiters, Text.isBlank]
    exact Text.ne_of_isBlank (h c hc).1 (hsolid c hmem) rfl

/-- No brace stands between brackets. -/
theorem not_mem_bracketed (h : Bracketed nests commas lexemes) :
    ∀ lexeme ∈ lexemes, '\x7b' ∉ lexeme.text.toList := by
  intro lexeme hlexeme
  rcases h.forall_lexemes lexeme hlexeme with free | ⟨mark, hmark, rfl⟩
  · exact fun hbrace => free.chars _ hbrace (by decide)
  · exact (show ∀ mark ∈ ["(", ")", "[", "]", ","], '\x7b' ∉ mark.toList by decide) mark hmark

/-- Commas divide the text where they divide the lexemes. -/
theorem level_bracketed (h : Bracketed nests commas lexemes) (laid : Laid lexemes text) :
    brackets.Level (fun c => commas = false → brackets.divides c = false) text := by
  have free {commas : Bool} {text : List Char} (h : ∀ c ∈ text, c ∉ Spelling.delimiters) :
      brackets.Level (fun c => commas = false → brackets.divides c = false) text := by
    refine Brackets.Level.of_forall fun c hc => ?_
    have := h c hc
    simp only [Spelling.delimiters, List.mem_cons, List.not_mem_nil, or_false, not_or] at this
    simp [brackets, this]
  induction h generalizing text with
  | nil =>
      cases laid with
      | nil hgap => exact free (not_mem_delimiters hgap)
  | item hfree _ ih =>
      cases laid with
      | cons hgap _ hrest =>
          exact (free (not_mem_delimiters hgap)).append ((free hfree.chars).append (ih hrest))
  | comma _ ih =>
      cases laid with
      | cons hgap _ hrest =>
          exact (free (not_mem_delimiters hgap)).append
            (.item rfl rfl (fun h => absurd h (by decide)) (ih hrest))
  | group _ _ ihInner ih =>
      cases laid with
      | cons hgap _ hrest =>
          obtain ⟨x, y, rfl, hx, hy⟩ := Token.laid_cons_split hrest
          exact (free (not_mem_delimiters hgap)).append
            (.group '(' ')' rfl rfl rfl ((ihInner hx).mono fun _ _ => trivial) (ih hy))
  | index _ _ ihInner ih =>
      cases laid with
      | cons hgap _ hrest =>
          obtain ⟨x, y, rfl, hx, hy⟩ := Token.laid_cons_split hrest
          exact (free (not_mem_delimiters hgap)).append
            (.group '[' ']' rfl rfl rfl ((ihInner hx).mono fun _ _ => trivial) (ih hy))

theorem params?_undelimited (h : ∀ c ∈ text, c ∉ Spelling.delimiters) (inner : Bool)
    (seen rest : List Char) :
    params? inner seen (text ++ rest) = params? inner (text.reverse ++ seen) rest := by
  refine params?_skip (fun c hc => ?_) inner seen rest
  have := h c hc
  simp only [Spelling.delimiters, List.mem_cons, not_or] at this
  exact ⟨this.1, this.2.1⟩

theorem params?_item {c : Char} (h : c ≠ '(' ∧ c ≠ ')') (inner : Bool) (seen rest : List Char) :
    params? inner seen (c :: rest) = params? inner (c :: seen) rest :=
  params?_skip (List.forall_mem_singleton.mpr h) inner seen rest

/-- The search for the end of the list passes over all that is bracketed in it; within parentheses
it allows none. -/
theorem params?_bracketed (h : Bracketed nests commas lexemes) (laid : Laid lexemes text)
    {inner : Bool} (nesting : inner = true → nests = false) (seen rest : List Char) :
    params? inner seen (text ++ rest) = params? inner (text.reverse ++ seen) rest := by
  induction h generalizing text inner seen rest with
  | nil =>
      cases laid with
      | nil hgap => exact params?_undelimited (not_mem_delimiters hgap) inner seen rest
  | item hfree _ ih =>
      cases laid with
      | cons hgap _ hrest =>
          simp only [List.append_assoc, List.reverse_append]
          rw [params?_undelimited (not_mem_delimiters hgap), params?_undelimited hfree.chars,
            ih hrest nesting]
  | comma _ ih =>
      cases laid with
      | cons hgap _ hrest =>
          have hcomma : (Lexeme.mark ",").text.toList = [','] := rfl
          simp only [hcomma, List.append_assoc, List.cons_append, List.nil_append,
            List.reverse_append, List.reverse_cons]
          rw [params?_undelimited (not_mem_delimiters hgap), params?_item (by decide),
            ih hrest nesting]
  | group _ _ ihInner ih =>
      obtain rfl : inner = false := Bool.eq_false_iff.mpr fun h => absurd (nesting h) (by decide)
      cases laid with
      | cons hgap _ hrest =>
          obtain ⟨x, y, rfl, hx, hy⟩ := Token.laid_cons_split hrest
          have hopen : (Lexeme.mark "(").text.toList = ['('] := rfl
          have hclose : (Lexeme.mark ")").text.toList = [')'] := rfl
          simp only [hopen, hclose, List.append_assoc, List.cons_append, List.nil_append,
            List.reverse_append, List.reverse_cons]
          rw [params?_undelimited (not_mem_delimiters hgap), params?, if_neg Bool.false_ne_true,
            ihInner hx fun _ => rfl, params?, if_pos rfl, ih hy nesting]
  | index _ _ ihInner ih =>
      cases laid with
      | cons hgap _ hrest =>
          obtain ⟨x, y, rfl, hx, hy⟩ := Token.laid_cons_split hrest
          have hopen : (Lexeme.mark "[").text.toList = ['['] := rfl
          have hclose : (Lexeme.mark "]").text.toList = [']'] := rfl
          simp only [hopen, hclose, List.append_assoc, List.cons_append, List.nil_append,
            List.reverse_append, List.reverse_cons]
          rw [params?_undelimited (not_mem_delimiters hgap), params?_item (by decide),
            ihInner hx nesting, params?_item (by decide), ih hy nesting]

theorem formed_typed {type : Spelling.Typed} (plain : type.Plain annotations) :
    ∀ lexeme ∈ type.lexemes, lexeme.Formed ∧ lexeme.kind ≠ .number := by
  intro lexeme hlexeme
  obtain ⟨piece, hpiece, rfl⟩ := List.mem_map.mp hlexeme
  cases piece with
  | word word => exact ⟨.word (plain word hpiece).name, Token.Kind.noConfusion⟩
  | star => exact ⟨.mark (by simp [Lexeme.marks]), Token.Kind.noConfusion⟩

theorem formed_head {listing : Listing} (plain : listing.Plain annotations) :
    ∀ lexeme ∈ listing.head, lexeme.Formed ∧ lexeme.kind ≠ .number := by
  refine List.forall_mem_append.mpr ⟨?_, List.forall_mem_append.mpr ⟨formed_typed plain.type, ?_⟩⟩
  · split
    · exact List.forall_mem_singleton.mpr ⟨.word (by decide), Token.Kind.noConfusion⟩
    · simp
  · exact List.forall_mem_singleton.mpr ⟨.word plain.name.name, Token.Kind.noConfusion⟩

/-- The words of a type are never all left out. -/
theorem returnWords_nonempty {type : Spelling.Typed} (plain : type.Plain annotations) :
    (returnWords annotations type.texts).any (· != "*") = true := by
  have hfirst := plain type.first List.mem_cons_self
  have hstar : type.first ≠ "*" := fun h => absurd (h ▸ hfirst.name) (by decide)
  rw [returnWords]
  split
  · assumption
  · refine List.any_eq_true.mpr ⟨type.first, List.mem_filter.mpr ⟨List.mem_cons_self, ?_⟩, ?_⟩
    · simp [hfirst.notExtern, hfirst.notNoise]
    · simpa using hstar

theorem lexemes_listing (listing : Listing) : listing.lexemes ++ [Lexeme.mark ";"] =
    listing.head ++ Lexeme.mark "(" :: (listing.list ++ Lexeme.mark ")" :: [Lexeme.mark ";"]) := by
  simp [Listing.lexemes]

/-- The function of a listing, whose parameters are read from the text between its outer
parentheses. -/
theorem function?_listing {listing : Listing} (plain : listing.Plain annotations)
    (laid : Laid (listing.lexemes ++ [Lexeme.mark ";"]) text) :
    ∃ inside, Laid listing.list inside ∧ function? annotations text = some (listing.name,
      ⟨renderType (returnWords annotations listing.type.texts), params annotations inside⟩) := by
  rw [lexemes_listing] at laid
  obtain ⟨front, y, rfl, hfront, hy⟩ := Token.laid_cons_split laid
  obtain ⟨inside, rest, rfl, hinside, hrest⟩ := Token.laid_cons_split hy
  have hwritten : Written listing.head front := Token.written_of_laid hfront (formed_head plain)
  have hends : endsStatement rest = true := by
    refine endsStatement_written (Token.written_of_laid hrest ?_)
    exact List.forall_mem_singleton.mpr ⟨.mark (by simp [Lexeme.marks]), Token.Kind.noConfusion⟩
  have hparams : params? false [] (inside ++ ')' :: rest) = some (inside, rest) := by
    rw [params?_bracketed plain.list hinside Bool.noConfusion]
    simp [params?]
  have hfirst := plain.type listing.type.first List.mem_cons_self
  obtain ⟨head, hshape, htype⟩ := shape?_head hfirst.notExtern hwritten hparams hends
  exact ⟨inside, hinside, function?_of_shape plain.type plain.name plain.nameable hshape htype
    (returnWords_nonempty plain.type)⟩

theorem nonempty_of_laid (laid : Laid lexemes text)
    (tight : ∀ lexeme ∈ lexemes, Text.Tight lexeme.text.toList) (nonempty : lexemes ≠ []) :
    text ≠ [] := by
  obtain ⟨first, others, rfl⟩ := List.exists_cons_of_ne_nil nonempty
  exact Text.spaced_ne_nil (tight first List.mem_cons_self) (Token.spaced_of_laid laid)

/-- Parameters are read one by one, unless the list is `void`. -/
theorem params_listing {listing : Listing} (plain : listing.Plain annotations)
    {inside : List Char} (laid : Laid listing.list inside) {i : Nat}
    (h : listing.params[i]? = some lexemes)
    (opened : .mark "(" ∈ lexemes) :
    ∃ text, Laid lexemes text ∧ (params annotations inside)[i]? = some (param annotations text) := by
  have hmem : lexemes ∈ listing.params := List.mem_of_getElem? h
  have htrim := Token.laid_trim (tight_bracketed plain.list) laid
  have hword : '(' ∈ Text.trim inside :=
    Token.mem_of_laid htrim ((Text.infix_intercalate hmem).subset opened) (by decide)
  have hempty : (Text.trim inside).isEmpty = false := by
    simpa using List.ne_nil_of_mem hword
  have hvoid : Text.trim inside ≠ "void".toList := fun h => absurd (h ▸ hword) (by decide)
  have hlist : Laid ([.mark ","].intercalate (listing.params.map id)) (Text.trim inside) := by
    rwa [List.map_id]
  obtain ⟨texts, hall, htexts⟩ := Token.laid_intercalate_split (List.ne_nil_of_mem hmem) hlist
  have each {j : Nat} (hj : j < texts.length) :
      ∃ param ∈ listing.params, Laid param texts[j] :=
    have hj' : j < listing.params.length := hall.length_eq ▸ hj
    ⟨listing.params[j], List.getElem_mem hj', hall.get hj' hj⟩
  have hcomma : (Lexeme.mark ",").text.toList = [','] := rfl
  have hsplit : splitCommasFrom 0 [] [] (Text.trim inside) = texts := by
    rw [htexts, hcomma]
    refine divides_splitCommas.intercalate ',' rfl rfl rfl ?_ fun text htext => ?_
    · rintro rfl
      exact List.ne_nil_of_mem hmem (List.length_eq_zero_iff.mp hall.length_eq)
    · obtain ⟨j, hj, rfl⟩ := List.getElem_of_mem htext
      obtain ⟨param, hparam, hlaid⟩ := each hj
      exact (level_bracketed (plain.bracketed param hparam) hlaid).mono fun _ h => h rfl
  have hkept : (texts.map Text.trim).filter (!·.isEmpty) = texts.map Text.trim := by
    refine List.filter_eq_self.mpr (List.forall_mem_map.mpr fun text htext => ?_)
    obtain ⟨j, hj, rfl⟩ := List.getElem_of_mem htext
    obtain ⟨param, hparam, hlaid⟩ := each hj
    have htight := tight_bracketed (plain.bracketed param hparam)
    simpa using nonempty_of_laid (Token.laid_trim htight hlaid) htight (plain.nonempty param hparam)
  obtain ⟨hi, hparam⟩ := List.getElem?_eq_some_iff.mp h
  have hi' : i < texts.length := hall.length_eq ▸ hi
  have hlaid : Laid lexemes texts[i] := hparam ▸ hall.get hi hi'
  have htight := tight_bracketed (plain.bracketed lexemes hmem)
  refine ⟨Text.trim texts[i], Token.laid_trim htight hlaid, ?_⟩
  rw [params]
  simp only [hempty, hvoid, hsplit, hkept, decide_false, Bool.or_self, Bool.false_eq_true, if_false]
  simp [hi']

theorem tight_listing {listing : Listing} (plain : listing.Plain annotations) :
    ∀ lexeme ∈ listing.lexemes ++ [Lexeme.mark ";"], Text.Tight lexeme.text.toList := by
  have mark {text : String} (h : text ∈ Lexeme.marks) : Text.Tight (Lexeme.mark text).text.toList :=
    Lexeme.tight_of_formed (.mark h)
  rw [lexemes_listing]
  have hhead : ∀ lexeme ∈ listing.head, Text.Tight lexeme.text.toList :=
    fun lexeme h => Lexeme.tight_of_formed (formed_head plain lexeme h).1
  refine List.forall_mem_append.mpr ⟨hhead, List.forall_mem_cons.mpr
    ⟨mark (by simp [Lexeme.marks]), List.forall_mem_append.mpr ⟨tight_bracketed plain.list, ?_⟩⟩⟩
  simpa using ⟨mark (by simp [Lexeme.marks]), mark (by simp [Lexeme.marks])⟩

/-- A listing has no brace, so its line is no enumeration. -/
theorem not_mem_listing {listing : Listing} (plain : listing.Plain annotations)
    (laid : Laid (listing.lexemes ++ [Lexeme.mark ";"]) text) : '\x7b' ∉ text := by
  have hlexemes : ∀ lexeme ∈ listing.lexemes ++ [Lexeme.mark ";"], '\x7b' ∉ lexeme.text.toList := by
    rw [lexemes_listing]
    refine List.forall_mem_append.mpr ⟨fun lexeme h hbrace => ?_, List.forall_mem_cons.mpr
      ⟨by decide, List.forall_mem_append.mpr ⟨not_mem_bracketed plain.list, by decide⟩⟩⟩
    exact absurd (Lexeme.chars_of_formed (formed_head plain lexeme h).1 hbrace) (by decide)
  exact Text.not_mem_spaced (Token.spaced_of_laid laid) (by decide) (List.forall_mem_map.mpr hlexemes)

/-- A listing begins with a word, so its line is no directive. -/
theorem isDirective_listing {listing : Listing} (plain : listing.Plain annotations)
    (laid : Laid (listing.lexemes ++ [Lexeme.mark ";"]) text) :
    isDirective (Text.trim text) = false := by
  have hlaid := Token.laid_trim (tight_listing plain) laid
  rw [lexemes_listing] at hlaid
  obtain ⟨front, rest, htext, hfront, -⟩ := Token.laid_cons_split hlaid
  obtain ⟨first, others, hhead⟩ : ∃ first others, listing.head = .word first :: others := by
    obtain ⟨external, type, name, params⟩ := listing
    cases external
    · exact ⟨type.first, _, rfl⟩
    · exact ⟨"extern", _, rfl⟩
  have hwritten := Token.written_of_laid hfront (formed_head plain)
  rw [hhead] at hwritten
  obtain ⟨more, htrim, hname, -⟩ := trimLeft_head hwritten ('(' :: rest)
  have hfixed : Text.trimLeft (Text.trim text) = Text.trim text := by
    rw [← Text.trimLeft_trimRight, Text.trimLeft_trimLeft]
  have hline : Text.trim text = first.toList ++ (more ++ '(' :: rest) := by
    rw [← htrim, ← hfixed, htext]
    rfl
  refine decide_eq_false fun hhash => ?_
  rw [hline] at hhash
  exact absurd (head_isNameChar hname _ hhash) (by decide)

/-- A line with a listing declares its function alone. -/
theorem scan_listing {listing : Listing} (plain : listing.Plain annotations)
    (uncommented : Text.Uncommented text)
    (laid : Laid (listing.lexemes ++ [Lexeme.mark ";"]) text) :
    ∃ inside, Laid listing.list inside ∧ scan annotations text = [.function listing.name
      ⟨renderType (returnWords annotations listing.type.texts), params annotations inside⟩] := by
  have hlaid := Token.laid_trim (tight_listing plain) laid
  obtain ⟨inside, hinside, hfunction⟩ := function?_listing plain hlaid
  have nonblank := nonempty_of_laid hlaid (tight_listing plain) (by simp)
  have hlast : (Text.trimRight text).getLast? ≠ some '\\' := by
    obtain ⟨x, y, rfl, -, hy⟩ := Token.laid_cons_split laid
    have htight : Text.Tight [';'] := Text.tight_of_solid (by simp) (by decide)
    cases hy with
    | nil hgap =>
        have hmark : (Lexeme.mark ";").text.toList = [';'] := rfl
        rw [hmark, ← List.append_assoc, Text.trimRight_append_blanks fun c hc => (hgap c hc).1,
          Text.trimRight_append_tight htight, List.getLast?_concat]
        decide
  refine ⟨inside, hinside, ?_⟩
  rw [scan, logical_whole uncommented hlast nonblank, scanFrom, isDirective_listing plain laid,
    enumBody?_free (not_mem_listing plain hlaid)]
  simp [joinOpen, hfunction, scanFrom]

end LibSurvey.Line
