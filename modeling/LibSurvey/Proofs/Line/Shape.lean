import LibSurvey.Proofs.Line.Words
import LibSurvey.Proofs.Prototype.Spelling
import LibSurvey.Proofs.Token.Written

/-!
The parts of a prototype found in a line. A head is made of words, each with a gap of blanks and stars
after it; the search for the name steps over them one by one and stops at the word that has a
parenthesis after it.
-/

namespace LibSurvey.Line
open Lexeme (Written)
open Spelling (Piece Typed)

/-- Words, each with a gap after it. -/
inductive Heads : List Char → Prop where
  | nil : Heads []
  | cons {word gap rest : List Char} :
      isName word = true → gap ≠ [] → (∀ c ∈ gap, isGap c = true) → Heads rest →
      Heads (word ++ (gap ++ rest))

theorem isGap_of_isNameChar {c : Char} (h : isNameChar c = true) : isGap c = false := by
  rw [isGap, isBlank_of_isNameChar h, Bool.false_or, decide_eq_false_iff_not]
  rintro rfl
  exact absurd h (by decide)

theorem isWordChar_of_isGap {c : Char} (h : isGap c = true) : Text.isWordChar c = false := by
  rw [isGap, Bool.or_eq_true, decide_eq_true_eq] at h
  rcases h with h | rfl
  · exact isWordChar_of_isBlank h
  · decide

theorem head_isNameChar {name : List Char} (h : isName name = true) (rest : List Char) {c : Char}
    (hc : c ∈ (name ++ rest).head?) : isNameChar c = true := by
  cases name with
  | nil => exact absurd h (by decide)
  | cons d name =>
      obtain rfl : d = c := by simpa using hc
      exact isNameChar_of_isName h List.mem_cons_self

theorem Heads.head_isNameChar {head name : List Char} (h : Heads head) (hname : isName name = true)
    (rest : List Char) {c : Char} (hc : c ∈ (head ++ (name ++ rest)).head?) :
    isNameChar c = true := by
  cases h with
  | nil => exact Line.head_isNameChar hname rest hc
  | cons hword _ _ _ =>
      rw [List.append_assoc] at hc
      exact Line.head_isNameChar hword _ hc

theorem headed?_word {seen text word rest : List Char} (h : word? text = some (word, rest)) :
    headed? seen text =
      match Text.trimLeft rest, seen.isEmpty with
      | '(' :: inside, false => some (seen.reverse, word, inside)
      | _, _ =>
        if (rest.takeWhile isGap).isEmpty then none
        else headed? ((rest.takeWhile isGap).reverse ++ word.reverse ++ seen)
          (rest.dropWhile isGap) := by
  rw [headed?]
  split
  · rename_i hnone
    rw [h] at hnone
    cases hnone
  · rename_i hsome
    rw [h] at hsome
    cases hsome
    rfl

theorem trimLeft_gap {gap rest : List Char} (hgap : ∀ c ∈ gap, isGap c = true)
    (hrest : ∀ c ∈ rest.head?, isNameChar c = true) :
    ∀ c ∈ (Text.trimLeft (gap ++ rest)).head?, c ≠ '(' := by
  induction gap with
  | nil =>
      cases rest with
      | nil => exact fun c hc => absurd hc (by simp [Text.trimLeft])
      | cons d rest =>
          have hd := hrest d rfl
          rintro c hc rfl
          obtain rfl : d = '(' := by
            simpa [Text.trimLeft, isBlank_of_isNameChar hd] using hc
          exact absurd hd (by decide)
  | cons d gap ih =>
      have hrec := ih fun c hc => hgap c (List.mem_cons_of_mem d hc)
      have hd := hgap d List.mem_cons_self
      rw [isGap, Bool.or_eq_true, decide_eq_true_eq] at hd
      rcases hd with hd | rfl
      · simpa [Text.trimLeft, hd] using hrec
      · rintro c hc rfl
        simp [Text.trimLeft, Text.isBlank] at hc

/-- The search steps over a head and stops at the name. -/
theorem headed?_heads {head : List Char} (h : Heads head) {name : List Char}
    (hname : isName name = true) {blanks : List Char} (hblanks : Text.Blanks blanks)
    (inside seen : List Char) (started : seen ≠ [] ∨ head ≠ []) :
    headed? seen (head ++ (name ++ (blanks ++ '(' :: inside))) =
      some (seen.reverse ++ head, name, inside) := by
  induction h generalizing seen with
  | nil =>
      have hstop : ∀ c ∈ (blanks ++ '(' :: inside).head?, Text.isWordChar c = false := by
        cases blanks with
        | nil => rintro c ⟨⟩; decide
        | cons d blanks => rintro c ⟨⟩; exact isWordChar_of_isBlank (hblanks d List.mem_cons_self)
      have hopen : Text.trimLeft (blanks ++ '(' :: inside) = '(' :: inside := by
        rw [Text.trimLeft_blanks_append hblanks]
        rfl
      have hseen : seen.isEmpty = false := by simpa using started
      rw [List.nil_append, headed?_word (word?_name hname hstop), hopen, hseen]
      simp
  | @cons word gap rest hword hgap hchars hrest ih =>
      have hmore : ∀ c ∈ (rest ++ (name ++ (blanks ++ '(' :: inside))).head?, isNameChar c = true :=
        fun c hc => hrest.head_isNameChar hname _ hc
      have hstep := ih (gap.reverse ++ word.reverse ++ seen) (.inl (by simp [hgap]))
      rw [List.append_assoc, List.append_assoc]
      generalize rest ++ (name ++ (blanks ++ '(' :: inside)) = more at hmore hstep
      obtain ⟨first, others, rfl⟩ := List.exists_cons_of_ne_nil hgap
      have hstop : ∀ c ∈ (first :: others ++ more).head?, Text.isWordChar c = false := by
        rintro c ⟨⟩
        exact isWordChar_of_isGap (hchars first List.mem_cons_self)
      have hends : ∀ c ∈ more.head?, isGap c = false :=
        fun c hc => isGap_of_isNameChar (hmore c hc)
      have hopen := trimLeft_gap hchars hmore
      rw [headed?_word (word?_name hword hstop), Text.takeWhile_front hchars hends,
        Text.dropWhile_front hchars hends, hstep]
      split
      · rename_i h _
        rw [h] at hopen
        exact absurd rfl (hopen '(' rfl)
      · simp

/-- Up to the parenthesis that closes it, a list without parentheses is the parameters. -/
theorem params?_free {text : List Char} (free : ∀ c ∈ text, c ≠ '(' ∧ c ≠ ')')
    (seen rest : List Char) :
    params? false seen (text ++ ')' :: rest) = some (seen.reverse ++ text, rest) := by
  induction text generalizing seen with
  | nil => simp [params?]
  | cons c text ih =>
      obtain ⟨hopen, hclose⟩ := free c List.mem_cons_self
      have hstep : params? false seen (c :: (text ++ ')' :: rest)) =
          params? false (c :: seen) (text ++ ')' :: rest) := by
        rw [params?] <;> simp [hopen, hclose]
      rw [List.cons_append, hstep, ih fun d hd => free d (List.mem_cons_of_mem c hd)]
      simp

/-- Without a gap, a word would go on with the next one. -/
theorem gap_ne_nil {between head name tail : List Char} (hhead : Heads head)
    (hname : isName name = true)
    (ends : ∀ c ∈ (between ++ (head ++ (name ++ tail))).head?, isNameChar c = false) :
    between ≠ [] := by
  rintro rfl
  obtain ⟨c, hc⟩ : ∃ c, c ∈ (head ++ (name ++ tail)).head? := by
    cases htext : head ++ (name ++ tail) with
    | nil =>
        simp only [List.append_eq_nil_iff] at htext
        rw [htext.2.1] at hname
        exact absurd hname (by decide)
    | cons c _ => exact ⟨c, rfl⟩
  have hchar := hhead.head_isNameChar hname tail hc
  rw [List.nil_append] at ends
  rw [ends c hc] at hchar
  exact Bool.noConfusion hchar

theorem isGap_of_gap {gap : List Char} (h : Lexeme.Gap gap) : ∀ c ∈ gap, isGap c = true :=
  fun c hc => by simp [isGap, (h c hc).1]

/-- The words and stars before a name are a gap and a head. -/
theorem written_heads {pieces : List Piece} {name : String} {more : List Lexeme} {text : List Char}
    (h : Written (pieces.map Piece.lexeme ++ Lexeme.word name :: more) text) :
    ∃ gap head tail, text = gap ++ (head ++ (name.toList ++ tail)) ∧
      (∀ c ∈ gap, isGap c = true) ∧ Heads head ∧ Written (pieces.map Piece.lexeme) (gap ++ head) ∧
      isName name.toList = true ∧ Written more tail := by
  induction pieces generalizing text with
  | nil =>
      cases h with
      | @cons gap _ _ rest hgap formed ends hrest =>
          refine ⟨gap, [], rest, by simp [Lexeme.word], isGap_of_gap hgap, .nil, ?_,
            Lexeme.isName_of_formed formed, hrest⟩
          rw [List.append_nil]
          exact .nil hgap
  | cons piece pieces ih =>
      cases h with
      | @cons gap _ _ rest hgap formed ends hrest =>
          obtain ⟨between, head, tail, rfl, hbetween, hhead, hpieces, hname, hmore⟩ := ih hrest
          have hblank := isGap_of_gap hgap
          cases piece with
          | star =>
              refine ⟨gap ++ '*' :: between, head, tail, by simp [Piece.lexeme, Lexeme.mark], ?_,
                hhead, ?_, hname, hmore⟩
              · intro c hc
                rcases List.mem_append.mp hc with hc | hc
                · exact hblank c hc
                · rcases List.mem_cons.mp hc with rfl | hc
                  · simp [isGap]
                  · exact hbetween c hc
              · have := Written.cons hgap formed trivial hpieces
                simpa [Piece.lexeme, Lexeme.mark] using this
          | word word =>
              have hwords : Heads (word.toList ++ (between ++ head)) :=
                .cons (Lexeme.isName_of_formed formed) (gap_ne_nil hhead hname ends) hbetween hhead
              refine ⟨gap, word.toList ++ (between ++ head), tail,
                by simp [Piece.lexeme, Lexeme.word], hblank, hwords, ?_, hname, hmore⟩
              rw [← List.append_assoc between] at ends
              exact .cons hgap formed (Lexeme.ends_of_append ends) hpieces

/-- What occurs neither in words nor in numbers nor in these marks does not occur. -/
theorem not_mem_among (marks : List String) {lexemes : List Lexeme} {text : List Char}
    (h : Written lexemes text) (among : ∀ lexeme ∈ lexemes, Spelling.Among marks lexeme) {c : Char}
    (hblank : Text.isBlank c = false) (hnumber : Token.isNumberChar c = false)
    (hmarks : ∀ mark ∈ marks, c ∉ mark.toList) : c ∉ text := by
  refine Lexeme.not_mem_written h hblank fun lexeme hmem formed hc => ?_
  have hother (kind : lexeme.kind = .word ∨ lexeme.kind = .number) : False := by
    rw [Lexeme.isNumberChar_of_formed formed kind hc] at hnumber
    exact Bool.noConfusion hnumber
  rcases among lexeme hmem with kind | kind | ⟨mark, hmark, rfl⟩
  · exact hother (.inl kind)
  · exact hother (.inr kind)
  · exact hmarks mark hmark hc

theorem endsStatement_written {text : List Char} (h : Written [.mark ";"] text) :
    endsStatement text = true := by
  obtain ⟨rest, htext, -⟩ := Lexeme.trimLeft_written h
  rw [endsStatement, htext]
  rfl

/-- A type and a name in front of a parenthesis are the head and the name, whatever stands in the
parentheses. -/
theorem shapeHere?_head {type : Typed} {name : String} {front : List Char}
    (h : Written (type.lexemes ++ [Lexeme.word name]) front)
    (start : ∀ c ∈ front.head?, isGap c = false)
    {inside list rest : List Char} (hparams : params? false [] inside = some (list, rest))
    (ends : endsStatement rest = true) :
    ∃ head, shapeHere? (front ++ '(' :: inside) = some ⟨head, name.toList, list⟩ ∧
      Written type.lexemes head := by
  obtain ⟨gap, head, tail, rfl, hgap, hhead, htype, hname, htail⟩ := written_heads h
  obtain rfl : gap = [] := by
    cases gap with
    | nil => rfl
    | cons c gap =>
        have := start c rfl
        rw [hgap c List.mem_cons_self] at this
        exact Bool.noConfusion this
  rw [List.nil_append] at htype ⊢
  cases htail with
  | nil hblanks =>
      have hheaded := headed?_heads hhead hname (Lexeme.blanks_of_gap hblanks) inside []
        (.inr (Lexeme.written_ne_nil htype (by simp [Typed.pieces])))
      refine ⟨head, ?_, htype⟩
      rw [List.append_assoc, List.append_assoc, shapeHere?, hheaded]
      simp [hparams, ends]

/-- Between a word and the next one there are blanks. -/
theorem afterBlanks?_written {word : String} {lexemes : List Lexeme} {text : List Char}
    (h : Written (.word word :: lexemes) text) (ends : ∀ c ∈ text.head?, isNameChar c = false)
    (more : List Char) : afterBlanks? (text ++ more) = some (Text.trimLeft (text ++ more)) := by
  obtain ⟨c, rest, rfl⟩ := List.exists_cons_of_ne_nil (Lexeme.written_ne_nil h (by simp))
  have hblank : Text.isBlank c = true := by
    refine Decidable.by_contra fun hc => ?_
    obtain ⟨more, htext, formed, -⟩ := Lexeme.trimLeft_written h
    have hleft : Text.trimLeft (c :: rest) = c :: rest := by simp [Text.trimLeft, hc]
    have hchar : isNameChar c = true := by
      refine head_isNameChar (Lexeme.isName_of_formed formed) more ?_
      rw [hleft] at htext
      exact htext ▸ rfl
    rw [ends c rfl] at hchar
    exact Bool.noConfusion hchar
  simp [afterBlanks?, Text.trimLeft, hblank]

/-- No other word is taken for a keyword, whether it is the front of it or begins with it. -/
theorem afterBlanks?_other {keyword word rest after : List Char} (hkeyword : isName keyword = true)
    (hname : isName word = true) (other : word ≠ keyword)
    (ends : ∀ c ∈ rest.head?, isNameChar c = false) (h : after? keyword (word ++ rest) = some after) :
    afterBlanks? after = none := by
  rcases List.append_eq_append_iff.mp (eq_append_of_after? h) with ⟨more, hmore, hrest⟩ |
    ⟨more, hmore, hafter⟩
  · cases more with
    | nil => exact absurd (by simpa using hmore.symm) other
    | cons c more =>
        have hchar : isNameChar c = true := isNameChar_of_isName hkeyword (by simp [hmore])
        rw [ends c (by simp [hrest])] at hchar
        exact Bool.noConfusion hchar
  · cases more with
    | nil => exact absurd (by simpa using hmore) other
    | cons c more =>
        have hchar : isNameChar c = true := isNameChar_of_isName hname (by simp [hmore])
        rw [hafter]
        exact afterBlanks?_eq_none fun d hd => by
          obtain rfl : c = d := by simpa using hd
          exact isBlank_of_isNameChar hchar

/-- Blanks in front of the first word go, and a text behind the last one stays. -/
theorem trimLeft_head {word : String} {lexemes : List Lexeme} {front : List Char}
    (h : Written (.word word :: lexemes) front) (more : List Char) :
    ∃ rest, Text.trimLeft (front ++ more) = word.toList ++ (rest ++ more) ∧
      isName word.toList = true ∧ (∀ c ∈ rest.head?, isNameChar c = false) ∧
      Written lexemes rest ∧ Written (.word word :: lexemes) (word.toList ++ rest) := by
  obtain ⟨rest, hfront, formed, ends, hrest⟩ := Lexeme.trimLeft_written h
  have hsolid : ¬Text.Blanks front := fun hblanks => by
    rw [Text.trimLeft_blanks hblanks] at hfront
    exact (Lexeme.tight_of_formed formed).nonempty (List.append_eq_nil_iff.mp hfront.symm).1
  refine ⟨rest, ?_, Lexeme.isName_of_formed formed, ends, hrest, .cons Lexeme.gap_nil formed ends hrest⟩
  rw [Text.trimLeft_append hsolid, hfront, List.append_assoc]
  rfl

/-- An `extern` in front is no part of the head. -/
theorem shape?_head {external : Bool} {type : Typed} {name : String} {front : List Char}
    (notExtern : type.first ≠ "extern")
    (h : Written ((if external then [Lexeme.word "extern"] else []) ++
      (type.lexemes ++ [Lexeme.word name])) front)
    {inside list rest : List Char} (hparams : params? false [] inside = some (list, rest))
    (ends : endsStatement rest = true) :
    ∃ head, shape? (front ++ '(' :: inside) = some ⟨head, name.toList, list⟩ ∧
      Written type.lexemes head := by
  have here {front : List Char} (h : Written (type.lexemes ++ [Lexeme.word name]) front) :
      ∃ head, shapeHere? (Text.trimLeft (front ++ '(' :: inside)) = some ⟨head, name.toList, list⟩ ∧
        Written type.lexemes head := by
    obtain ⟨rest, htext, hname, -, -, hwhole⟩ := trimLeft_head h ('(' :: inside)
    rw [htext, ← List.append_assoc]
    exact shapeHere?_head hwhole (fun c hc => isGap_of_isNameChar (head_isNameChar hname rest hc))
      hparams ends
  cases external with
  | true =>
      obtain ⟨rest, htext, -, hends, hrest, -⟩ := trimLeft_head h ('(' :: inside)
      obtain ⟨head, hshape, hwritten⟩ := here hrest
      refine ⟨head, ?_, hwritten⟩
      rw [shape?, htext, after?_append]
      simp only [Option.bind_eq_bind, Option.bind_some, afterBlanks?_written hrest hends, hshape]
  | false =>
      obtain ⟨head, hshape, hwritten⟩ := here h
      refine ⟨head, ?_, hwritten⟩
      obtain ⟨rest, htext, hname, hends, -⟩ := trimLeft_head h ('(' :: inside)
      have hnone : (after? "extern".toList (Text.trimLeft (front ++ '(' :: inside))).bind
          afterBlanks? = none := by
        rw [htext]
        cases hafter : after? "extern".toList (type.first.toList ++ (rest ++ '(' :: inside)) with
        | none => rfl
        | some after =>
            refine afterBlanks?_other (by decide) hname ?_ ?_ hafter
            · exact fun hword => notExtern (String.toList_inj.mp hword)
            · cases rest with
              | nil => rintro c ⟨⟩; decide
              | cons d rest => exact hends
      rw [shape?]
      simp only [Option.bind_eq_bind, hnone, Option.bind_none, hshape]

theorem shape?_written {prototype : Spelling.Prototype} {text : List Char}
    (notExtern : prototype.type.first ≠ "extern")
    (h : Written (prototype.lexemes ++ [Lexeme.mark ";"]) text) :
    ∃ head inside, shape? text = some ⟨head, prototype.name.toList, inside⟩ ∧
      Written prototype.type.lexemes head ∧
      Written (Spelling.Prototype.listLexemes prototype.params) inside := by
  obtain ⟨external, type, name, params⟩ := prototype
  have hlexemes : (Spelling.Prototype.mk external type name params).lexemes ++ [Lexeme.mark ";"] =
      ((if external then [Lexeme.word "extern"] else []) ++ (type.lexemes ++ [Lexeme.word name])) ++
        Lexeme.mark "(" ::
          (Spelling.Prototype.listLexemes params ++ Lexeme.mark ")" :: [.mark ";"]) := by
    simp [Spelling.Prototype.lexemes]
  rw [hlexemes] at h
  obtain ⟨front, y, rfl, hfront, -, -, hy⟩ := Lexeme.written_cons_split h
  obtain ⟨inside, rest, rfl, hinside, -, -, hrest⟩ := Lexeme.written_cons_split hy
  have hfree : ∀ c ∈ inside, c ≠ '(' ∧ c ≠ ')' := fun c hc =>
    ⟨fun h => not_mem_among _ hinside (fun _ => Spelling.among_list) (by decide) (by decide)
        (by decide) (h ▸ hc),
      fun h => not_mem_among _ hinside (fun _ => Spelling.among_list) (by decide) (by decide)
        (by decide) (h ▸ hc)⟩
  obtain ⟨head, hshape, htype⟩ := shape?_head notExtern hfront (params?_free hfree [] rest)
    (endsStatement_written hrest)
  exact ⟨head, inside, hshape, htype, hinside⟩

end LibSurvey.Line
