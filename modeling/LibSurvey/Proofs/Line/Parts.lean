import LibSurvey.Proofs.Line.Pieces
import LibSurvey.Header.Line.Prototype
import LibSurvey.Proofs.Text.Lines

/-!
The parts of a prototype as they lie on its line. Before the first parenthesis there are only words,
blanks and stars, the last word of which is the name; what the parser leaves out of the head is an
`extern` at most.
-/

namespace LibSurvey.Line
open Text (Blanks)

/-- A character of a word or of a gap between words. -/
def isHeadChar (c : Char) : Bool :=
  Text.isWordChar c || isGap c

theorem word?_parts {text word rest : List Char} (h : word? text = some (word, rest)) :
    text = word ++ rest ∧ word ≠ [] ∧ ∀ c ∈ word, Text.isWordChar c = true := by
  unfold word? at h
  split at h
  · cases h
  · rename_i c text
    split at h
    · rename_i hstart
      cases h
      have hc : Text.isWordChar c = true := isWordChar_of_isNameChar (isNameChar_of_isNameStart hstart)
      exact ⟨by simp, by simp, List.forall_mem_cons.mpr ⟨hc, List.all_eq_true.mp List.all_takeWhile⟩⟩
    · cases h

theorem afterBlanks?_parts {text rest : List Char} (h : afterBlanks? text = some rest) :
    ∃ c blanks, text = c :: (blanks ++ rest) ∧ Text.isBlank c = true ∧ Blanks blanks := by
  cases text with
  | nil => cases h
  | cons c text =>
      rw [afterBlanks?] at h
      split at h
      · rename_i hblank
        cases h
        exact ⟨c, text.takeWhile Text.isBlank, by simp [Text.trimLeft], hblank,
          List.all_eq_true.mp List.all_takeWhile⟩
      · cases h

/-- The head goes up to a name, which has a parenthesis behind it. -/
theorem headed?_parts {seen text head name inside : List Char}
    (h : headed? seen text = some (head, name, inside)) :
    ∃ more blanks, head = seen.reverse ++ more ∧
      text = more ++ (name ++ (blanks ++ '(' :: inside)) ∧ Blanks blanks ∧
      ∀ c ∈ more ++ name, isHeadChar c = true := by
  have ofWord {word : List Char} (hword : ∀ c ∈ word, Text.isWordChar c = true) :
      ∀ c ∈ word, isHeadChar c = true := fun c hc => by simp [isHeadChar, hword c hc]
  fun_induction headed? seen text with
  | case1 => cases h
  | case2 seen text word rest hword inside _ htrim =>
      cases h
      obtain ⟨rfl, -, hchars⟩ := word?_parts hword
      obtain ⟨blanks, hblanks, hrest⟩ := Text.exists_trimLeft rest
      rw [htrim] at hrest
      exact ⟨[], blanks, by simp, by rw [hrest, List.nil_append], hblanks, ofWord hchars⟩
  | case3 => cases h
  | case4 seen text word rest hword _ _ ih =>
      obtain ⟨more, blanks, rfl, hrest, hblanks, hmore⟩ := ih h
      obtain ⟨rfl, -, hchars⟩ := word?_parts hword
      have hgap : ∀ c ∈ rest.takeWhile isGap, isHeadChar c = true := fun c hc => by
        simp [isHeadChar, List.all_eq_true.mp List.all_takeWhile c hc]
      refine ⟨word ++ (rest.takeWhile isGap ++ more), blanks, by simp, ?_, hblanks, ?_⟩
      · rw [List.append_assoc, List.append_assoc, ← hrest, List.takeWhile_append_dropWhile]
      · intro c hc
        rw [List.append_assoc, List.append_assoc] at hc
        rcases List.mem_append.mp hc with hc | hc
        · exact ofWord hchars c hc
        · rcases List.mem_append.mp hc with hc | hc
          · exact hgap c hc
          · exact hmore c hc

/-- A line before its first parenthesis: the words of the type, then the name. -/
structure Leads (line before name inside : List Char) : Prop where
  parts : ∃ blanks, Blanks blanks ∧ line = before ++ (name ++ (blanks ++ '(' :: inside))
  chars : ∀ c ∈ before ++ name, isHeadChar c = true

theorem Leads.blanks {line before name inside blanks : List Char}
    (h : Leads line before name inside) (hblanks : Blanks blanks) :
    Leads (blanks ++ line) (blanks ++ before) name inside := by
  obtain ⟨⟨gap, hgap, rfl⟩, hchars⟩ := h
  refine ⟨⟨gap, hgap, by rw [List.append_assoc]⟩, fun c hc => ?_⟩
  rw [List.append_assoc] at hc
  rcases List.mem_append.mp hc with hc | hc
  · simp [isHeadChar, isGap, hblanks c hc]
  · exact hchars c hc

theorem leads_of_shapeHere? {text : List Char} {shape : Shape} (h : shapeHere? text = some shape) :
    ∃ inside, Leads text shape.head shape.name inside := by
  rw [shapeHere?] at h
  simp only [Option.bind_eq_bind] at h
  obtain ⟨⟨head, name, inside⟩, hheaded, hparams⟩ := Option.bind_eq_some_iff.mp h
  obtain ⟨⟨params, rest⟩, -, hends⟩ := Option.bind_eq_some_iff.mp hparams
  split at hends
  · cases hends
    obtain ⟨more, blanks, rfl, htext, hblanks, hchars⟩ := headed?_parts hheaded
    exact ⟨inside, ⟨blanks, hblanks, htext⟩, hchars⟩
  · cases hends

/-- The words before the name are those of the head, but for an `extern` in front. -/
theorem leads_of_shape? {line : List Char} {shape : Shape} (h : shape? line = some shape) :
    ∃ before inside, Leads line before shape.name inside ∧
      (pieces before = pieces shape.head ∨ pieces before = "extern" :: pieces shape.head) := by
  obtain ⟨front, hfront, hline⟩ := Text.exists_trimLeft line
  rw [shape?] at h
  simp only [Option.bind_eq_bind] at h
  split at h
  · rename_i found hfound
    obtain rfl := Option.some.inj h
    obtain ⟨text, hafter, hshape⟩ := Option.bind_eq_some_iff.mp hfound
    obtain ⟨rest, hextern, hblanks⟩ := Option.bind_eq_some_iff.mp hafter
    obtain ⟨c, blanks, rfl, hc, hmore⟩ := afterBlanks?_parts hblanks
    obtain ⟨inside, ⟨⟨gap, hgap, htext⟩, hchars⟩⟩ := leads_of_shapeHere? hshape
    have hword : ∀ d ∈ "extern".toList, isHeadChar d = true :=
      List.all_eq_true.mp (by decide +kernel)
    have hgapBlanks : Blanks (c :: blanks) := List.forall_mem_cons.mpr ⟨hc, hmore⟩
    have hblank : ∀ d ∈ c :: blanks, isHeadChar d = true := fun d hd => by
      simp [isHeadChar, isGap, hgapBlanks d hd]
    have hleads : Leads (Text.trimLeft line) ("extern".toList ++ (c :: blanks ++ found.head))
        found.name inside := by
      refine ⟨⟨gap, hgap, ?_⟩, fun d hd => ?_⟩
      · rw [eq_append_of_after? hextern, htext]
        simp
      · rw [List.append_assoc, List.append_assoc] at hd
        rcases List.mem_append.mp hd with hd | hd
        · exact hword d hd
        · rcases List.mem_append.mp hd with hd | hd
          · exact hblank d hd
          · exact hchars d hd
    refine ⟨front ++ ("extern".toList ++ (c :: blanks ++ found.head)), inside, ?_, .inr ?_⟩
    · rw [hline]
      exact hleads.blanks hfront
    · have hstop : ∀ d ∈ (c :: blanks ++ found.head).head?, isPieceChar d = false := by
        rintro d ⟨⟩
        exact isPieceChar_of_isBlank hc
      have hlanguage : pieces "extern".toList = ["extern"] := by decide
      rw [pieces_blanks hfront, pieces_append hstop, hlanguage,
        pieces_blanks hgapBlanks, List.singleton_append]
  · obtain ⟨inside, hleads⟩ := leads_of_shapeHere? h
    refine ⟨front ++ shape.head, inside, ?_, .inl (pieces_blanks hfront _)⟩
    rw [hline]
    exact hleads.blanks hfront

variable {annotations : Annotations}

/-- What a line declares is made of its parts. -/
theorem shape_of_function? {line : List Char} {name : String} {signature : Signature}
    (h : function? annotations line = some (name, signature)) :
    ∃ shape, shape? line = some shape ∧ name = String.ofList shape.name ∧
      signature = ⟨renderType (returnWords annotations (pieces shape.head)),
        params annotations shape.params⟩ := by
  rw [function?] at h
  simp only [Option.bind_eq_bind] at h
  obtain ⟨shape, hshape, hfound⟩ := Option.bind_eq_some_iff.mp h
  split at hfound
  · cases hfound
    exact ⟨shape, hshape, rfl, rfl⟩
  · cases hfound

/-- No parenthesis stands before the name of a function. -/
theorem Leads.unopened {line before name inside : List Char} (h : Leads line before name inside) :
    ∀ c ∈ before ++ name, c ≠ '(' ∧ c ≠ ')' := by
  have hopen : isHeadChar '(' = false := by decide +kernel
  have hclose : isHeadChar ')' = false := by decide +kernel
  intro c hc
  have hchar := h.chars c hc
  refine ⟨?_, ?_⟩ <;> rintro rfl
  · rw [hopen] at hchar
    exact Bool.noConfusion hchar
  · rw [hclose] at hchar
    exact Bool.noConfusion hchar

end LibSurvey.Line
