import LibSurvey.Proofs.Line.Words
import LibSurvey.Proofs.Signature

/-!
The pieces of a text. They divide wherever no run of letters goes on, and the pieces of a type are
found again in the text that it is rendered as.
-/

namespace LibSurvey.Line
open Text (Blanks)

theorem endPiece_append (run : List Char) (done : List String) :
    endPiece run done = endPiece run [] ++ done := by
  unfold endPiece
  split <;> rfl

theorem piecesFrom_nil (run : List Char) (done : List String) :
    piecesFrom run done [] = (endPiece run done).reverse := rfl

theorem piecesFrom_cons (run : List Char) (done : List String) (c : Char) (rest : List Char) :
    piecesFrom run done (c :: rest) =
      if isPieceChar c then piecesFrom (c :: run) done rest
      else if Text.isBlank c then piecesFrom [] (endPiece run done) rest
      else piecesFrom [] (String.singleton c :: endPiece run done) rest := rfl

/-- Pieces that are finished have no part in those that follow. -/
theorem piecesFrom_done (run : List Char) (done : List String) (text : List Char) :
    piecesFrom run done text = done.reverse ++ piecesFrom run [] text := by
  induction text generalizing run done with
  | nil => rw [piecesFrom_nil, piecesFrom_nil, endPiece_append, List.reverse_append]
  | cons c text ih =>
      rw [piecesFrom_cons, piecesFrom_cons]
      split
      · exact ih (c :: run) done
      split
      · rw [ih, ih [] (endPiece run []), endPiece_append]
        simp
      · rw [ih, ih [] (_ :: endPiece run []), endPiece_append]
        simp

/-- A run ends where no name goes on. -/
theorem piecesFrom_stop {rest : List Char} (h : ∀ c ∈ rest.head?, isPieceChar c = false)
    (run : List Char) (done : List String) :
    piecesFrom run done rest = piecesFrom [] (endPiece run done) rest := by
  cases rest with
  | nil => rfl
  | cons c rest =>
      rw [piecesFrom_cons, piecesFrom_cons, h c rfl]
      rfl

theorem piecesFrom_run {word : List Char} (h : ∀ c ∈ word, isPieceChar c = true) (run : List Char)
    (done : List String) (rest : List Char) :
    piecesFrom run done (word ++ rest) = piecesFrom (word.reverse ++ run) done rest := by
  induction word generalizing run with
  | nil => rfl
  | cons c word ih =>
      rw [List.cons_append, piecesFrom_cons, if_pos (h c List.mem_cons_self),
        ih fun d hd => h d (List.mem_cons_of_mem c hd)]
      simp

theorem isPieceChar_of_isBlank {c : Char} (h : Text.isBlank c = true) : isPieceChar c = false :=
  Bool.eq_false_iff.mpr fun hname => by
    rw [isBlank_of_isNameChar hname] at h
    exact Bool.noConfusion h

theorem piecesFrom_blanks {blanks : List Char} (h : Blanks blanks) (done : List String)
    (rest : List Char) : piecesFrom [] done (blanks ++ rest) = piecesFrom [] done rest := by
  induction blanks with
  | nil => rfl
  | cons c blanks ih =>
      have hblank := h c List.mem_cons_self
      rw [List.cons_append, piecesFrom_cons, isPieceChar_of_isBlank hblank, hblank]
      exact ih fun d hd => h d (List.mem_cons_of_mem c hd)

theorem pieces_blanks {blanks : List Char} (h : Blanks blanks) (rest : List Char) :
    pieces (blanks ++ rest) = pieces rest :=
  piecesFrom_blanks h [] rest

theorem piecesFrom_append {b : List Char} (stop : ∀ c ∈ b.head?, isPieceChar c = false)
    (a run : List Char) : piecesFrom run [] (a ++ b) = piecesFrom run [] a ++ pieces b := by
  induction a generalizing run with
  | nil =>
      rw [List.nil_append, piecesFrom_stop stop, piecesFrom_done]
      rfl
  | cons c a ih =>
      rw [List.cons_append, piecesFrom_cons, piecesFrom_cons]
      split
      · exact ih (c :: run)
      split
      · rw [piecesFrom_done, ih, piecesFrom_done [] (endPiece run []) a, List.append_assoc]
      · rw [piecesFrom_done, ih, piecesFrom_done [] (_ :: endPiece run []) a, List.append_assoc]

/-- A text is divided apart from what follows it where no run goes on. -/
theorem pieces_append {a b : List Char} (stop : ∀ c ∈ b.head?, isPieceChar c = false) :
    pieces (a ++ b) = pieces a ++ pieces b :=
  piecesFrom_append stop a []

theorem pieces_cons {c : Char} (h : isPieceChar c = false) (rest : List Char) :
    pieces (c :: rest) = pieces [c] ++ pieces rest := by
  rw [pieces, pieces, piecesFrom_cons, piecesFrom_cons, h, if_neg Bool.false_ne_true,
    if_neg Bool.false_ne_true]
  split
  · rfl
  · rw [piecesFrom_done]
    rfl

/-- A text is divided apart from what stands before it where no run goes on. -/
theorem pieces_ended {a : List Char} (ends : ∀ c ∈ a.getLast?, isPieceChar c = false)
    (b : List Char) : pieces (a ++ b) = pieces a ++ pieces b := by
  rcases List.eq_nil_or_concat' a with rfl | ⟨init, c, rfl⟩
  · rfl
  · have hc : isPieceChar c = false := ends c (by simp)
    have hstop {rest : List Char} : ∀ d ∈ (c :: rest).head?, isPieceChar d = false := by
      rintro d ⟨⟩
      exact hc
    rw [List.append_assoc, List.singleton_append, pieces_append hstop, pieces_append hstop,
      pieces_cons hc, List.append_assoc]

/-- A run of letters, digits and underscores, or any other single character that is no blank. -/
inductive IsPiece : String → Prop where
  | run {piece : String} : piece.toList ≠ [] → (∀ c ∈ piece.toList, isPieceChar c = true) →
      IsPiece piece
  | mark {c : Char} : isPieceChar c = false → Text.isBlank c = false →
      IsPiece (String.singleton c)

theorem isPiece_of_mem_endPiece {run : List Char} {done : List String}
    (hrun : ∀ c ∈ run, isPieceChar c = true) (hdone : ∀ piece ∈ done, IsPiece piece) :
    ∀ piece ∈ endPiece run done, IsPiece piece := by
  unfold endPiece
  split
  · exact hdone
  · rename_i hnonempty
    refine List.forall_mem_cons.mpr ⟨.run (by simpa using hnonempty) ?_, hdone⟩
    simpa using hrun

theorem isPiece_of_mem_piecesFrom {run : List Char} {done : List String}
    (hrun : ∀ c ∈ run, isPieceChar c = true) (hdone : ∀ piece ∈ done, IsPiece piece)
    (text : List Char) : ∀ piece ∈ piecesFrom run done text, IsPiece piece := by
  induction text generalizing run done with
  | nil =>
      intro piece hpiece
      exact isPiece_of_mem_endPiece hrun hdone piece (List.mem_reverse.mp hpiece)
  | cons c text ih =>
      have hend := isPiece_of_mem_endPiece hrun hdone
      rw [piecesFrom_cons]
      split
      · rename_i hc
        exact ih (List.forall_mem_cons.mpr ⟨hc, hrun⟩) hdone
      split
      · exact ih (by simp) hend
      · rename_i hc hblank
        exact ih (by simp) (List.forall_mem_cons.mpr
          ⟨.mark (by simpa using hc) (by simpa using hblank), hend⟩)

theorem isPiece_of_mem {text : List Char} {piece : String} (h : piece ∈ pieces text) :
    IsPiece piece :=
  isPiece_of_mem_piecesFrom (by simp) (by simp) text piece h

/-- A piece is found again in front of a text that does not go on with it. -/
theorem IsPiece.pieces_append {piece : String} (h : IsPiece piece) {rest : List Char}
    (stop : (∀ c ∈ piece.toList, isPieceChar c = true) →
      ∀ c ∈ rest.head?, isPieceChar c = false) :
    pieces (piece.toList ++ rest) = piece :: pieces rest := by
  cases h with
  | run nonempty hrun =>
      rw [pieces, piecesFrom_run hrun, piecesFrom_stop (stop hrun), piecesFrom_done]
      simp [endPiece, nonempty, pieces]
  | @mark c hpiece hblank =>
      rw [String.toList_singleton, List.singleton_append, pieces, piecesFrom_cons, hpiece, hblank]
      simp only [Bool.false_eq_true, ite_false]
      rw [piecesFrom_done]
      rfl

theorem pieces_renderAfter {previous : String} {list : List String}
    (h : ∀ piece ∈ list, IsPiece piece) :
    pieces (renderAfter previous list).toList = list ∧
      ((∀ c ∈ previous.toList, isPieceChar c = true) →
        ∀ c ∈ (renderAfter previous list).toList.head?, isPieceChar c = false) := by
  induction list generalizing previous with
  | nil => exact ⟨rfl, by simp [renderAfter]⟩
  | cons piece list ih =>
      obtain ⟨hpiece, hlist⟩ := List.forall_mem_cons.mp h
      obtain ⟨hrest, hstop⟩ := @ih piece hlist
      have hfront : pieces (piece.toList ++ (renderAfter piece list).toList) = piece :: list := by
        rw [hpiece.pieces_append hstop, hrest]
      rw [renderAfter, String.toList_append]
      split
      · rename_i hglue
        exact ⟨hfront, fun hrun => stop_of_gluesTo (by decide) hglue hrun _⟩
      · have hspace : (" " ++ piece).toList ++ (renderAfter piece list).toList =
            [' '] ++ (piece.toList ++ (renderAfter piece list).toList) := by
          simp
        rw [hspace]
        refine ⟨?_, ?_⟩
        · rw [pieces_blanks (by simp [Blanks, Text.isBlank]), hfront]
        · rintro - c ⟨⟩
          decide

/-- The pieces of a type are found again in its text. -/
theorem pieces_renderType {list : List String} (h : ∀ piece ∈ list, IsPiece piece) :
    pieces (renderType list).toList = list := by
  cases list with
  | nil => rfl
  | cons piece list =>
      obtain ⟨hpiece, hlist⟩ := List.forall_mem_cons.mp h
      obtain ⟨hrest, hstop⟩ := @pieces_renderAfter piece _ hlist
      rw [renderType, String.toList_append, hpiece.pieces_append hstop, hrest]

end LibSurvey.Line
