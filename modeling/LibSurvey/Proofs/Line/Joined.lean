import LibSurvey.Header.Line.Scan
import LibSurvey.Proofs.Line.Words
import LibSurvey.Proofs.Text.Reflow

/-!
Which lines are joined. A line without a brace is no enumeration, and it takes up the lines after it
as long as more parentheses open than close.
-/

namespace LibSurvey.Line
open Text (Blanks Reflow)

theorem afterEnum?_suffix {line rest : List Char} (h : afterEnum? line = some rest) :
    rest <:+ line := by
  have after {start text rest : List Char} (h : after? start text = some rest) : rest <:+ text :=
    eq_append_of_after? h ▸ List.suffix_append start rest
  have blanks {text rest : List Char} (h : afterBlanks? text = some rest) : rest <:+ text := by
    cases text with
    | nil => cases h
    | cons c text =>
        rw [afterBlanks?] at h
        split at h
        · cases h
          exact (List.dropWhile_suffix _).trans (List.suffix_cons c text)
        · cases h
  have htypedef : ((after? "typedef".toList (Text.trimLeft line)).bind afterBlanks?).getD
      (Text.trimLeft line) <:+ line := by
    cases hafter : (after? "typedef".toList (Text.trimLeft line)).bind afterBlanks? with
    | none => exact List.dropWhile_suffix _
    | some rest =>
        obtain ⟨text, htext, hrest⟩ := Option.bind_eq_some_iff.mp hafter
        exact (blanks hrest).trans ((after htext).trans (List.dropWhile_suffix _))
  rw [afterEnum?] at h
  simp only [Option.bind_eq_bind] at h
  split at h
  · rename_i henum
    split at h
    · cases h
    · cases h
      exact (after henum).trans htypedef
  · cases h

theorem enumBody?_free {line : List Char} (h : '\x7b' ∉ line) : enumBody? line = none := by
  cases hafter : afterEnum? line with
  | none => rw [enumBody?, hafter]; rfl
  | some rest =>
      have hnil : rest.dropWhile (· != '\x7b') = [] := by
        refine List.dropWhile_eq_nil_iff.mpr fun c hc => bne_iff_ne.mpr ?_
        rintro rfl
        exact h ((afterEnum?_suffix hafter).mem hc)
      rw [enumBody?, hafter]
      simp [hnil]

theorem joinOpen_balanced {joined : List Char} (h : balance joined ≤ 0) (extra : Nat)
    (rest : List (List Char)) : joinOpen joined extra rest = (joined, rest) := by
  have hopen : ¬0 < balance joined := by omega
  unfold joinOpen
  split
  · simp [hopen]
  · rfl

theorem joinOpen_all {joined : List Char} {extra : Nat} {rest : List (List Char)}
    (room : rest.length ≤ extra) (plain : ∀ line ∈ rest, isDirective line = false)
    (stays : ∀ init line tail, rest = init ++ line :: tail →
      0 < balance ([' '].intercalate (joined :: init))) :
    joinOpen joined extra rest = ([' '].intercalate (joined :: rest), []) := by
  induction rest generalizing joined extra with
  | nil => simp [joinOpen]
  | cons next rest ih =>
      obtain ⟨extra, rfl⟩ : ∃ more, extra = more + 1 :=
        Nat.exists_eq_add_one_of_ne_zero (by simp only [List.length_cons] at room; omega)
      obtain ⟨hnext, hrest⟩ := List.forall_mem_cons.mp plain
      have hopen : 0 < balance joined := by simpa using stays [] next rest rfl
      have hcons (tail : List (List Char)) :
          [' '].intercalate ((joined ++ ' ' :: next) :: tail) =
            [' '].intercalate (joined :: next :: tail) := by
        cases tail <;> simp [List.intercalate_cons_cons]
      rw [joinOpen, if_pos (by simp [hopen, hnext]), ih (by simpa using room) hrest, hcons]
      rintro init line tail rfl
      rw [hcons]
      exact stays (next :: init) line tail rfl

theorem balance_reflow {a b : List Char} (h : Reflow a b) : balance a = balance b := by
  rw [balance, balance, h.count (by decide), h.count (by decide)]

theorem balance_blanks {text : List Char} (h : Blanks text) : balance text = 0 := by
  rw [balance, Text.count_blanks h (by decide), Text.count_blanks h (by decide)]
  rfl

theorem balance_append (a b : List Char) : balance (a ++ b) = balance a + balance b := by
  simp only [balance, List.count_append]
  omega

theorem balance_trim (text : List Char) : balance (Text.trim text) = balance text := by
  obtain ⟨before, after, hbefore, hafter, htext⟩ := Text.exists_trim text
  have := congrArg balance htext
  rw [balance_append, balance_append, balance_blanks hbefore, balance_blanks hafter] at this
  omega

end LibSurvey.Line
