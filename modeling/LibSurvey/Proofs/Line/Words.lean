import LibSurvey.Header.Line.Word
import LibSurvey.Proofs.Text.Front
import LibSurvey.Proofs.Word

/-!
Words and fixed starts of a line. A name of ASCII letters is a word wherever no word character follows
it, and blanks are no word characters.
-/

namespace LibSurvey.Line

theorem after?_append (start rest : List Char) : after? start (start ++ rest) = some rest := by
  induction start with
  | nil => rfl
  | cons c start ih => simpa [after?] using ih

theorem eq_append_of_after? {start text rest : List Char} (h : after? start text = some rest) :
    text = start ++ rest := by
  induction start generalizing text with
  | nil => simpa [after?] using h
  | cons c start ih =>
      cases text with
      | nil => exact absurd h (by simp [after?])
      | cons d text =>
          rw [after?] at h
          split at h
          · rename_i hc
            rw [hc, ih h, List.cons_append]
          · exact absurd h (by simp)

theorem afterBlanks?_eq_none {text : List Char} (h : ∀ c ∈ text.head?, Text.isBlank c = false) :
    afterBlanks? text = none := by
  cases text with
  | nil => rfl
  | cons c text => simp [afterBlanks?, h c rfl]

theorem isWordChar_of_isNameChar {c : Char} (h : isNameChar c = true) :
    Text.isWordChar c = true := by
  have hrange := toNat_of_isNameChar h
  have hascii : c.toNat < 0x80 := by omega
  rw [Text.isWordChar, if_pos hascii]
  exact h

/-- The code points of the blanks. -/
def blankCodes : List Nat :=
  List.range' 9 5 ++ [0x20, 0x85, 0xa0, 0x1680] ++ List.range' 0x2000 11 ++
    [0x2028, 0x2029, 0x202f, 0x205f, 0x3000]

theorem mem_blankCodes {c : Char} (h : Text.isBlank c = true) : c.toNat ∈ blankCodes := by
  simp only [Text.isBlank, Bool.or_eq_true, Bool.and_eq_true, decide_eq_true_eq] at h
  simp only [blankCodes, List.mem_append, List.mem_cons, List.not_mem_nil, or_false,
    List.mem_range'_1]
  rcases h with (((((((((h | h) | h) | h) | h) | h) | h) | h) | h) | h) | h
  all_goals omega

theorem isWordChar_of_isBlank {c : Char} (h : Text.isBlank c = true) :
    Text.isWordChar c = false := by
  have hcodes : ∀ code ∈ blankCodes, Text.isWordChar (Char.ofNat code) = false := by
    decide +kernel
  simpa using hcodes c.toNat (mem_blankCodes h)

theorem word?_name {name rest : List Char} (hname : isName name = true)
    (stop : ∀ c ∈ rest.head?, Text.isWordChar c = false) :
    word? (name ++ rest) = some (name, rest) := by
  cases name with
  | nil => exact absurd hname (by decide)
  | cons c name =>
      rw [isName, Bool.and_eq_true, List.all_eq_true] at hname
      have hstart : Text.isWordStart c = true := hname.1
      have hname : ∀ d ∈ name, Text.isWordChar d = true :=
        fun d hd => isWordChar_of_isNameChar (hname.2 d hd)
      rw [List.cons_append, word?, if_pos hstart, Text.takeWhile_front hname stop,
        Text.dropWhile_front hname stop]

end LibSurvey.Line
