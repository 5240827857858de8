import LibSurvey.Proofs.Text.Spaced
import LibSurvey.Proofs.Text.Split
import Mathlib.Data.List.DropRight

/-!
The lines of a text, and what trimming them leaves. A plain line is one that no comment and no
backslash ties to another.
-/

namespace LibSurvey.Text

/-- No comment begins on this line, and neither it nor any part of it is joined to another. -/
structure PlainLine (line : List Char) : Prop where
  whole : '\n' ∉ line
  unjoined : '\\' ∉ line
  noLine : ¬['/', '/'] <:+: line
  noBlock : ¬['/', '*'] <:+: line

/-- No comment begins on this line. -/
structure Uncommented (line : List Char) : Prop where
  whole : '\n' ∉ line
  noLine : ¬['/', '/'] <:+: line
  noBlock : ¬['/', '*'] <:+: line

theorem Uncommented.part {part line : List Char} (h : Uncommented line) (hpart : part <:+: line) :
    Uncommented part :=
  ⟨fun hc => h.whole (hpart.subset hc), fun hc => h.noLine (hc.trans hpart),
    fun hc => h.noBlock (hc.trans hpart)⟩

theorem PlainLine.uncommented {line : List Char} (h : PlainLine line) : Uncommented line :=
  ⟨h.whole, h.noLine, h.noBlock⟩

theorem PlainLine.part {part line : List Char} (h : PlainLine line) (hpart : part <:+: line) :
    PlainLine part :=
  ⟨fun hc => h.whole (hpart.subset hc), fun hc => h.unjoined (hpart.subset hc),
    fun hc => h.noLine (hc.trans hpart), fun hc => h.noBlock (hc.trans hpart)⟩

theorem trim_append_blanks (text : List Char) {blanks : List Char} (h : Blanks blanks) :
    trim (text ++ blanks) = trim text := by
  have hleft : trimLeft (text ++ blanks) =
      if (trimLeft text).isEmpty then [] else trimLeft text ++ blanks := by
    have hblanks := trimLeft_blanks h
    simp only [trimLeft] at hblanks ⊢
    rw [List.dropWhile_append, hblanks]
    rfl
  rw [trim, hleft]
  split
  · rename_i hempty
    rw [trim, List.isEmpty_iff.mp hempty]
  · rw [trimRight_append_blanks h, trim]

theorem dropLastWhile_append_end (p : Char → Bool) (text : List Char) :
    ∃ tail, (∀ c ∈ tail, p c = true) ∧ dropLastWhile p text ++ tail = text :=
  ⟨text.rtakeWhile p, fun _ => List.mem_rtakeWhile_imp, List.rdropWhile_append_rtakeWhile⟩

theorem exists_trimLeft (text : List Char) :
    ∃ blanks, Blanks blanks ∧ text = blanks ++ trimLeft text :=
  ⟨text.takeWhile isBlank, List.all_eq_true.mp List.all_takeWhile,
    List.takeWhile_append_dropWhile.symm⟩

theorem trimRight_append_end (text : List Char) :
    ∃ blanks, Blanks blanks ∧ trimRight text ++ blanks = text :=
  dropLastWhile_append_end isBlank text

theorem trim_trimRight (text : List Char) : trim (trimRight text) = trim text := by
  obtain ⟨blanks, hblanks, htext⟩ := trimRight_append_end text
  rw [← trim_append_blanks (trimRight text) hblanks, htext]

theorem trimRight_trimRight (text : List Char) : trimRight (trimRight text) = trimRight text :=
  List.rdropWhile_idempotent isBlank text

/-- What ends without a blank does so however much of it is left. -/
theorem trimRight_suffix {text rest : List Char} (h : trimRight text = text)
    (hrest : rest <:+ text) : trimRight rest = rest := by
  refine List.rdropWhile_eq_self_iff.mpr fun hnonempty => ?_
  rw [hrest.getLast hnonempty]
  exact List.rdropWhile_eq_self_iff.mp h _

theorem trim_eq_trimLeft {text : List Char} (h : trimRight text = text) :
    trim text = trimLeft text :=
  trimRight_suffix h (List.dropWhile_suffix isBlank)

theorem trimLeft_trimRight (text : List Char) : trimLeft (trimRight text) = trim text := by
  rw [← trim_eq_trimLeft (trimRight_trimRight text), trim_trimRight]

theorem trimRight_trim (text : List Char) : trimRight (trim text) = trim text :=
  trimRight_trimRight (trimLeft text)

theorem trimLeft_trimLeft (text : List Char) : trimLeft (trimLeft text) = trimLeft text :=
  List.dropWhile_idempotent isBlank text

theorem trim_trim (text : List Char) : trim (trim text) = trim text := by
  rw [trim_eq_trimLeft (trimRight_trim text), ← trimLeft_trimRight, trimLeft_trimLeft]

theorem blanks_of_trim {text : List Char} (h : trim text = []) : Blanks text := by
  have hleft : Blanks (trimLeft text) := List.rdropWhile_eq_nil_iff.mp h
  have hfront : Blanks (text.takeWhile isBlank) := List.all_eq_true.mp List.all_takeWhile
  have := blanks_append hfront hleft
  rwa [trimLeft, List.takeWhile_append_dropWhile] at this

theorem trim_blanks_append {s : List Char} (h : Blanks s) (t : List Char) :
    trim (s ++ t) = trim t := by
  rw [trim, trimLeft_blanks_append h, trim]

theorem trimLeft_append {s : List Char} (h : ¬Blanks s) (t : List Char) :
    trimLeft (s ++ t) = trimLeft s ++ t := by
  have hleft : (s.dropWhile isBlank).isEmpty = false := by
    refine Bool.eq_false_iff.mpr fun hempty => h fun c hc => ?_
    exact List.dropWhile_eq_nil_iff.mp (List.isEmpty_iff.mp hempty) c hc
  rw [trimLeft, List.dropWhile_append, hleft]
  rfl

theorem trimRight_append_solid (s : List Char) {t : List Char} (h : ¬Blanks t) :
    trimRight (s ++ t) = s ++ trimRight t := by
  have hreverse : ¬Blanks t.reverse := fun hblanks => h fun c hc => hblanks c (by simpa using hc)
  have hleft := congrArg List.reverse (trimLeft_append hreverse s.reverse)
  simpa [trimRight, dropLastWhile, trimLeft] using hleft

theorem not_blanks_trimLeft {s : List Char} (h : ¬Blanks s) : ¬Blanks (trimLeft s) := by
  intro hblanks
  have hfront : Blanks (s.takeWhile isBlank) := List.all_eq_true.mp List.all_takeWhile
  have hwhole := blanks_append hfront hblanks
  rw [trimLeft, List.takeWhile_append_dropWhile] at hwhole
  exact h hwhole

/-- Trimming takes nothing from the inner ends of two texts that are not blank. -/
theorem trim_append {s t : List Char} (hs : ¬Blanks s) (ht : ¬Blanks t) :
    trim (s ++ t) = trimLeft s ++ trimRight t := by
  rw [trim, trimLeft_append hs, trimRight_append_solid _ ht]

theorem exists_trim (text : List Char) : ∃ before after, Blanks before ∧ Blanks after ∧
    text = before ++ (trim text ++ after) := by
  obtain ⟨after, hafter, htext⟩ := trimRight_append_end (trimLeft text)
  refine ⟨text.takeWhile isBlank, after, List.all_eq_true.mp List.all_takeWhile, hafter, ?_⟩
  rw [trim, htext, trimLeft, List.takeWhile_append_dropWhile]

theorem trimRight_cons {c : Char} (h : isBlank c = false) (text : List Char) :
    trimRight (c :: text) = c :: trimRight text := by
  have htight : Tight [c] := tight_of_solid (by simp) (by simpa using h)
  exact trimRight_append htight [] text

theorem dropReturn_append_end (line : List Char) :
    ∃ blanks, Blanks blanks ∧ dropReturn line ++ blanks = line := by
  rw [dropReturn]
  split
  · rename_i h
    exact ⟨['\r'], by simp [Blanks, isBlank], List.dropLast_append_getLast? '\r' h⟩
  · exact ⟨[], by simp [Blanks], List.append_nil line⟩

theorem trim_dropReturn (line : List Char) : trim (dropReturn line) = trim line := by
  obtain ⟨blanks, hblanks, hline⟩ := dropReturn_append_end line
  rw [← trim_append_blanks (dropReturn line) hblanks, hline]

theorem lines_intercalate {init : List (List Char)} {last : List Char}
    (free : ∀ line ∈ init ++ [last], '\n' ∉ line) :
    lines (['\n'].intercalate (init ++ [last])) =
      init.map dropReturn ++ if last.isEmpty then [] else [last] := by
  have hsplit : splitAt (· = '\n') (['\n'].intercalate (init ++ [last])) = init ++ [last] := by
    refine splitAt_intercalate rfl (by simp) fun line hline c hc => ?_
    exact decide_eq_false fun h => free line hline (h ▸ hc)
  rw [lines, hsplit]
  simp

end LibSurvey.Text
