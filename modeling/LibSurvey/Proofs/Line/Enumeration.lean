import LibSurvey.Header.Line.Scan
import LibSurvey.Proofs.Declarations.Enumerators
import LibSurvey.Proofs.Line.Lines
import LibSurvey.Proofs.Line.Prototype
import LibSurvey.Proofs.Token.Laid
import Mathlib.Data.List.Chain

/-!
Enumerations read from a line. An entry with an annotation is left out, since what stands before its
equals sign is no name, and a brace among its arguments takes everything behind it away. The entries
without annotations are read with their expressions.
-/

namespace LibSurvey.Enumeration
open Expression (Tree)

theorem reads_nothing (follows : Bool) (entries : List Entry) : Reads follows entries [] := by
  induction entries generalizing follows with
  | nil => exact .nil
  | cons entry rest ih => exact .dropped (ih false)

/-- No entry counts on from one with an annotation. -/
def Steady (entries : List Entry) : Prop :=
  entries.IsChain fun entry next =>
    entry.annotations ≠ [] → next.annotations = [] → next.value.isSome

/-- What is read where annotated entries are left out is read from all of them, if none counts on from
such an entry. -/
theorem reads_steady {entries : List Entry} (steady : Steady entries) {items : List Enumerator}
    {follows counts : Bool} (first : counts = true → follows = false →
      ∀ entry ∈ entries.head?, entry.annotations = [] → entry.value.isSome)
    (h : Reads counts (entries.filter (·.annotations.isEmpty)) items) :
    Reads follows entries items := by
  induction entries generalizing follows counts items with
  | nil =>
      cases h with
      | nil => exact .nil
  | cons entry rest ih =>
      obtain ⟨hnext, hrest⟩ := List.isChain_cons.mp steady
      by_cases bare : entry.annotations = []
      · rw [List.filter_cons_of_pos (by simp [bare])] at h
        cases h with
        | counted implicit h =>
            cases follows with
            | false => exact absurd (first rfl rfl entry rfl bare) (by simp [implicit])
            | true => exact .counted implicit (ih hrest (by simp) h)
        | valued explicit formed spelled h =>
            exact .valued explicit formed spelled (ih hrest (by simp) h)
        | dropped h => exact .dropped (ih hrest (by simp) h)
      · rw [List.filter_cons_of_neg (by simpa using bare)] at h
        exact .dropped (ih hrest (fun _ _ next hmem => hnext next hmem bare) h)

/-- A character of no name and no mark stands among the arguments of annotations or nowhere. -/
theorem not_mem_entry {entry : Entry} (formed : entry.Formed) {c : Char}
    (unnamed : isNameChar c = false) (solid : Text.isBlank c = false)
    (unmarked : ∀ mark ∈ entryMarks, c ∉ mark.toList)
    (noise : ∀ remark ∈ entry.annotations, ∀ inner ∈ remark.arguments,
      ∀ lexeme ∈ inner, c ∉ lexeme.text.toList) {x : List Char}
    (laid : Token.Laid entry.lexemes x) : c ∉ x := by
  refine Text.not_mem_spaced (Token.spaced_of_laid laid) solid (List.forall_mem_map.mpr ?_)
  refine forall_entry formed (fun text literal lexeme hlexeme hc => ?_) (fun text hname hc => ?_)
    (fun mark hmark => unmarked mark ?_) noise
  · rcases Literal.chars_of_ofChars? literal (Tree.mem_literalLexemes hlexeme hc) with
      rfl | rfl | hblank | hbody
    · exact unmarked "-" (by decide) (by decide)
    · exact unmarked "+" (by decide) (by decide)
    · rw [hblank] at solid
      cases solid
    · rw [Literal.isNameChar_of_isBody hbody] at unnamed
      cases unnamed
  · rw [isNameChar_of_isName hname hc] at unnamed
    cases unnamed
  · rcases List.mem_cons.mp hmark with rfl | hmark
    · decide
    · exact List.mem_append_left _ hmark

theorem comma_free {entry : Entry} (formed : entry.Formed) {x : List Char}
    (laid : Token.Laid entry.lexemes x) : ',' ∉ x :=
  not_mem_entry formed (by decide) (by decide) (by decide)
    (fun remark hremark inner hinner lexeme hlexeme =>
      ((formed.annotations remark hremark).plain inner hinner lexeme hlexeme).2) laid

theorem brace_free {entry : Entry} (formed : entry.Formed) (bare : entry.annotations = [])
    {x : List Char} (laid : Token.Laid entry.lexemes x) : '\x7d' ∉ x :=
  not_mem_entry formed (by decide) (by decide) (by decide) (by simp [bare]) laid

end LibSurvey.Enumeration

namespace LibSurvey.Line
open Enumeration (Remark Entry Reads)
open Expression (spelling)
open Token (Laid)

variable {x : List Char}

theorem enumerator?_bare {name : String} (hname : isName name.toList = true)
    (laid : Laid [.word name] x) : enumerator? x = some ⟨name, none⟩ := by
  have hequals : '=' ∉ x := Text.not_mem_spaced (Token.spaced_of_laid laid) (by decide)
    (by simpa [Lexeme.word] using fun hc => absurd (isNameChar_of_isName hname hc) (by decide))
  have hbefore : ∀ c ∈ x, (c != '=') = true := fun c hc => bne_iff_ne.mpr fun h => hequals (h ▸ hc)
  have htrim : Text.trim x = name.toList :=
    Text.trim_spaced_singleton (tight_of_isName hname) (Token.spaced_of_laid laid)
  rw [enumerator?, List.takeWhile_eq_self_iff.mpr hbefore, List.dropWhile_eq_nil_iff.mpr hbefore,
    htrim, if_pos hname, String.ofList_toList]

theorem enumerator?_valued {name : String} (hname : isName name.toList = true)
    {lexemes : List Lexeme} (tight : ∀ lexeme ∈ lexemes, Text.Tight lexeme.text.toList)
    (laid : Laid (.word name :: .mark "=" :: lexemes) x) :
    ∃ expression : String, enumerator? x = some ⟨name, some expression⟩ ∧
      Text.Spaced (spelling lexemes) expression.toList := by
  obtain ⟨before, value, rfl, hname', hvalue⟩ := Token.laid_cons_split (a := [.word name]) laid
  have hspaced : Text.Spaced [name.toList] before := Token.spaced_of_laid hname'
  have hequals : '=' ∉ before := Text.not_mem_spaced hspaced (by decide)
    (by simpa using fun hc => absurd (isNameChar_of_isName hname hc) (by decide))
  have hbefore : ∀ c ∈ before, (c != '=') = true :=
    fun c hc => bne_iff_ne.mpr fun h => hequals (h ▸ hc)
  have hstop : ∀ c ∈ ('=' :: value).head?, (c != '=') = false := by simp
  have hparts : before ++ ((Lexeme.mark "=").text.toList ++ value) = before ++ '=' :: value := rfl
  refine ⟨String.ofList (Text.trim value), ?_, ?_⟩
  · rw [enumerator?, hparts, Text.takeWhile_front hbefore hstop, Text.dropWhile_front hbefore hstop,
      Text.trim_spaced_singleton (tight_of_isName hname) hspaced, if_pos hname, String.ofList_toList]
  · rw [String.toList_ofList]
    exact Text.spaced_trim (List.forall_mem_map.mpr tight) (Token.spaced_of_laid hvalue)

/-- Two words with blanks between them are no name, whatever follows them. -/
theorem enumerator?_words {name word : String} (hname : isName name.toList = true)
    (hword : isName word.toList = true) {gap between : List Char} (hgap : Lexeme.Gap gap)
    (hbetween : Lexeme.Gap between) (nonempty : between ≠ []) (after : List Char) :
    enumerator? ((gap ++ (name.toList ++ (between ++ (word.toList ++ after)))).takeWhile
      (· != '\x7d')) = none := by
  have hchars : ∀ c ∈ gap ++ name.toList ++ between ++ word.toList,
      Text.isBlank c = true ∨ isNameChar c = true := by
    intro c hc
    simp only [List.mem_append] at hc
    rcases hc with ((hc | hc) | hc) | hc
    · exact .inl (hgap c hc).1
    · exact .inr (isNameChar_of_isName hname hc)
    · exact .inl (hbetween c hc).1
    · exact .inr (isNameChar_of_isName hword hc)
  have apart {d : Char} (hd : ¬(Text.isBlank d = true ∨ isNameChar d = true)) :
      ∀ c ∈ gap ++ name.toList ++ between ++ word.toList, (c != d) = true :=
    fun c hc => bne_iff_ne.mpr fun h => hd (h ▸ hchars c hc)
  have htrim (tail : List Char) :
      Text.trim (gap ++ name.toList ++ between ++ word.toList ++ tail) =
        name.toList ++ between ++ word.toList ++ Text.trimRight tail := by
    rw [Text.trim, List.append_assoc, List.append_assoc, List.append_assoc,
      Text.trimLeft_blanks_append fun c hc => (hgap c hc).1,
      Text.trimLeft_tight_append (tight_of_isName hname), ← List.append_assoc, ← List.append_assoc,
      Text.trimRight_append (tight_of_isName hword)]
  obtain ⟨c, blanks, rfl⟩ := List.exists_cons_of_ne_nil nonempty
  rw [← List.append_assoc, ← List.append_assoc, ← List.append_assoc, enumerator?,
    List.takeWhile_append_of_pos (apart (by decide)),
    List.takeWhile_append_of_pos (apart (by decide)), htrim, if_neg]
  intro htext
  have hc := isNameChar_of_isName htext (c := c) (by simp)
  rw [Token.isNameChar_of_isBlank (hbetween c List.mem_cons_self).1] at hc
  cases hc

theorem enumerator?_annotated {entry : Entry} (formed : entry.Formed)
    (annotated : entry.annotations ≠ []) (laid : Laid entry.lexemes x) :
    enumerator? (x.takeWhile (· != '\x7d')) = none := by
  obtain ⟨name, annotations, value⟩ := entry
  obtain ⟨⟨word, arguments⟩, others, rfl⟩ := List.exists_cons_of_ne_nil annotated
  have hname : isName name.toList = true := formed.name
  have hword : isName word.toList = true := (formed.annotations _ List.mem_cons_self).name
  cases laid with
  | cons hgap parted hrest =>
      have hstops := parted.stops (tight_of_isName hname).nonempty
        fun c => isNameChar_of_isName hname
      obtain ⟨between, after, rfl, nonempty, hbetween, -, -⟩ := Token.laid_word hword hrest hstops
      exact enumerator?_words hname hword hgap hbetween nonempty after

theorem enumerators_free (free : ',' ∉ x) : enumerators x = (enumerator? x).toList := by
  rw [enumerators, Text.splitAt_free free, List.filterMap_cons]
  cases enumerator? x <;> rfl

theorem enumerators_append (free : ',' ∉ x) (rest : List Char) :
    enumerators (x ++ ',' :: rest) = (enumerator? x).toList ++ enumerators rest := by
  rw [enumerators, Text.splitAt_append free, List.filterMap_cons]
  cases enumerator? x <;> rfl

theorem reads_bare {entry : Entry} (formed : entry.Formed) (bare : entry.annotations = [])
    (laid : Laid entry.lexemes x) {rest : List Entry} {items : List Enumerator}
    (reads : Reads true rest items) :
    Reads true (entry :: rest) ((enumerator? x).toList ++ items) := by
  obtain ⟨name, annotations, value⟩ := entry
  obtain rfl : annotations = [] := bare
  cases value with
  | none =>
      rw [enumerator?_bare formed.name laid]
      exact .counted rfl reads
  | some tree =>
      have htree := formed.value tree rfl
      obtain ⟨expression, hitem, hspaced⟩ :=
        enumerator?_valued formed.name (Expression.Tree.tight_lexemes htree) laid
      rw [hitem]
      exact .valued rfl htree hspaced reads

/-- The entry at the front is read if it has no annotation, and left out if it has one. -/
theorem reads_entry {entry : Entry} (formed : entry.Formed) (laid : Laid entry.lexemes x)
    {rest : List Entry} {items : List Enumerator}
    (reads : Reads true (rest.filter (·.annotations.isEmpty)) items) :
    Reads true ((entry :: rest).filter (·.annotations.isEmpty))
      ((enumerator? (x.takeWhile (· != '\x7d'))).toList ++ items) := by
  by_cases bare : entry.annotations = []
  · have hbrace : ∀ c ∈ x, (c != '\x7d') = true :=
      fun c hc => bne_iff_ne.mpr fun h => Enumeration.brace_free formed bare laid (h ▸ hc)
    rw [List.filter_cons_of_pos (by simp [bare]), List.takeWhile_eq_self_iff.mpr hbrace]
    exact reads_bare formed bare laid reads
  · rw [List.filter_cons_of_neg (by simpa using bare), enumerator?_annotated formed bare laid]
    exact reads

/-- The entries without annotations are read one by one. A brace among the arguments of an annotation
ends the body, and with it all that follows. -/
theorem reads_enumerators {entries : List Entry} {texts : List (List Char)}
    (laid : List.Forall₂ (fun entry x => Laid entry.lexemes x) entries texts)
    (formed : ∀ entry ∈ entries, entry.Formed) (after : List Char) :
    Reads true (entries.filter (·.annotations.isEmpty))
      (enumerators (([','].intercalate texts ++ '\x7d' :: after).takeWhile (· != '\x7d'))) := by
  induction laid with
  | nil => exact .nil
  | @cons entry x rest texts hx hrest ih =>
      rw [List.forall_mem_cons] at formed
      have hcomma := Enumeration.comma_free formed.1 hx
      have hothers := ih formed.2
      by_cases hwhole : x.takeWhile (· != '\x7d') = x
      · have hinside := List.takeWhile_eq_self_iff.mp hwhole
        cases hrest with
        | nil =>
            rw [List.intercalate_singleton, Text.takeWhile_front hinside (by simp),
              enumerators_free hcomma, ← List.append_nil (enumerator? x).toList, ← hwhole]
            exact reads_entry formed.1 hx .nil
        | @cons next y rest texts hy hmore =>
            rw [List.intercalate_cons_cons, List.append_assoc, List.append_assoc,
              List.takeWhile_append_of_pos hinside, List.singleton_append,
              List.takeWhile_cons_of_pos (by decide), enumerators_append hcomma, ← hwhole]
            exact reads_entry formed.1 hx hothers
      · obtain ⟨more, hmore⟩ : ∃ more, [','].intercalate (x :: texts) = x ++ more := by
          cases texts with
          | nil => exact ⟨[], by simp⟩
          | cons y texts => exact ⟨_, by rw [List.intercalate_cons_cons, List.append_assoc]⟩
        have hshort : ¬(x.takeWhile (· != '\x7d')).length = x.length := fun h =>
          hwhole ((List.takeWhile_prefix _).eq_of_length h)
        have hfree : ',' ∉ x.takeWhile (· != '\x7d') := fun h =>
          hcomma ((List.takeWhile_prefix _).mem h)
        rw [hmore, List.append_assoc, List.takeWhile_append, if_neg hshort, enumerators_free hfree,
          ← List.append_nil (Option.toList _)]
        exact reads_entry formed.1 hx (Enumeration.reads_nothing true _)

theorem enumBody?_enum {before : List Char} (free : '\x7b' ∉ before)
    (stop : ∀ c ∈ before.head?, Text.isWordChar c = false) (body after : List Char) :
    enumBody? ("enum".toList ++ (before ++ '\x7b' :: (body ++ '\x7d' :: after))) =
      some ((body ++ '\x7d' :: after).takeWhile (· != '\x7d')) := by
  have hafter (rest : List Char) : afterEnum? ("enum".toList ++ (before ++ '\x7b' :: rest)) =
      some (before ++ '\x7b' :: rest) := by
    have hleft : Text.trimLeft ("enum".toList ++ (before ++ '\x7b' :: rest)) =
        "enum".toList ++ (before ++ '\x7b' :: rest) := rfl
    have hother : after? "typedef".toList ("enum".toList ++ (before ++ '\x7b' :: rest)) = none := rfl
    have hstop : ((before ++ '\x7b' :: rest).head?.map Text.isWordChar).getD false = false := by
      cases before with
      | nil => exact show Text.isWordChar '\x7b' = false by decide
      | cons c before => exact stop c rfl
    rw [afterEnum?, hleft, hother]
    simp only [Option.bind_eq_bind, Option.bind_none, Option.getD_none, after?_append, hstop]
    rfl
  have hbefore : ∀ c ∈ before, (c != '\x7b') = true :=
    fun c hc => bne_iff_ne.mpr fun h => free (h ▸ hc)
  rw [enumBody?, hafter, Option.bind_eq_bind, Option.bind_some,
    Text.dropWhile_front hbefore (by simp)]
  simp

/-- A blank stands after `enum` or nothing does. -/
theorem stop_tag {tag : Option String} (tagged : ∀ name ∈ tag, isName name.toList = true)
    (laid : Laid (tag.toList.map Lexeme.word) x) (stops : ∀ c ∈ x.head?, isNameChar c = false) :
    '\x7b' ∉ x ∧ ∀ c ∈ x.head?, Text.isWordChar c = false := by
  constructor
  · refine Text.not_mem_spaced (Token.spaced_of_laid laid) (by decide) (List.forall_mem_map.mpr ?_)
    refine List.forall_mem_map.mpr fun name hname hc => ?_
    exact absurd (isNameChar_of_isName (tagged name (Option.mem_toList.mp hname)) hc) (by decide)
  · intro c hc
    refine isWordChar_of_isBlank ?_
    cases tag with
    | none =>
        cases laid with
        | nil hgap => exact (hgap c (List.mem_of_mem_head? hc)).1
    | some name =>
        obtain ⟨gap, rest, rfl, nonempty, hgap, -, -⟩ := Token.laid_word (tagged name rfl) laid stops
        obtain ⟨d, gap, rfl⟩ := List.exists_cons_of_ne_nil nonempty
        obtain rfl : d = c := by simpa using hc
        exact (hgap d List.mem_cons_self).1

/-- A line that ends with a semicolon goes on in no other one. -/
theorem trim_ended {c : Char} (solid : Text.isBlank c = false) {gap blanks : List Char}
    (hgap : Lexeme.Gap gap) (hblanks : Lexeme.Gap blanks) (front : List Char) :
    Text.trim (gap ++ (c :: (front ++ [';']) ++ blanks)) = c :: (front ++ [';']) ∧
      (Text.trimRight (gap ++ (c :: (front ++ [';']) ++ blanks))).getLast? ≠ some '\\' := by
  have hend : Text.Tight [';'] := Text.tight_of_solid (by simp) (by decide)
  have hright : Text.trimRight (gap ++ (c :: (front ++ [';']) ++ blanks)) =
      gap ++ c :: (front ++ [';']) := by
    rw [← List.append_assoc, Text.trimRight_append_blanks fun c hc => (hblanks c hc).1,
      ← List.cons_append, ← List.append_assoc, Text.trimRight_append_tight hend]
  refine ⟨?_, ?_⟩
  · rw [← Text.trimLeft_trimRight, hright, Text.trimLeft_blanks_append fun c hc => (hgap c hc).1]
    simp [Text.trimLeft, solid]
  · rw [hright, ← List.cons_append, ← List.append_assoc, List.getLast?_concat]
    decide

/-- Where the braces of an enumeration stand on its line. -/
theorem parts_of_laid {tag : Option String} {entries : List Entry} {line : List Char}
    (laid : Laid (Enumeration.lexemes tag entries) line)
    (tagged : ∀ name ∈ tag, isName name.toList = true) (nonempty : entries ≠ []) :
    ∃ gap before texts after blanks,
      line = gap ++ ("enum".toList ++
        (before ++ '\x7b' :: ([','].intercalate texts ++ '\x7d' :: (after ++ [';']))) ++ blanks) ∧
      Lexeme.Gap gap ∧ Lexeme.Gap blanks ∧ '\x7b' ∉ before ∧
      (∀ c ∈ before.head?, Text.isWordChar c = false) ∧
      List.Forall₂ (fun entry x => Laid entry.lexemes x) entries texts := by
  rw [Enumeration.lexemes] at laid
  cases laid with
  | @cons gap _ _ rest hgap parted hrest =>
      have hword : isName "enum".toList = true := by decide
      have hstops := parted.stops (tight_of_isName hword).nonempty
        fun c => isNameChar_of_isName hword
      obtain ⟨before, more, rfl, htag, hmore⟩ := Token.laid_cons_split hrest
      obtain ⟨body, close, rfl, hbody, hclose⟩ := Token.laid_cons_split hmore
      obtain ⟨texts, hall, rfl⟩ := Token.laid_intercalate_split nonempty hbody
      obtain ⟨after, blanks, rfl, -, hblanks⟩ := Token.laid_cons_split (a := []) hclose
      have hbefore := stop_tag tagged htag fun c hc => hstops c (by
        cases before with
        | nil => cases hc
        | cons d before => exact hc)
      refine ⟨gap, before, texts, after, blanks, by simp [Lexeme.word, Lexeme.mark], hgap, ?_,
        hbefore.1, hbefore.2, hall⟩
      cases hblanks with
      | nil hblanks => exact hblanks

/-- A line with such an enumeration declares it alone, and reads its entries without annotations. -/
theorem scan_enumeration (annotations : Annotations) {tag : Option String} {entries : List Entry}
    {line : List Char} (laid : Laid (Enumeration.lexemes tag entries) line)
    (uncommented : Text.Uncommented line) (tagged : ∀ name ∈ tag, isName name.toList = true)
    (nonempty : entries ≠ []) (formed : ∀ entry ∈ entries, entry.Formed) :
    ∃ items, scan annotations line = [.enumeration items] ∧
      Reads true (entries.filter (·.annotations.isEmpty)) items := by
  obtain ⟨gap, before, texts, after, blanks, rfl, hgap, hblanks, hbrace, hstop, hall⟩ :=
    parts_of_laid laid tagged nonempty
  have hbody := enumBody?_enum hbrace hstop ([','].intercalate texts) (after ++ [';'])
  generalize htext : "enum".toList ++ (before ++ '\x7b' :: ([','].intercalate texts ++
    '\x7d' :: (after ++ [';']))) = text at hbody uncommented
  obtain ⟨front, rfl⟩ : ∃ front, text = 'e' :: (front ++ [';']) :=
    ⟨"num".toList ++ (before ++ '\x7b' :: ([','].intercalate texts ++ '\x7d' :: after)),
      by simp [← htext]⟩
  obtain ⟨htrim, hlast⟩ := trim_ended (show Text.isBlank 'e' = false by decide) hgap hblanks front
  have nonblank : Text.trim (gap ++ ('e' :: (front ++ [';']) ++ blanks)) ≠ [] := by
    rw [htrim]
    exact List.cons_ne_nil _ _
  have hdirective : isDirective ('e' :: (front ++ [';'])) = false := rfl
  refine ⟨_, ?_, reads_enumerators hall formed (after ++ [';'])⟩
  rw [scan, logical_whole uncommented hlast nonblank, htrim, scanFrom, hdirective, hbody]
  simp only [Bool.false_eq_true, if_false, scanFrom, List.reverse_singleton]

end LibSurvey.Line
