import LibSurvey.Proofs.Line.Enumeration
import LibSurvey.Proofs.Text.Utf8

/-!
The constants of an enumeration on one line, read by its tokens and as a line. Each entry has its own
value or none wherever annotations do not mislead: behind one the tokens of an expression are passed
over, and a line leaves out its entry, from which the next one may count on.
-/

namespace LibSurvey.Enumeration
open Expression (Extends Tree)

/-- Items that are read from entries and applied to nothing else. -/
theorem extends_apply {entries : List Entry} {items : List Enumerator}
    (reads : Reads true entries items) (distinct : (entries.map Entry.name).Nodup)
    (diagnostics : Bool) :
    Extends (own ∅ (some 0) entries)
      ((Findings.empty diagnostics).apply [.enumeration items]).signatures.constants :=
  extends_enumerate reads distinct (fun _ _ => Std.TreeMap.getElem?_emptyc) (fun _ _ h => h)
    fun _ _ h => h

theorem ofBytes?_lexemes (annotations : Annotations) {tag : Option String} {entries : List Entry}
    {line : List Char} (read : Token.ofChars? line = .ok (onFirstLine (lexemes tag entries)))
    (nonempty : entries ≠ []) (formed : ∀ entry ∈ entries, entry.Formed) :
    Declarations.ofBytes? annotations (Text.Utf8.encode line) =
      .ok [.enumeration (entries.map Entry.item)] := by
  have htokens : Token.ofBytes? (Text.Utf8.encode line) =
      .ok (onFirstLine (lexemes tag entries)) := by
    rw [Token.ofBytes?, Text.Utf8.decode?_encode]
    exact read
  rw [Declarations.ofBytes?, htokens]
  simp only [ofTokens?_lexemes annotations tag nonempty formed]

theorem laid_line {tag : Option String} {entries : List Entry} {line : List Char}
    (read : Token.ofChars? line = .ok (onFirstLine (lexemes tag entries)))
    (uncommented : Text.Uncommented line) (formed : ∀ entry ∈ entries, entry.Formed) :
    Token.Laid (lexemes tag entries) line := by
  have hlexemes : (onFirstLine (lexemes tag entries)).map Token.lexeme = lexemes tag entries := by
    rw [onFirstLine, List.map_map]
    exact List.map_id _
  have kinds : ∀ lexeme ∈ lexemes tag entries, lexeme.kind ≠ .directive := by
    intro lexeme hlexeme
    simp only [lexemes, List.mem_cons, List.mem_append, List.mem_map, List.not_mem_nil, or_false]
      at hlexeme
    rcases hlexeme with rfl | ⟨name, -, rfl⟩ | rfl | hbody | rfl | rfl
    · decide
    · simp [Lexeme.word]
    · decide
    · exact (body_entries formed).plain _ (List.mem_map_of_mem hbody)
    · decide
    · decide
  rw [← hlexemes]
  exact Token.laid_of_ofChars? read uncommented (List.forall_mem_map.mpr kinds)

theorem names_seen (entries : List Entry) :
    (entries.map Entry.seen).map Entry.name = entries.map Entry.name := by
  rw [List.map_map]
  rfl

/-- The constants of an enumeration on one line. By its tokens each entry gives an item, and has the
value, or none, that it would have without the expressions behind annotations: its own, where there
are none. As a line, each has the value that it would have without the annotated entries: its own, if
no entry counts on from one of them. -/
theorem own_values (annotations : Annotations) (diagnostics : Bool) {tag : Option String}
    {entries : List Entry} {line : List Char}
    (read : Token.ofChars? line = .ok (onFirstLine (lexemes tag entries)))
    (tagged : ∀ name ∈ tag, isName name.toList = true) (nonempty : entries ≠ [])
    (formed : ∀ entry ∈ entries, entry.Formed) (distinct : (entries.map Entry.name).Nodup) :
    let constants (found : List Emission) : ConstantSet :=
      ((Findings.empty diagnostics).apply found).signatures.constants
    let found := [.enumeration (entries.map Entry.item)]
    (Declarations.ofBytes? annotations (Text.Utf8.encode line) = .ok found ∧
      Extends (own ∅ (some 0) (entries.map Entry.seen)) (constants found) ∧
      ((∀ entry ∈ entries, entry.annotations ≠ [] → entry.value = none) →
        Extends (own ∅ (some 0) entries) (constants found))) ∧
    (Text.Uncommented line →
      Extends (own ∅ (some 0) (entries.filter (·.annotations.isEmpty)))
          (constants (Line.scan annotations line)) ∧
        (Steady entries → Extends (own ∅ (some 0) entries)
          (constants (Line.scan annotations line)))) := by
  intro constants found
  constructor
  · have hseen : Extends (own ∅ (some 0) (entries.map Entry.seen)) (constants found) :=
      extends_apply (reads_items formed) (by rwa [names_seen]) diagnostics
    refine ⟨ofBytes?_lexemes annotations read nonempty formed, hseen, fun direct => ?_⟩
    have hentries : entries.map Entry.seen = entries :=
      (List.map_congr_left fun entry hentry => seen_of_direct (direct entry hentry)).trans
        (List.map_id entries)
    rwa [hentries] at hseen
  · intro uncommented
    obtain ⟨items, hscan, hreads⟩ := Line.scan_enumeration annotations
      (laid_line read uncommented formed) uncommented tagged nonempty formed
    rw [hscan]
    refine ⟨extends_apply hreads ?_ diagnostics, fun steady => ?_⟩
    · exact distinct.sublist (List.filter_sublist.map Entry.name)
    · exact extends_apply (reads_steady steady (fun _ h => nomatch h) hreads) distinct diagnostics

def deprecated : Remark :=
  ⟨"__attribute__", some [.mark "(", .word "deprecated", .mark ")"]⟩

theorem formed_deprecated : deprecated.Formed := by
  refine ⟨by decide, ?_, ?_, ?_⟩
  · rintro inner ⟨⟩
    exact .group _ _ rfl rfl rfl (.item rfl rfl trivial .nil) .nil
  · rintro inner ⟨⟩
    exact .item rfl rfl trivial (.item rfl rfl trivial (.item rfl rfl trivial .nil))
  · rintro inner ⟨⟩
    decide

theorem formed_bare {name : String} (h : isName name.toList = true) : Entry.Formed ⟨name, [], none⟩ :=
  ⟨h, by simp, by simp⟩

theorem own_values_deprecated :
    let tree := Tree.bitwise .or [.name ['A'], .literal ['4']]
    let entries : List Entry :=
      [⟨"A", [], none⟩, ⟨"B", [deprecated], none⟩, ⟨"C", [], some tree⟩, ⟨"D", [], none⟩]
    let line := "enum E \x7b A, B __attribute__((deprecated)), C = A | 4, D \x7d;".toList
    let found := Emission.enumeration [⟨"A", none⟩, ⟨"B", none⟩, ⟨"C", some "A | 4"⟩, ⟨"D", none⟩]
    (Token.ofChars? line = .ok (onFirstLine (lexemes (some "E") entries)) ∧
      (∀ entry ∈ entries, entry.Formed) ∧ (entries.map Entry.name).Nodup ∧
      (∀ entry ∈ entries, entry.annotations ≠ [] → entry.value = none) ∧
      Text.Uncommented line ∧ Steady entries) ∧
    (Declarations.ofBytes? ⟨[]⟩ (Text.Utf8.encode line) = .ok [found] ∧
      Extends (own ∅ (some 0) entries) ((Findings.empty true).apply [found]).signatures.constants) ∧
    Extends (own ∅ (some 0) entries)
      ((Findings.empty true).apply (Line.scan ⟨[]⟩ line)).signatures.constants := by
  intro tree entries line found
  have tight (c : Char) (h : Text.isBlank c = false) : Text.Tight [c] :=
    Text.tight_of_solid (by simp) (by simpa using h)
  have operands : ∀ t ∈ [Tree.name ['A'], .literal ['4']], t.Formed := by
    simpa using ⟨.name (by decide), .literal (by decide) (tight '4' (by decide))⟩
  have formed : ∀ entry ∈ entries, entry.Formed := by
    simp only [entries, List.forall_mem_cons, List.not_mem_nil, false_imp_iff, implies_true, and_true]
    exact ⟨formed_bare (by decide), ⟨by decide, by simpa using formed_deprecated, by simp⟩,
      ⟨by decide, by simp, by simpa using .bitwise (by simp) (by decide) operands⟩,
      formed_bare (by decide)⟩
  have htree : tree.lexemes = [.word "A", .mark "|", .number "4"] := by
    simp [tree, Tree.lexemes, Tree.literalLexemes]
    decide
  have read : Token.ofChars? line = .ok (onFirstLine (lexemes (some "E") entries)) := by
    simp only [entries, lexemes, bodyLexemes, List.map_cons, Entry.lexemes, valueLexemes, htree]
    decide +kernel
  have distinct : (entries.map Entry.name).Nodup := by decide
  have direct : ∀ entry ∈ entries, entry.annotations ≠ [] → entry.value = none := by
    simp [entries]
  have uncommented : Text.Uncommented line := ⟨by decide, by decide, by decide⟩
  have steady : Steady entries := by simp [Steady, entries]
  have items : entries.map Entry.item =
      [⟨"A", none⟩, ⟨"B", none⟩, ⟨"C", some "A | 4"⟩, ⟨"D", none⟩] := by
    simp only [entries, List.map_cons, Entry.item, Entry.seen, List.isEmpty_nil, ite_true,
      Option.map_some, htree]
    decide +kernel
  obtain ⟨⟨hfound, -, htokens⟩, hline⟩ :=
    own_values ⟨[]⟩ true read (by simpa using by decide) (by simp [entries]) formed distinct
  rw [items] at hfound htokens
  exact ⟨⟨read, formed, distinct, direct, uncommented, steady⟩, ⟨hfound, htokens direct⟩,
    (hline uncommented).2 steady⟩

/-- Behind an annotation the tokens of an expression do not count, and on a line the entry after an
annotated one takes its value. -/
theorem annotated_miscounted :
    let valued : List Entry := [⟨"A", [deprecated], some (.literal ['5'])⟩, ⟨"B", [], none⟩]
    let implicit : List Entry := [⟨"A", [], none⟩, ⟨"B", [deprecated], none⟩, ⟨"C", [], none⟩]
    let first := "enum E \x7b A __attribute__((deprecated)) = 5, B \x7d;\n".toList
    let second := "enum E \x7b A, B __attribute__((deprecated)), C \x7d;\n".toList
    let byTokens := Emission.enumeration [⟨"A", none⟩, ⟨"B", none⟩]
    let byLine := Emission.enumeration [⟨"A", none⟩, ⟨"C", none⟩]
    ((∀ entry ∈ valued, entry.Formed) ∧ (valued.map Entry.name).Nodup ∧
      Token.ofChars? first = .ok (onFirstLine (lexemes (some "E") valued)) ∧
      Declarations.ofBytes? ⟨[]⟩ (Text.Utf8.encode first) = .ok [byTokens] ∧
      (own ∅ (some 0) valued)["A"]? = some 5 ∧
      ((Findings.empty true).apply [byTokens]).signatures.constants["A"]? = some 0) ∧
    (∀ entry ∈ implicit, entry.Formed) ∧ (implicit.map Entry.name).Nodup ∧
      Token.ofChars? second = .ok (onFirstLine (lexemes (some "E") implicit)) ∧
      Line.scan ⟨[]⟩ second = [byLine] ∧
      (own ∅ (some 0) implicit)["C"]? = some 2 ∧
      ((Findings.empty true).apply [byLine]).signatures.constants["C"]? = some 1 := by
  have tight : Text.Tight ['5'] := Text.tight_of_solid (by simp) (by decide)
  have hvalued : ∀ entry ∈ [Entry.mk "A" [deprecated] (some (.literal ['5'])), ⟨"B", [], none⟩],
      entry.Formed := by
    simp only [List.forall_mem_cons, List.not_mem_nil, false_imp_iff, implies_true, and_true]
    exact ⟨⟨by decide, by simpa using formed_deprecated,
      by simpa using .literal (by decide) tight⟩, formed_bare (by decide)⟩
  have himplicit : ∀ entry ∈ [Entry.mk "A" [] none, ⟨"B", [deprecated], none⟩, ⟨"C", [], none⟩],
      entry.Formed := by
    simp only [List.forall_mem_cons, List.not_mem_nil, false_imp_iff, implies_true, and_true]
    exact ⟨formed_bare (by decide), ⟨by decide, by simpa using formed_deprecated, by simp⟩,
      formed_bare (by decide)⟩
  have hlexemes : (Tree.literal ['5']).lexemes = [.number "5"] := by
    rw [Tree.lexemes]
    rfl
  have hmeaning : (Tree.literal ['5']).meaning? ∅ = some 5 := by
    rw [Tree.meaning?]
    decide
  refine ⟨⟨hvalued, by decide, ?_, by decide +kernel, ?_, by decide +kernel⟩, himplicit, by decide,
    by decide +kernel, by decide +kernel, by decide +kernel, by decide +kernel⟩
  · simp only [lexemes, bodyLexemes, List.map_cons, Entry.lexemes, valueLexemes, hlexemes]
    decide +kernel
  · simp only [own, Entry.own?, hmeaning]
    decide +kernel

end LibSurvey.Enumeration
