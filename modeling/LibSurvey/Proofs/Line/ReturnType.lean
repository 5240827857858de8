import LibSurvey.Header.Declarations
import LibSurvey.Header.Line.Scan
import LibSurvey.Proofs.Line.Parts

/-!
What remains of the words before a function's name. A word that tells a type is neither `extern` nor an
annotation, nor does it only qualify or tag a type. All-caps words are left out as soon as any other
word remains, and a qualifier is such a word.
-/

namespace LibSurvey

def Emission.function? : Emission → Option (String × Signature)
  | .function name signature => some (name, signature)
  | _ => none

namespace Line
open Text (Blanks)

variable {annotations : Annotations}

/-- The lines that are read as prototypes, each with what is joined to it. -/
def candidates : List (List Char) → List (List Char)
  | [] => []
  | line :: rest =>
    if isDirective line || (enumBody? line).isSome then candidates rest
    else (joinOpen line maxJoined rest).1 :: candidates (joinOpen line maxJoined rest).2
termination_by lines => lines.length
decreasing_by
  · simp
  · have := length_joinOpen_le line maxJoined rest
    simp only [List.length_cons]; omega

theorem function?_directive? {line : List Char} {emission : Emission}
    (h : directive? line = some emission) : emission.function? = none := by
  rw [directive?] at h
  split at h
  · rename_i found hincluded
    cases h
    rw [included?] at hincluded
    simp only [Option.bind_eq_bind] at hincluded
    obtain ⟨text, -, hname⟩ := Option.bind_eq_some_iff.mp hincluded
    repeat' split at hname
    all_goals cases hname
    rfl
  · rw [defined?] at h
    simp only [Option.bind_eq_bind] at h
    obtain ⟨text, -, h⟩ := Option.bind_eq_some_iff.mp h
    obtain ⟨text, -, h⟩ := Option.bind_eq_some_iff.mp h
    obtain ⟨⟨name, rest⟩, -, h⟩ := Option.bind_eq_some_iff.mp h
    split at h
    · split at h <;> cases h
      rfl
    · obtain ⟨value, -, h⟩ := Option.bind_eq_some_iff.mp h
      split at h <;> cases h
      rfl

theorem functions_scanFrom (emissions : List Emission) (lines : List (List Char)) :
    (scanFrom annotations emissions lines).filterMap Emission.function? =
      emissions.reverse.filterMap Emission.function? ++
        (candidates lines).filterMap (function? annotations) := by
  fun_induction scanFrom annotations emissions lines with
  | case1 => simp [candidates]
  | case2 emissions line rest hdirective ih =>
      rw [ih, candidates, hdirective]
      cases hfound : directive? line with
      | none => simp
      | some found => simp [function?_directive? hfound]
  | case3 emissions line rest hdirective body hbody ih =>
      rw [ih, candidates, hbody]
      simp [Emission.function?]
  | case4 emissions line rest hdirective hbody found ih =>
      rw [ih, candidates]
      simp only [hdirective, hbody]
      cases hfound : function? annotations (joinOpen line maxJoined rest).1 with
      | none => simp [found, hfound]
      | some declared => simp [found, hfound, Emission.function?]

/-- A word that tells a type, not only how it is qualified or tagged. -/
def isTelling (annotations : Annotations) (word : String) : Bool :=
  word != "*" && word != "extern" && !annotations.isNoise word && !isQualifier word &&
    !isTagKeyword word

/-- A word that only qualifies or tags a type. -/
def isBare (annotations : Annotations) (word : String) : Bool :=
  (isQualifier word || isTagKeyword word) && !annotations.isNoise word

theorem isBare_spelled {word : String} (h : isBare annotations word = true) :
    (word = "const" ∨ word = "volatile" ∨ word = "struct" ∨ word = "union" ∨ word = "enum") ∧
      annotations.isNoise word = false := by
  simpa [isBare, isQualifier, isTagKeyword, or_assoc] using h

/-- Words that remain are stars, tell a type or do nothing but qualify or tag one. -/
theorem kept_cases {word : String} (hexternal : word ≠ "extern")
    (hnoise : annotations.isNoise word = false) (hstar : word ≠ "*") :
    isTelling annotations word = true ∨ isBare annotations word = true := by
  unfold isTelling isBare
  cases isQualifier word <;> cases isTagKeyword word <;> simp [hexternal, hnoise, hstar]

theorem mem_kept {head : List String} {word : String} :
    word ∈ head.filter (fun word => word != "extern" && !annotations.isNoise word) ↔
      word ∈ head ∧ word ≠ "extern" ∧ annotations.isNoise word = false := by
  simp

theorem isTelling_kept {word : String} (h : isTelling annotations word = true) :
    word ≠ "*" ∧ word ≠ "extern" ∧ annotations.isNoise word = false := by
  simp only [isTelling, Bool.and_eq_true, bne_iff_ne, Bool.not_eq_true'] at h
  exact ⟨h.1.1.1.1, h.1.1.1.2, h.1.1.2⟩

theorem returnWords_subset {head : List String} {word : String}
    (h : word ∈ returnWords annotations head) : word ∈ head := by
  rw [returnWords] at h
  split at h
  · exact List.mem_of_mem_filter (List.mem_of_mem_filter h)
  · exact List.mem_of_mem_filter h

/-- A type is told if it is told without capitals, or if no other word is there to stand for it. -/
theorem returnWords_telling {head : List String} (told : ∃ word ∈ head, isTelling annotations word) :
    (∃ word ∈ returnWords annotations head, isTelling annotations word) ↔
      (∃ word ∈ head, isTelling annotations word ∧ isAllCaps word = false) ∨
        ∀ word ∈ head, isBare annotations word = false := by
  obtain ⟨telling, hmem, htelling⟩ := told
  obtain ⟨-, hexternal, hnoise⟩ := isTelling_kept htelling
  rw [returnWords]
  split
  case isFalse hnone =>
    -- nothing is left without the all-caps words, so they all stay
    have hkept := mem_kept.mpr ⟨hmem, hexternal, hnoise⟩
    refine ⟨fun _ => .inr fun word hword => ?_, fun _ => ⟨telling, hkept, htelling⟩⟩
    refine Bool.eq_false_iff.mpr fun hbare => hnone ?_
    obtain ⟨hspelled, hquiet⟩ := isBare_spelled hbare
    have hlower : word ≠ "extern" ∧ isAllCaps word = false ∧ word ≠ "*" := by
      rcases hspelled with rfl | rfl | rfl | rfl | rfl <;> decide
    refine List.any_eq_true.mpr ⟨word, List.mem_filter.mpr ⟨?_, by simp [hlower.2.1]⟩, ?_⟩
    · exact mem_kept.mpr ⟨hword, hlower.1, hquiet⟩
    · simpa using hlower.2.2
  case isTrue hany =>
    constructor
    · rintro ⟨word, hword, htold⟩
      obtain ⟨hkept, hlower⟩ := List.mem_filter.mp hword
      exact .inl ⟨word, (mem_kept.mp hkept).1, htold, by simpa using hlower⟩
    · rintro (⟨word, hword, htold, hlower⟩ | hbare)
      · obtain ⟨-, hexternal, hnoise⟩ := isTelling_kept htold
        have hkept := mem_kept.mpr ⟨hword, hexternal, hnoise⟩
        exact ⟨word, List.mem_filter.mpr ⟨hkept, by simp [hlower]⟩, htold⟩
      · -- the word that stands for the type can only be one that tells it
        obtain ⟨word, hword, hstar⟩ := List.any_eq_true.mp hany
        obtain ⟨hin, hexternal, hnoise⟩ := mem_kept.mp (List.mem_of_mem_filter hword)
        refine ⟨word, hword, (kept_cases hexternal hnoise (by simpa using hstar)).resolve_right ?_⟩
        simp [hbare word hin]

theorem telling_pieces {before head : List String}
    (h : before = head ∨ before = "extern" :: head) {p : String → Prop} (hexternal : ¬p "extern") :
    (∃ word ∈ before, p word) ↔ ∃ word ∈ head, p word := by
  rcases h with rfl | rfl
  · rfl
  · simp [hexternal]

/-- The functions of a text are those of its candidates, and each of these tells its type if its line
does, unless it does so in capitals only and a word that qualifies or tags the type stands beside. -/
theorem scan_returnTypes (annotations : Annotations) (text : List Char) :
    (scan annotations text).filterMap Emission.function? =
        (candidates (logical text)).filterMap (function? annotations) ∧
      ∀ line ∈ candidates (logical text), ∀ name signature,
        function? annotations line = some (name, signature) →
        ∃ before blanks inside, line = before ++ (name.toList ++ (blanks ++ '(' :: inside)) ∧
          '(' ∉ before ∧ Blanks blanks ∧
          ((∃ word ∈ pieces before, isTelling annotations word) →
            ((∃ word ∈ pieces signature.returnType.toList, isTelling annotations word) ↔
              (∃ word ∈ pieces before, isTelling annotations word ∧ isAllCaps word = false) ∨
                ∀ word ∈ pieces before, isBare annotations word = false)) := by
  refine ⟨functions_scanFrom [] (logical text), fun line _ name signature hfunction => ?_⟩
  obtain ⟨shape, hshape, rfl, rfl⟩ := shape_of_function? hfunction
  obtain ⟨before, inside, hleads, hhead⟩ := leads_of_shape? hshape
  obtain ⟨blanks, hblanks, hline⟩ := hleads.parts
  refine ⟨before, blanks, inside, by rw [String.toList_ofList, hline], ?_, hblanks, fun told => ?_⟩
  · exact fun hopen => (hleads.unopened '(' (List.mem_append_left _ hopen)).1 rfl
  have hpieces : ∀ word ∈ returnWords annotations (pieces shape.head), IsPiece word :=
    fun word hword => isPiece_of_mem (returnWords_subset hword)
  rw [telling_pieces hhead (by simp [isTelling])] at told ⊢
  rw [pieces_renderType hpieces, returnWords_telling told]
  have hbare : (∃ word ∈ pieces before, ¬isBare annotations word = false) ↔
      ∃ word ∈ pieces shape.head, ¬isBare annotations word = false :=
    telling_pieces hhead (by simp [isBare, isQualifier, isTagKeyword])
  simpa only [not_exists, not_and, not_not] using or_congr_right (not_congr hbare).symm

theorem scan_returnTypes_tagged :
    let line := "extern struct FILE *open_log(void);".toList
    line ∈ candidates (logical line) ∧
      function? ⟨[]⟩ line = some ("open_log", ⟨"struct*", []⟩) ∧
      ∃ before blanks inside, line = before ++ ("open_log".toList ++ (blanks ++ '(' :: inside)) ∧
        '(' ∉ before ∧ Blanks blanks ∧
        ((∃ word ∈ pieces before, isTelling ⟨[]⟩ word) →
          ((∃ word ∈ pieces "struct*".toList, isTelling ⟨[]⟩ word) ↔
            (∃ word ∈ pieces before, isTelling ⟨[]⟩ word ∧ isAllCaps word = false) ∨
              ∀ word ∈ pieces before, isBare ⟨[]⟩ word = false)) := by
  have hline : "extern struct FILE *open_log(void);".toList ∈
      candidates (logical "extern struct FILE *open_log(void);".toList) := by decide +kernel
  have hfunction : function? ⟨[]⟩ "extern struct FILE *open_log(void);".toList =
      some ("open_log", ⟨"struct*", []⟩) := by decide +kernel
  exact ⟨hline, hfunction, (scan_returnTypes ⟨[]⟩ _).2 _ hline _ _ hfunction⟩

/-- A qualifier or a tag keyword is kept in place of the all-caps name of a type, which a reading by
tokens keeps. -/
theorem type_dropped :
    let qualified := "const BOOL f(void);".toList
    let tagged := "struct FILE *f(void);".toList
    pieces "const BOOL ".toList = ["const", "BOOL"] ∧ isTelling ⟨[]⟩ "BOOL" = true ∧
      isTelling ⟨[]⟩ "const" = false ∧
      scan ⟨[]⟩ qualified = [.function "f" ⟨"const", []⟩] ∧
      Declarations.ofBytes? ⟨[]⟩ (Text.Utf8.encode qualified) =
        .ok [.function "f" ⟨"const BOOL", []⟩] ∧
      pieces "struct FILE *".toList = ["struct", "FILE", "*"] ∧ isTelling ⟨[]⟩ "FILE" = true ∧
      isTelling ⟨[]⟩ "struct" = false ∧
      scan ⟨[]⟩ tagged = [.function "f" ⟨"struct*", []⟩] ∧
      Declarations.ofBytes? ⟨[]⟩ (Text.Utf8.encode tagged) =
        .ok [.function "f" ⟨"struct FILE*", []⟩] := by
  decide +kernel

end Line
end LibSurvey
