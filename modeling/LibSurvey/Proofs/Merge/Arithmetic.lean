import LibSurvey.Proofs.Merge
import LibSurvey.Proofs.Text.Words
import LibSurvey.Proofs.Word
import Mathlib.Data.List.Infix

/-!
Arithmetic types that a header and debug information spell with the same words. The header's type is
judged by its words and the other by what its name contains, and the two judgements agree unless no
word but `signed` and `unsigned` is there: only the header takes that for an integer. So unchanged
spellings conflict exactly in such types.
-/

namespace LibSurvey
open Text (Separated)

/-- The words that arithmetic types are made of. -/
def arithmeticWords : List String :=
  ["signed", "unsigned", "char", "short", "int", "long", "float", "double"]

/-- The words that say no more than whether a type has a sign. -/
def signWords : List String :=
  ["signed", "unsigned"]

variable {words : List String}

namespace TypeCategory

theorem occursIn_arithmetic : ∀ part ∈ "float" :: "double" :: integerParts,
    ∀ word ∈ arithmeticWords, Text.occursIn part.toList word.toList = true ↔ part = word := by
  decide

theorem solid_parts : ∀ part ∈ "float" :: "double" :: integerParts,
    part.toList ≠ [] ∧ part.toList.any Text.isBlank = false := by
  decide

/-- What a category looks for occurs in the name of an arithmetic type only as one of its words. -/
theorem occursIn_spelled (arithmetic : ∀ word ∈ words, word ∈ arithmeticWords) {name : String}
    (spelled : Separated (words.map String.toList) name.toList) {part : String}
    (hpart : part ∈ "float" :: "double" :: integerParts) :
    Text.occursIn part.toList name.toList = true ↔ part ∈ words := by
  obtain ⟨nonempty, solid⟩ := solid_parts part hpart
  rw [Text.occursIn_iff, Text.infix_separated spelled nonempty solid]
  constructor
  · rintro ⟨token, htoken, hwithin⟩
    obtain ⟨word, hword, rfl⟩ := List.mem_map.mp htoken
    have hoccurs := Text.occursIn_iff.mpr hwithin
    rwa [(occursIn_arithmetic part hpart word (arithmetic word hword)).mp hoccurs]
  · exact fun h => ⟨part.toList, List.mem_map_of_mem h, List.infix_refl _⟩

theorem ofBaseName_spelled (arithmetic : ∀ word ∈ words, word ∈ arithmeticWords) {name : String}
    (spelled : Separated (words.map String.toList) name.toList) :
    ofBaseName name =
      if "float" ∈ words then .float
      else if "double" ∈ words then .double
      else if ∃ part ∈ integerParts, part ∈ words then .int
      else .named name := by
  have occurs (part : String) (h : part ∈ "float" :: "double" :: integerParts) :=
    occursIn_spelled arithmetic spelled h
  have hint : (integerParts.any fun part => Text.occursIn part.toList name.toList) = true ↔
      ∃ part ∈ integerParts, part ∈ words := by
    rw [List.any_eq_true]
    refine exists_congr fun part => and_congr_right fun h => occurs part ?_
    exact List.mem_cons_of_mem _ (List.mem_cons_of_mem _ h)
  unfold ofBaseName
  simp only [occurs "float" (by simp), occurs "double" (by simp), hint]

end TypeCategory

namespace Merge

/-- Words with any number of qualifiers among them. -/
inductive Qualified : List String → List String → Prop where
  | nil : Qualified [] []
  | word (word : String) {words all : List String} :
      Qualified words all → Qualified (word :: words) (word :: all)
  | qualifier {qualifier : String} {words all : List String} :
      qualifier ∈ qualifiers → Qualified words all → Qualified words (qualifier :: all)

/-- An arithmetic type that both sides spell with the same words, among which the header may have
qualifiers: the header's text of it and the name of the base type. -/
structure SharedType where
  words : List String
  nonempty : words ≠ []
  arithmetic : ∀ word ∈ words, word ∈ arithmeticWords
  single : ¬("float" ∈ words ∧ "double" ∈ words)
  header : String
  qualified : ∃ all, Qualified words all ∧ Separated (all.map String.toList) header.toList
  base : String
  spelled : Separated (words.map String.toList) base.toList

theorem Qualified.mem {all : List String} (h : Qualified words all) {word : String}
    (hword : word ∈ all) : word ∈ words ∨ word ∈ qualifiers := by
  induction h with
  | nil => cases hword
  | word first _ ih =>
      rcases List.mem_cons.mp hword with rfl | hword
      · exact .inl List.mem_cons_self
      · exact (ih hword).imp_left (List.mem_cons_of_mem first)
  | qualifier hqualifier _ ih =>
      rcases List.mem_cons.mp hword with rfl | hword
      · exact .inr hqualifier
      · exact ih hword

/-- Leaving out the qualifiers leaves the words, none of which is a qualifier. -/
theorem Qualified.filter {all : List String} (h : Qualified words all)
    (unqualified : ∀ word ∈ words, word ∉ qualifiers) :
    (all.filter fun word => !qualifiers.contains word) = words := by
  induction h with
  | nil => rfl
  | word first _ ih =>
      obtain ⟨hfirst, hwords⟩ := List.forall_mem_cons.mp unqualified
      rw [List.filter_cons_of_pos (by simpa using hfirst), ih hwords]
  | qualifier hqualifier _ ih =>
      rw [List.filter_cons_of_neg (by simpa using hqualifier), ih unqualified]

theorem isName_words : ∀ word ∈ arithmeticWords ++ qualifiers, isName word.toList = true := by
  decide

theorem words_plain {all : List String} (plain : ∀ word ∈ all, word ∈ arithmeticWords ++ qualifiers)
    {text : List Char} (h : Separated (all.map String.toList) text) :
    Text.words text = all.map String.toList := by
  refine Text.words_separated h fun token htoken => ?_
  obtain ⟨word, hword, rfl⟩ := List.mem_map.mp htoken
  have hname := isName_words word (plain word hword)
  exact ⟨(tight_of_isName hname).nonempty, solid_of_isName hname⟩

theorem unqualified_words : ∀ word ∈ arithmeticWords, word ∉ qualifiers := by
  decide

theorem integer_words : ∀ word ∈ arithmeticWords, word ≠ "double" → word ≠ "float" →
    integerWords.contains word = true := by
  decide

theorem categoryOfWords_arithmetic (nonempty : words ≠ [])
    (arithmetic : ∀ word ∈ words, word ∈ arithmeticWords) :
    categoryOfWords words =
      some (if "double" ∈ words then "double" else if "float" ∈ words then "float" else "int") := by
  have other {word : String} (h : word ∉ arithmeticWords) : words ≠ [word] := by
    rintro rfl
    exact h (arithmetic word List.mem_cons_self)
  have hvoid : words ≠ ["void"] := other (by decide)
  have hdots : words ≠ ["..."] := other (by decide)
  have hbool : words ≠ ["bool"] := other (by decide)
  have hBool : words ≠ ["_Bool"] := other (by decide)
  simp only [categoryOfWords, hvoid, hdots, hbool, hBool, List.contains_eq_mem, decide_eq_true_eq,
    decide_false, Bool.or_false, Bool.false_eq_true, if_false]
  by_cases hdouble : "double" ∈ words
  · simp only [hdouble, if_true]
  by_cases hfloat : "float" ∈ words
  · simp only [hdouble, hfloat, if_true, if_false]
  have hinteger : words.all integerWords.contains = true := by
    refine List.all_eq_true.mpr fun word hword => integer_words word (arithmetic word hword) ?_ ?_
    · rintro rfl
      exact hdouble hword
    · rintro rfl
      exact hfloat hword
  simp [hdouble, hfloat, hinteger, nonempty]

theorem typesDisagree_of_category {header debug name : String}
    (h : category header = some name) (hbool : debug ≠ "bool") :
    typesDisagree header debug = true ↔ debug ≠ "unknown" ∧ name ≠ debug := by
  simp [typesDisagree, h, hbool]

theorem sign_words : ∀ word ∈ arithmeticWords,
    word ∈ signWords ↔ word ∉ "float" :: "double" :: TypeCategory.integerParts := by
  decide

namespace SharedType

variable (type : SharedType)

/-- The type with one space between its words on either side. -/
def spaced (words all : List String) (nonempty : words ≠ [])
    (arithmetic : ∀ word ∈ words, word ∈ arithmeticWords)
    (single : ¬("float" ∈ words ∧ "double" ∈ words)) (qualified : Qualified words all) :
    SharedType where
  words := words
  nonempty := nonempty
  arithmetic := arithmetic
  single := single
  header := " ".intercalate all
  qualified := ⟨all, qualified, by
    rw [String.toList_intercalate]
    exact Text.separated_intercalate (by simp [Text.Blanks, Text.isBlank]) (by simp) _⟩
  base := " ".intercalate words
  spelled := by
    rw [String.toList_intercalate]
    exact Text.separated_intercalate (by simp [Text.Blanks, Text.isBlank]) (by simp) _

/-- What debug information says of the type. -/
def debug : String :=
  (TypeCategory.ofBaseName type.base).name

/-- No word of the type says more than whether it has a sign. -/
def SignOnly : Prop :=
  ∀ word ∈ type.words, word ∈ signWords

/-- A header's type is judged by its words. -/
theorem category_header : category type.header = categoryOfWords type.words := by
  obtain ⟨all, hall, hheader⟩ := type.qualified
  have plain : ∀ word ∈ all, word ∈ arithmeticWords ++ qualifiers := fun word hword =>
    List.mem_append.mpr ((hall.mem hword).imp_left (type.arithmetic word))
  have unmarked (c : Char) (hblank : Text.isBlank c = false) (hmark : isNameChar c = false) :
      type.header.toList.contains c = false := by
    rw [List.contains_eq_mem, decide_eq_false_iff_not, ← List.singleton_infix_iff,
      Text.infix_separated hheader (List.cons_ne_nil c []) (by simp [hblank])]
    rintro ⟨token, htoken, hwithin⟩
    obtain ⟨word, hword, rfl⟩ := List.mem_map.mp htoken
    have hc := isNameChar_of_isName (isName_words word (plain word hword))
      (hwithin.subset List.mem_cons_self)
    rw [hmark] at hc
    exact Bool.noConfusion hc
  have hstrings : (all.map String.toList).map String.ofList = all := by
    simp
  have hfilter := hall.filter fun word hword => unqualified_words word (type.arithmetic word hword)
  rw [category]
  simp only [unmarked '*' (by decide) (by decide), unmarked '&' (by decide) (by decide),
    unmarked '[' (by decide) (by decide), words_plain plain hheader, hstrings, hfilter, Bool.or_self,
    Bool.false_eq_true, if_false]

/-- The name of a base type is no single word but its own. -/
theorem base_ne {other : String} (single : Text.words other.toList = [other.toList])
    (h : other ∉ type.words) : type.base ≠ other := by
  rintro rfl
  have hwords := words_plain (fun word hword => List.mem_append_left _ (type.arithmetic word hword))
    type.spelled
  have hmem : type.base.toList ∈ type.words.map String.toList := by
    rw [← hwords, single]
    exact List.mem_cons_self
  obtain ⟨word, hword, hsame⟩ := List.mem_map.mp hmem
  exact h (String.toList_inj.mp hsame ▸ hword)

/-- A word that says more than the sign decides the category, and it does so on both sides. -/
theorem category_telling (telling : ¬type.SignOnly) :
    type.debug ∈ ["float", "double", "int"] ∧ category type.header = some type.debug := by
  have hheader := type.category_header
  rw [categoryOfWords_arithmetic type.nonempty type.arithmetic] at hheader
  have hdebug : type.debug = _ :=
    congrArg TypeCategory.name (TypeCategory.ofBaseName_spelled type.arithmetic type.spelled)
  by_cases hfloat : "float" ∈ type.words
  · have hdouble : "double" ∉ type.words := fun h => type.single ⟨hfloat, h⟩
    simp [hheader, hdebug, hfloat, hdouble, TypeCategory.name]
  by_cases hdouble : "double" ∈ type.words
  · simp [hheader, hdebug, hfloat, hdouble, TypeCategory.name]
  have hint : ∃ part ∈ TypeCategory.integerParts, part ∈ type.words := by
    by_contra hnone
    refine telling fun word hword => (sign_words word (type.arithmetic word hword)).mpr ?_
    rw [List.mem_cons, List.mem_cons]
    rintro (rfl | rfl | hpart)
    · exact hfloat hword
    · exact hdouble hword
    · exact hnone ⟨word, hpart, hword⟩
  simp [hheader, hdebug, hfloat, hdouble, hint, TypeCategory.name]

/-- Without such a word the header says that it is an integer, and the name stands for itself. -/
theorem category_signOnly (only : type.SignOnly) :
    type.debug = type.base ∧ category type.header = some "int" := by
  have absent {part : String} (hpart : part ∈ "float" :: "double" :: TypeCategory.integerParts) :
      part ∉ type.words := fun h =>
    (sign_words part (type.arithmetic part h)).mp (only part h) hpart
  have hfloat : "float" ∉ type.words := absent (by simp)
  have hdouble : "double" ∉ type.words := absent (by simp)
  have hint : ¬∃ part ∈ TypeCategory.integerParts, part ∈ type.words := by
    rintro ⟨part, hpart, h⟩
    exact absent (List.mem_cons_of_mem _ (List.mem_cons_of_mem _ hpart)) h
  constructor
  · rw [debug, TypeCategory.ofBaseName_spelled type.arithmetic type.spelled, if_neg hfloat,
      if_neg hdouble, if_neg hint, TypeCategory.name]
  · rw [type.category_header, categoryOfWords_arithmetic type.nonempty type.arithmetic,
      if_neg hdouble, if_neg hfloat]

/-- The two sides disagree on an unchanged spelling if and only if it says no more than whether there is
a sign. -/
theorem typesDisagree_iff : typesDisagree type.header type.debug = true ↔ type.SignOnly := by
  by_cases only : type.SignOnly
  · obtain ⟨hdebug, hheader⟩ := type.category_signOnly only
    have unsigned {other : String} (single : Text.words other.toList = [other.toList])
        (h : other ∉ signWords) : type.base ≠ other :=
      type.base_ne single fun hmem => h (only other hmem)
    rw [hdebug, typesDisagree_of_category hheader (unsigned (by decide) (by decide))]
    exact iff_of_true ⟨unsigned (by decide) (by decide), (unsigned (by decide) (by decide)).symm⟩ only
  · obtain ⟨hdebug, hheader⟩ := type.category_telling only
    have hbool : type.debug ≠ "bool" := by
      intro h
      rw [h] at hdebug
      exact absurd hdebug (by decide)
    rw [typesDisagree_of_category hheader hbool]
    exact iff_of_false (fun h => h.2 rfl) only

end SharedType

/-- A signature of such types as a header and debug information spell it. -/
structure SharedSignature where
  returns : SharedType
  params : List SharedType

namespace SharedSignature

variable (shared : SharedSignature)

def types : List SharedType :=
  shared.returns :: shared.params

/-- These are the signatures of both sides, whatever the parameters are called. -/
structure Describes (header debug : Signature) : Prop where
  headerReturn : header.returnType = shared.returns.header
  headerParams : header.params.map Param.type = shared.params.map SharedType.header
  debugReturn : debug.returnType = shared.returns.debug
  debugParams : debug.params.map Param.type = shared.params.map SharedType.debug

variable {shared} {header debug : Signature}

theorem any_disagree_zip (a b : List Param) :
    ((a.zip b).any fun pair => typesDisagree pair.1.type pair.2.type) =
      ((a.map Param.type).zip (b.map Param.type)).any fun pair => typesDisagree pair.1 pair.2 := by
  rw [List.zip_map, List.any_map]
  rfl

/-- Two signatures of unchanged spellings conflict if and only if one of the types says no more than
whether there is a sign. -/
theorem conflicting_iff (h : shared.Describes header debug) :
    conflicting header debug = true ↔ ∃ type ∈ shared.types, type.SignOnly := by
  have hheader := congrArg List.length h.headerParams
  have hdebug := congrArg List.length h.debugParams
  rw [List.length_map, List.length_map] at hheader hdebug
  rw [conflicting, h.headerReturn, h.debugReturn, any_disagree_zip, h.headerParams, h.debugParams,
    List.zip_map', List.any_map]
  simp [hheader, hdebug, types, SharedType.typesDisagree_iff]

end SharedSignature

/-- An unchanged spelling is judged differently if and only if it says no more than whether there is a
sign; so two signatures of unchanged spellings conflict if and only if they have such a type, and a merge
of functions with such signatures notes nothing unless it meets one. -/
theorem functions_unchanged (precedence : Precedence) (known : FoundFunctions)
    (binary : BinarySignatures) (sink : Diagnostics) (shared : String → SharedSignature)
    (describes : ∀ name header debug, DescribedTwice known binary.functions name header debug →
      (shared name).Describes header debug) :
    (∀ type : SharedType, typesDisagree type.header type.debug = true ↔ type.SignOnly) ∧
    (∀ (spellings : SharedSignature) (header debug : Signature), spellings.Describes header debug →
      (conflicting header debug = true ↔ ∃ type ∈ spellings.types, type.SignOnly)) ∧
    ((functions precedence known binary sink).2 = sink ↔
      (sink.enabled = true → ∀ name header debug,
        DescribedTwice known binary.functions name header debug →
          ∀ type ∈ (shared name).types, ¬type.SignOnly)) := by
  refine ⟨SharedType.typesDisagree_iff, fun _ _ _ => SharedSignature.conflicting_iff, ?_⟩
  rw [functions_silent_iff]
  refine imp_congr_right fun _ => forall_congr' fun name => forall_congr' fun header =>
    forall_congr' fun debug => forall_congr' fun twice => ?_
  rw [← Bool.not_eq_true, SharedSignature.conflicting_iff (describes name header debug twice)]
  simp only [not_exists, not_and]

/-- A qualified `long unsigned int` and a qualified `float` are no conflict. -/
theorem functions_unchanged_long :
    (functions .header ((∅ : FoundFunctions).insert "f"
        (.typed ⟨"const long unsigned int", [⟨"float volatile", some "x"⟩]⟩ .header))
      ⟨.x86_64, true, (∅ : FunctionSet).insert "f" ⟨"int", [⟨"float", none⟩]⟩, []⟩ (.empty true)).2 =
      .empty true := by
  let long : SharedType := .spaced ["long", "unsigned", "int"] ["const", "long", "unsigned", "int"]
    (by decide) (by decide) (by decide) (.qualifier (by decide) (.word _ (.word _ (.word _ .nil))))
  let float : SharedType := .spaced ["float"] ["float", "volatile"] (by decide) (by decide) (by decide)
    (.word _ (.qualifier (by decide) .nil))
  have describes : ∀ name header debug,
      DescribedTwice ((∅ : FoundFunctions).insert "f"
          (.typed ⟨"const long unsigned int", [⟨"float volatile", some "x"⟩]⟩ .header))
        ((∅ : FunctionSet).insert "f" ⟨"int", [⟨"float", none⟩]⟩) name header debug →
      (SharedSignature.mk long [float]).Describes header debug := by
    rintro name header debug ⟨hknown, hdebug⟩
    by_cases h : "f" = name
    · subst h
      simp only [Std.TreeMap.getElem?_insert_self, Option.bind_some, FoundFunction.typed,
        Option.some.injEq] at hknown hdebug
      subst hknown hdebug
      exact ⟨rfl, rfl, by decide, by decide⟩
    · simp [h] at hdebug
  obtain ⟨-, -, hsilent⟩ := functions_unchanged .header _
    ⟨.x86_64, true, (∅ : FunctionSet).insert "f" ⟨"int", [⟨"float", none⟩]⟩, []⟩ (.empty true)
    (fun _ => ⟨long, [float]⟩) describes
  refine hsilent.mpr fun _ _ _ _ _ type htype => ?_
  simp only [SharedSignature.types, List.mem_cons, List.not_mem_nil, or_false] at htype
  rcases htype with rfl | rfl
  · exact fun only => absurd (only "long" (by decide)) (by decide)
  · exact fun only => absurd (only "float" (by decide)) (by decide)

/-- An unchanged spelling that only the header takes for an integer. -/
theorem unsigned_disagrees :
    ∃ type : SharedType, type.words = ["unsigned"] ∧ type.header = "unsigned" ∧
      type.base = "unsigned" ∧ typesDisagree type.header type.debug = true :=
  ⟨.spaced ["unsigned"] ["unsigned"] (by decide) (by decide) (by decide) (.word _ .nil), rfl, rfl, rfl,
    by decide⟩

end Merge
end LibSurvey
