import LibSurvey.Proofs.Agreement.Lines
import LibSurvey.Proofs.Line.Joined
import LibSurvey.Proofs.Line.Prototype
import LibSurvey.Proofs.Prototype.Canonical

/-!
Headers of simple prototypes, one on a line, with any blanks between their lexemes. Read by their
tokens or line by line, they declare the functions that their prototypes mean, unless a star counts as
an annotation: then only the line loses its stars.
-/

namespace LibSurvey
open Lexeme (Written)
open Spelling (Piece)

variable {annotations : Annotations}

namespace Line

theorem balance_written {prototype : Spelling.Prototype} {text : List Char}
    (h : Written (prototype.lexemes ++ [Lexeme.mark ";"]) text) : balance text ≤ 0 := by
  obtain ⟨external, type, name, params⟩ := prototype
  have hlexemes : (Spelling.Prototype.mk external type name params).lexemes ++ [Lexeme.mark ";"] =
      ((if external then [Lexeme.word "extern"] else []) ++ type.lexemes ++ [Lexeme.word name]) ++
        Lexeme.mark "(" ::
          (Spelling.Prototype.listLexemes params ++ [Lexeme.mark ")", .mark ";"]) := by
    simp [Spelling.Prototype.lexemes]
  rw [hlexemes] at h
  obtain ⟨x, z, rfl, hx, -, -, hz⟩ := Lexeme.written_cons_split h
  obtain ⟨y, after, rfl, hy, -, -, hafter⟩ := Lexeme.written_cons_split hz
  have hbefore : '(' ∉ x := by
    refine not_mem_among ["*"] hx (fun lexeme hlexeme => ?_) (by decide) (by decide)
      (by decide)
    rcases List.mem_append.mp hlexeme with hlexeme | hlexeme
    · exact Spelling.among_head hlexeme
    · exact .inl (by rw [List.mem_singleton.mp hlexeme]; rfl)
  have hinside : '(' ∉ y :=
    not_mem_among _ hy (fun _ => Spelling.among_list) (by decide) (by decide) (by decide)
  have hend : '(' ∉ after := by
    refine not_mem_among [";"] hafter (fun lexeme hlexeme => ?_) (by decide) (by decide)
      (by decide)
    exact .inr (.inr ⟨";", by simp, List.mem_singleton.mp hlexeme⟩)
  simp [balance, Lexeme.mark, List.count_append, List.count_eq_zero.mpr hbefore,
    List.count_eq_zero.mpr hinside, List.count_eq_zero.mpr hend]
  omega

/-- The line of a prototype is passed over by itself. -/
theorem declares_function {prototype : Spelling.Prototype} {line : List Char}
    (h : Written (prototype.lexemes ++ [Lexeme.mark ";"]) line)
    {name : String} {signature : Signature}
    (hfunction : function? annotations (Text.trim line) = some (name, signature)) :
    Declares annotations line (some (.function name signature)) := by
  have htrim := Lexeme.written_trim h
  have among : ∀ lexeme ∈ prototype.lexemes ++ [Lexeme.mark ";"],
      Spelling.Among ["(", ")", "*", "[", "]", "...", ",", ";"] lexeme := by
    intro lexeme hlexeme
    rcases List.mem_append.mp hlexeme with hlexeme | hlexeme
    · exact (Spelling.among_prototype hlexeme).mono (by simp)
    · exact .inr (.inr ⟨";", by simp, List.mem_singleton.mp hlexeme⟩)
  refine ⟨Lexeme.plainLine_of_written h, fun hnil => ?_, fun _ emissions rest => ?_⟩
  · exact absurd hnil (Lexeme.written_ne_nil htrim (by simp))
  · have hhash : '#' ∉ Text.trim line :=
      not_mem_among _ htrim among (by decide) (by decide) (by decide)
    have hdirective : isDirective (Text.trim line) = false :=
      decide_eq_false fun hhead => hhash (List.mem_of_mem_head? hhead)
    have hbrace : '\x7b' ∉ Text.trim line :=
      not_mem_among _ htrim among (by decide) (by decide) (by decide)
    rw [scanFrom, hdirective, enumBody?_free hbrace, joinOpen_balanced (balance_written htrim),
      hfunction]
    rfl

end Line

/-- A blank line, or one with a simple prototype. -/
inductive SimpleLine (annotations : Annotations) : Option Spelling.Prototype → List Char → Prop where
  | blank {gap : List Char} : Lexeme.Gap gap → SimpleLine annotations none gap
  | prototype {prototype : Spelling.Prototype} {line : List Char} :
      prototype.Plain annotations →
      (∀ word, .word word ∈ prototype.type.pieces → isAllCaps word = false) →
      Written (prototype.lexemes ++ [.mark ";"]) line →
      SimpleLine annotations (some prototype) line

namespace SimpleLine

def lexemes (prototype : Option Spelling.Prototype) : List Lexeme :=
  match prototype with
  | none => []
  | some prototype => prototype.lexemes ++ [.mark ";"]

def found (prototype : Option Spelling.Prototype) : Option Emission :=
  prototype.map fun prototype => .function prototype.meaning.1 prototype.meaning.2

theorem readAlike {prototype : Option Spelling.Prototype} {line : List Char}
    (h : SimpleLine annotations prototype line) (star : "*" ∉ annotations.extra) :
    ReadAlike annotations line (lexemes prototype) (found prototype) := by
  cases h with
  | blank hgap => exact readAlike_gap hgap
  | prototype plain lower hwritten =>
      exact ⟨Token.reads_written hwritten, Prototype.declares_spelled plain,
        Line.declares_function hwritten
          (Line.function?_written plain lower star (Lexeme.written_trim hwritten))⟩

end SimpleLine

/-- A header of simple prototypes declares the same by its tokens and line by line, namely the
functions that are meant. -/
theorem Declarations.ofBytes?_prototypes
    {lines : List (Option Spelling.Prototype × List Char)}
    (simple : ∀ line ∈ lines, SimpleLine annotations line.1 line.2)
    (star : "*" ∉ annotations.extra)
    (room : (lines.map fun line => (SimpleLine.lexemes line.1).length).sum ≤ Token.limit) :
    let text := ['\n'].intercalate (lines.map Prod.snd)
    ofBytes? annotations (Text.Utf8.encode text) = .ok (Line.scan annotations text) ∧
      Line.scan annotations text = lines.filterMap fun line => SimpleLine.found line.1 := by
  have alike : ∀ line ∈ lines, ReadAlike annotations line.snd (SimpleLine.lexemes line.1)
      (SimpleLine.found line.1) := fun line hline => (simple line hline).readAlike star
  obtain ⟨htokens, hlines⟩ := readAlike_lines alike room
  exact ⟨by rw [htokens, hlines], hlines⟩

/-- A prototype whose type has a star. -/
def starred : Spelling.Prototype :=
  ⟨false, ⟨"int", [.star]⟩, "f", [.void]⟩

theorem plain_starred {extra : List String} (hint : "int" ∉ extra) (hname : "f" ∉ extra) :
    starred.Plain ⟨extra⟩ := by
  have plain {word : String} (h : word ∉ extra) (hword : IsPlain ⟨[]⟩ word) :
      IsPlain ⟨extra⟩ word := by
    refine ⟨hword.name, hword.notExtern, hword.notReserved, ?_⟩
    have hnoise := hword.notNoise
    simp only [Annotations.isNoise, List.contains_nil, Bool.or_false] at hnoise
    simpa [Annotations.isNoise, h] using hnoise
  refine ⟨fun word hword => ?_, plain hname ⟨by decide, by decide, by decide, by decide⟩, by decide,
    .inl rfl⟩
  obtain rfl : word = "int" := by simpa [starred, Spelling.Typed.pieces] using hword
  exact plain hint ⟨by decide, by decide, by decide, by decide⟩

theorem lower_starred {word : String} (h : .word word ∈ starred.type.pieces) :
    isAllCaps word = false := by
  obtain rfl : word = "int" := by simpa [starred, Spelling.Typed.pieces] using h
  decide

theorem written_starred {extra : List String} (plain : starred.Plain ⟨extra⟩) :
    Written (starred.lexemes ++ [Lexeme.mark ";"]) "int* f(void);".toList :=
  written_prototype plain.type plain.name.name written_void

theorem Declarations.ofBytes?_prototypes_starred :
    let lines := [(none, ['\t']), (some starred, "int* f(void);".toList)]
    let text := ['\n'].intercalate (lines.map Prod.snd)
    (∀ line ∈ lines, SimpleLine ⟨[]⟩ line.1 line.2) ∧ "*" ∉ (Annotations.mk []).extra ∧
      (lines.map fun line => (SimpleLine.lexemes line.1).length).sum ≤ Token.limit ∧
      ofBytes? ⟨[]⟩ (Text.Utf8.encode text) = .ok (Line.scan ⟨[]⟩ text) ∧
      Line.scan ⟨[]⟩ text = lines.filterMap fun line => SimpleLine.found line.1 := by
  have plain : starred.Plain ⟨[]⟩ := plain_starred (by simp) (by simp)
  have simple : ∀ line ∈ [(none, ['\t']), (some starred, "int* f(void);".toList)],
      SimpleLine ⟨[]⟩ line.1 line.2 := by
    simpa using ⟨.blank (by simp [Lexeme.Gap, Text.isBlank]),
      .prototype plain (fun _ => lower_starred) (written_starred plain)⟩
  exact ⟨simple, by simp, by decide, ofBytes?_prototypes simple (by simp) (by decide)⟩

/-- Where a star counts as an annotation, a line loses the stars of its types. -/
theorem Declarations.ofBytes?_star_noise :
    SimpleLine ⟨["*"]⟩ (some starred) "int* f(void);".toList ∧
      (SimpleLine.lexemes (some starred)).length ≤ Token.limit ∧
      ofBytes? ⟨["*"]⟩ (Text.Utf8.encode "int* f(void);".toList) ≠
        .ok (Line.scan ⟨["*"]⟩ "int* f(void);".toList) := by
  have plain : starred.Plain ⟨["*"]⟩ := plain_starred (by decide) (by decide)
  have hwritten := written_starred plain
  refine ⟨.prototype plain (fun _ => lower_starred) hwritten, by decide, ?_⟩
  obtain ⟨inside, -, hfunction⟩ :=
    Line.function?_shape plain (Lexeme.written_trim hwritten) (by decide)
  have htokens := ofBytes?_lines (.cons (Token.reads_written hwritten) .nil)
    (.cons (Prototype.declares_spelled plain) .nil) (by decide)
  have hlines := Line.scan_lines (.cons (Line.declares_function hwritten hfunction) .nil)
  rw [List.intercalate_singleton] at htokens hlines
  rw [htokens, hlines]
  have htypes : starred.type.render ≠
      renderType (Line.returnWords ⟨["*"]⟩ starred.type.texts) := by decide
  intro hsame
  simp [List.reduceOption, Spelling.Prototype.meaning, htypes] at hsame

end LibSurvey
