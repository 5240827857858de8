import LibSurvey.Proofs.Line.Callback

/-!
Callbacks read both ways. By its tokens a callback is what it is spelled as, whatever it is called
with; from its line only one whose arguments are fixed and, where it has no name of its own, hold no
word that may be one.
-/

namespace LibSurvey
open Spelling (Argument Bracketed Callback Listing)

variable {annotations : Annotations}

/-- The callbacks of a prototype on one line are read by their tokens as what they are spelled as, and
from the line exactly where their arguments give no occasion for anything else. -/
theorem Declarations.ofBytes?_callbacks {listing : Listing} (plain : listing.Plain annotations)
    {text : List Char} (uncommented : Text.Uncommented text) {line : Nat}
    (read : Token.ofChars? text = .ok
      ((listing.lexemes ++ [Lexeme.mark ";"]).map (·.onLine line))) :
    ∃ first second,
      ofBytes? annotations (Text.Utf8.encode text) = .ok [.function listing.name first] ∧
      Line.scan annotations text = [.function listing.name second] ∧
      ∀ (i : Nat) (callback : Callback), listing.params[i]? = some callback.lexemes →
        callback.Named → first.params[i]? = some callback.meaning ∧
          (second.params[i]? = some callback.meaning ↔ callback.Alike annotations) := by
  have hkinds : ∀ token ∈ (listing.lexemes ++ [Lexeme.mark ";"]).map (·.onLine line),
      token.kind ≠ .directive := by
    rw [List.map_append, List.map_singleton]
    exact List.forall_mem_append.mpr
      ⟨fun token htoken => (joins_listing plain line token htoken).kind,
        List.forall_mem_singleton.mpr Token.Kind.noConfusion⟩
  have laid := Token.laid_of_ofChars? read uncommented hkinds
  have hlexemes : ((listing.lexemes ++ [Lexeme.mark ";"]).map (·.onLine line)).map Token.lexeme =
      listing.lexemes ++ [Lexeme.mark ";"] := by
    rw [List.map_map]
    exact List.map_id _
  rw [hlexemes] at laid
  obtain ⟨inside, hinside, hscan⟩ := Line.scan_listing plain uncommented laid
  refine ⟨_, _, ofBytes?_listing plain read, hscan, fun i callback hparam named => ?_⟩
  have words : ∀ word, .word word ∈ callback.lexemes → IsPlain annotations word :=
    plain.words callback.lexemes (List.mem_of_getElem? hparam)
  obtain ⟨part, hpart, hread⟩ := Line.params_listing plain hinside hparam
    (by simp [Callback.lexemes, Callback.before])
  refine ⟨Prototype.params_callback plain hparam named line, ?_⟩
  rw [hread, ← Line.param_callback_iff hpart words named, Option.some_inj]

/-- A prototype of callbacks is plain if its words are. -/
theorem plain_callbacks {external : Bool} {type : Spelling.Typed} {name : String}
    {callbacks : List Callback}
    (words : ∀ lexeme ∈ type.lexemes ++ (callbacks.map Callback.lexemes).flatten,
      lexeme.kind = .word → IsPlain annotations lexeme.text)
    (plainName : IsPlain annotations name) (nameable : isTypeKeyword name = false) :
    (Listing.mk external type name (callbacks.map Callback.lexemes)).Plain annotations := by
  have hword {callback : Callback} (hcallback : callback ∈ callbacks) {word : String}
      (hword : .word word ∈ callback.lexemes) : IsPlain annotations word :=
    have hflat := List.mem_flatten_of_mem (List.mem_map_of_mem hcallback) hword
    words (.word word) (List.mem_append_right _ hflat) rfl
  refine ⟨fun word hpiece => ?_, plainName, nameable, ?_, ?_, ?_⟩
  · exact words (.word word) (List.mem_append_left _ (List.mem_map_of_mem hpiece)) rfl
  all_goals refine List.forall_mem_map.mpr fun callback hcallback => ?_
  · simp [Callback.lexemes, Callback.before]
  · exact Spelling.bracketed_callback fun word h => (hword hcallback h).name
  · exact fun word h => hword hcallback h

/-- One callback with a name and one without, whose arguments are made of keywords and stars. -/
theorem Declarations.ofBytes?_callbacks_walk :
    let visit : Callback :=
      ⟨⟨"int", []⟩, some "visit", [.typed ⟨"FILE", [.star]⟩, .typed ⟨"int", [.word "depth"]⟩]⟩
    let done : Callback := ⟨⟨"void", []⟩, none, [.typed ⟨"void", [.star]⟩]⟩
    let listing : Listing := ⟨true, ⟨"int", []⟩, "walk", [visit, done].map Callback.lexemes⟩
    let text := "extern int walk(int (*visit)(FILE *, int depth), void (*)(void *));".toList
    listing.Plain ⟨[]⟩ ∧ Text.Uncommented text ∧
      Token.ofChars? text = .ok ((listing.lexemes ++ [Lexeme.mark ";"]).map (·.onLine 1)) ∧
      visit.Named ∧ done.Named ∧ visit.Alike ⟨[]⟩ ∧ done.Alike ⟨[]⟩ ∧
      ∃ first second,
        ofBytes? ⟨[]⟩ (Text.Utf8.encode text) = .ok [.function "walk" first] ∧
        Line.scan ⟨[]⟩ text = [.function "walk" second] ∧
        first.params[0]? = some visit.meaning ∧ second.params[0]? = some visit.meaning ∧
        first.params[1]? = some done.meaning ∧ second.params[1]? = some done.meaning := by
  intro visit done listing text
  have plain : listing.Plain ⟨[]⟩ :=
    plain_callbacks (by decide +kernel) (by decide +kernel) (by decide)
  have uncommented : Text.Uncommented text :=
    ⟨by decide +kernel, by decide +kernel, by decide +kernel⟩
  have read : Token.ofChars? text =
      .ok ((listing.lexemes ++ [Lexeme.mark ";"]).map (·.onLine 1)) := by
    decide +kernel
  have visitNamed : visit.Named := by
    rintro name ⟨⟩
    exact ⟨by decide, by decide⟩
  have doneNamed : done.Named := by
    rintro name ⟨⟩
  have quiet {callback : Callback}
      (h : ∀ lexeme ∈ callback.lexemes, (Annotations.mk []).isNoise lexeme.text = false) :
      ∀ mark, .mark mark ∈ callback.lexemes → (Annotations.mk []).isNoise mark = false :=
    fun mark hmark => h (.mark mark) hmark
  have visitAlike : visit.Alike ⟨[]⟩ :=
    ⟨quiet (by decide +kernel), by decide, fun hname => by cases hname⟩
  have doneAlike : done.Alike ⟨[]⟩ := by
    refine ⟨quiet (by decide +kernel), by decide, fun _ word hword => ?_⟩
    have hwords : ∀ lexeme ∈ done.argLexemes, lexeme.kind = .word →
        isTypeKeyword lexeme.text = true := by decide
    exact hwords (.word word) hword rfl
  obtain ⟨first, second, htokens, hlines, hparams⟩ := ofBytes?_callbacks plain uncommented read
  obtain ⟨hvisit, hvisit'⟩ := hparams 0 visit rfl visitNamed
  obtain ⟨hdone, hdone'⟩ := hparams 1 done rfl doneNamed
  exact ⟨plain, uncommented, read, visitNamed, doneNamed, visitAlike, doneAlike, first, second,
    htokens, hlines, hvisit, hvisit'.mpr visitAlike, hdone, hdone'.mpr doneAlike⟩

/-- From its line, a callback without a name takes that of an argument's type and loses it there, and
an ellipsis comes apart. -/
theorem callback_misread :
    let sized : Callback := ⟨⟨"void", []⟩, none, [.typed ⟨"size_t", []⟩]⟩
    let logged : Callback := ⟨⟨"void", []⟩, some "log",
      [.typed ⟨"const", [.word "char", .star, .word "fmt"]⟩, .variadic]⟩
    let listing : Listing := ⟨false, ⟨"void", []⟩, "f", [sized, logged].map Callback.lexemes⟩
    let text := "void f(void (*)(size_t), void (*log)(const char *fmt, ...));".toList
    listing.Plain ⟨[]⟩ ∧ Text.Uncommented text ∧
      Token.ofChars? text = .ok ((listing.lexemes ++ [Lexeme.mark ";"]).map (·.onLine 1)) ∧
      sized.Named ∧ logged.Named ∧
      sized.meaning = ⟨"void (*)(size_t)", none⟩ ∧
      logged.meaning = ⟨"void (*)(const char* fmt, ...)", some "log"⟩ ∧
      Declarations.ofBytes? ⟨[]⟩ (Text.Utf8.encode text) =
        .ok [.function "f" ⟨"void", [sized.meaning, logged.meaning]⟩] ∧
      Line.scan ⟨[]⟩ text = [.function "f" ⟨"void",
        [⟨"void (*)()", some "size_t"⟩, ⟨"void (*)(const char* fmt, . . .)", some "log"⟩]⟩] := by
  intro sized logged listing text
  have plain : listing.Plain ⟨[]⟩ :=
    plain_callbacks (by decide +kernel) (by decide +kernel) (by decide)
  have uncommented : Text.Uncommented text :=
    ⟨by decide +kernel, by decide +kernel, by decide +kernel⟩
  refine ⟨plain, uncommented, by decide +kernel, ?_, ?_, by decide +kernel⟩
  · rintro name ⟨⟩
  · rintro name ⟨⟩
    exact ⟨by decide, by decide⟩

end LibSurvey
