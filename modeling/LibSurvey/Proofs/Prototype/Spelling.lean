import LibSurvey.Header.Annotations
import LibSurvey.Header.Line.Prototype
import LibSurvey.Proofs.Text.Join
import LibSurvey.Proofs.Token.Lexeme

/-!
How simple prototypes are spelled: a type of words and stars, a name, and parameters of words, stars
and array sizes. What a reader has to make of them is said here without reading anything.
-/

namespace LibSurvey

/-- A word that a declaration keeps. -/
structure IsPlain (annotations : Annotations) (word : String) : Prop where
  name : isName word.toList = true
  notExtern : word ≠ "extern"
  notReserved : isReserved word = false
  notNoise : annotations.isNoise word = false

instance (annotations : Annotations) (word : String) : Decidable (IsPlain annotations word) :=
  decidable_of_iff (isName word.toList = true ∧ word ≠ "extern" ∧ isReserved word = false ∧
      annotations.isNoise word = false)
    ⟨fun ⟨name, notExtern, notReserved, notNoise⟩ => ⟨name, notExtern, notReserved, notNoise⟩,
      fun h => ⟨h.name, h.notExtern, h.notReserved, h.notNoise⟩⟩

namespace Spelling

inductive Piece where
  | word (text : String)
  | star
deriving DecidableEq, Repr

def Piece.text : Piece → String
  | .word text => text
  | .star => "*"

def Piece.lexeme : Piece → Lexeme
  | .word text => .word text
  | .star => .mark "*"

/-- The spelling of a type: a word, then words and stars. -/
structure Typed where
  first : String
  rest : List Piece
deriving DecidableEq, Repr

namespace Typed

def pieces (type : Typed) : List Piece :=
  .word type.first :: type.rest

def texts (type : Typed) : List String :=
  type.pieces.map Piece.text

def lexemes (type : Typed) : List Lexeme :=
  type.pieces.map Piece.lexeme

def render (type : Typed) : String :=
  renderType type.texts

def Plain (annotations : Annotations) (type : Typed) : Prop :=
  ∀ word, .word word ∈ type.pieces → IsPlain annotations word

theorem forall_texts {type : Typed} {p : String → Prop}
    (words : ∀ word, .word word ∈ type.pieces → p word) (star : p "*") :
    ∀ text ∈ type.texts, p text := by
  intro text htext
  obtain ⟨piece, hpiece, rfl⟩ := List.mem_map.mp htext
  cases piece with
  | word word => exact words word hpiece
  | star => exact star

end Typed

/-- The size of an array: nothing, a name or a number. -/
inductive Size where
  | empty
  | name (text : String)
  | number (text : String)
deriving DecidableEq, Repr

namespace Size

def content : Size → List Lexeme
  | .empty => []
  | .name text => [.word text]
  | .number text => [.number text]

def lexemes (size : Size) : List Lexeme :=
  .mark "[" :: size.content ++ [.mark "]"]

def Formed : Size → Prop
  | .empty => True
  | .name text => isName text.toList = true
  | .number text => Lexeme.isNumber text.toList = true

end Size

/-- The spelling of a parameter; a typed one has its name as its last word. -/
inductive Parameter where
  | variadic
  | typed (type : Typed) (sizes : List Size)
deriving DecidableEq, Repr

namespace Parameter

def lexemes : Parameter → List Lexeme
  | .variadic => [.mark "..."]
  | .typed type sizes => type.lexemes ++ sizes.flatMap Size.lexemes

theorem lexemes_ne_nil (param : Parameter) : param.lexemes ≠ [] := by
  cases param <;> simp [Parameter.lexemes, Typed.lexemes, Typed.pieces]

/-- The parameter that is meant; sizes of arrays make it a pointer. -/
def meaning : Parameter → Param
  | .variadic => ⟨"...", none⟩
  | .typed type sizes => Line.plainParam type.texts !sizes.isEmpty

def Plain (annotations : Annotations) : Parameter → Prop
  | .variadic => True
  | .typed type sizes => type.Plain annotations ∧ ∀ size ∈ sizes, size.Formed

/-- The word that stands for an empty list. -/
def void : Parameter :=
  .typed ⟨"void", []⟩ []

end Parameter

/-- The spelling of a prototype. -/
structure Prototype where
  external : Bool
  type : Typed
  name : String
  params : List Parameter
deriving DecidableEq, Repr

namespace Prototype

def listLexemes (params : List Parameter) : List Lexeme :=
  [.mark ","].intercalate (params.map Parameter.lexemes)

/-- All of a prototype before its semicolon. -/
def lexemes (prototype : Prototype) : List Lexeme :=
  (if prototype.external then [.word "extern"] else []) ++ (prototype.type.lexemes ++
    .word prototype.name :: .mark "(" :: (listLexemes prototype.params ++ [.mark ")"]))

def meanings (params : List Parameter) : List Param :=
  if params = [.void] then [] else params.map Parameter.meaning

/-- The function that is meant. -/
def meaning (prototype : Prototype) : String × Signature :=
  (prototype.name, ⟨prototype.type.render, meanings prototype.params⟩)

/-- No word is noise, and the name is one that a function may have. The list may be `void` whatever
counts as noise. -/
structure Plain (annotations : Annotations) (prototype : Prototype) : Prop where
  type : prototype.type.Plain annotations
  name : IsPlain annotations prototype.name
  nameable : isTypeKeyword prototype.name = false
  params : prototype.params = [.void] ∨ ∀ param ∈ prototype.params, param.Plain annotations

end Prototype

/-- A word, a number or one of these marks. -/
def Among (marks : List String) (lexeme : Lexeme) : Prop :=
  lexeme.kind = .word ∨ lexeme.kind = .number ∨ ∃ text ∈ marks, lexeme = .mark text

theorem Among.mono {a b : List String} {lexeme : Lexeme} (h : Among a lexeme)
    (hab : ∀ text ∈ a, text ∈ b) : Among b lexeme := by
  rcases h with h | h | ⟨text, ht, rfl⟩
  · exact .inl h
  · exact .inr (.inl h)
  · exact .inr (.inr ⟨text, hab text ht, rfl⟩)

theorem Among.isPunct {marks : List String} {lexeme : Lexeme} (h : Among marks lexeme) (line : Nat)
    {mark : String} (hmark : mark ∉ marks) : (lexeme.onLine line).isPunct mark = false := by
  rcases h with h | h | ⟨text, ht, rfl⟩
  · simp [Token.isPunct, Lexeme.onLine, h]
  · simp [Token.isPunct, Lexeme.onLine, h]
  · have hne : text ≠ mark := by rintro rfl; exact hmark ht
    simp [Token.isPunct, Lexeme.onLine, Lexeme.mark, hne]

theorem Among.kind {marks : List String} {lexeme : Lexeme} (h : Among marks lexeme) :
    lexeme.kind = .word ∨ lexeme.kind = .number ∨ lexeme.kind = .punctuation := by
  rcases h with h | h | ⟨text, _, rfl⟩
  · exact .inl h
  · exact .inr (.inl h)
  · exact .inr (.inr rfl)

theorem among_piece (piece : Piece) : Among ["*"] piece.lexeme := by
  cases piece with
  | word text => exact .inl rfl
  | star => exact .inr (.inr ⟨"*", by simp, rfl⟩)

theorem among_typed {type : Typed} {lexeme : Lexeme} (h : lexeme ∈ type.lexemes) :
    Among ["*"] lexeme := by
  obtain ⟨piece, _, rfl⟩ := List.mem_map.mp h
  exact among_piece piece

/-- An `extern` in front is a word like any other. -/
theorem among_head {external : Bool} {type : Typed} {lexeme : Lexeme}
    (h : lexeme ∈ (if external then [.word "extern"] else []) ++ type.lexemes) :
    Among ["*"] lexeme := by
  rcases List.mem_append.mp h with h | h
  · cases external with
    | true =>
        obtain rfl := List.mem_singleton.mp h
        exact .inl rfl
    | false => exact absurd h (by simp)
  · exact among_typed h

theorem among_size {size : Size} {lexeme : Lexeme} (h : lexeme ∈ size.lexemes) :
    Among ["[", "]"] lexeme := by
  simp only [Size.lexemes, List.cons_append, List.mem_cons, List.mem_append, List.not_mem_nil,
    or_false] at h
  rcases h with rfl | h | rfl
  · exact .inr (.inr ⟨"[", by simp, rfl⟩)
  · cases size with
    | empty => exact absurd h (by simp [Size.content])
    | name text => exact .inl (by rw [List.mem_singleton.mp h]; rfl)
    | number text => exact .inr (.inl (by rw [List.mem_singleton.mp h]; rfl))
  · exact .inr (.inr ⟨"]", by simp, rfl⟩)

theorem among_parameter {param : Parameter} {lexeme : Lexeme} (h : lexeme ∈ param.lexemes) :
    Among ["*", "[", "]", "..."] lexeme := by
  cases param with
  | variadic =>
      obtain rfl := List.mem_singleton.mp h
      exact .inr (.inr ⟨"...", by simp, rfl⟩)
  | typed type sizes =>
      rcases List.mem_append.mp h with h | h
      · exact (among_typed h).mono (by simp)
      · obtain ⟨size, _, hsize⟩ := List.mem_flatMap.mp h
        exact (among_size hsize).mono (by simp)

theorem among_list {params : List Parameter} {lexeme : Lexeme}
    (h : lexeme ∈ Prototype.listLexemes params) : Among ["*", "[", "]", "...", ","] lexeme := by
  rcases Text.mem_intercalate h with rfl | ⟨part, hpart, hmem⟩
  · exact .inr (.inr ⟨",", by simp, rfl⟩)
  · obtain ⟨param, _, rfl⟩ := List.mem_map.mp hpart
    exact (among_parameter hmem).mono (by simp)

theorem among_prototype {prototype : Prototype} {lexeme : Lexeme} (h : lexeme ∈ prototype.lexemes) :
    Among ["(", ")", "*", "[", "]", "...", ","] lexeme := by
  rw [Prototype.lexemes, ← List.append_assoc, List.mem_append] at h
  simp only [List.mem_cons, List.mem_append, List.not_mem_nil, or_false] at h
  rcases h with h | rfl | rfl | h | rfl
  · exact (among_head (List.mem_append.mpr h)).mono (by simp)
  · exact .inl rfl
  · exact .inr (.inr ⟨"(", by simp, rfl⟩)
  · exact (among_list h).mono (by simp)
  · exact .inr (.inr ⟨")", by simp, rfl⟩)

end Spelling
end LibSurvey
