import LibSurvey.Proofs.Declarations.Bodies
import LibSurvey.Proofs.Findings.Enumeration
import LibSurvey.Proofs.Prototype.Tokens

/-!
Enumerations read from tokens. Each entry gives an item of its name, but the expression of an entry
is only seen where it stands directly after the name: behind an annotation it is passed over.
-/

namespace LibSurvey.Enumeration
open Expression (Tree spelling)
open Declarations (State)
open Prototype (brackets)
open Spelling (Among)

/-- The tokens of the first line. -/
def onFirstLine (lexemes : List Lexeme) : List Token :=
  lexemes.map (·.onLine 1)

def Remark.lexemes (remark : Remark) : List Lexeme :=
  .word remark.word ::
    match remark.arguments with
    | some inner => .mark "(" :: (inner ++ [.mark ")"])
    | none => []

def valueLexemes : Option Tree → List Lexeme
  | some tree => .mark "=" :: tree.lexemes
  | none => []

def Entry.lexemes (entry : Entry) : List Lexeme :=
  .word entry.name ::
    (entry.annotations.flatMap Remark.lexemes ++ valueLexemes entry.value)

/-- The lexemes between the braces of an enumeration. -/
def bodyLexemes (entries : List Entry) : List Lexeme :=
  [Lexeme.mark ","].intercalate (entries.map Entry.lexemes)

/-- The lexemes of an enumeration with or without a tag. -/
def lexemes (tag : Option String) (entries : List Entry) : List Lexeme :=
  .word "enum" :: (tag.toList.map Lexeme.word ++
    .mark "\x7b" :: (bodyLexemes entries ++ [.mark "\x7d", .mark ";"]))

/-- A word, and arguments without a comma in which brackets of every kind match. -/
structure Remark.Formed (remark : Remark) : Prop where
  name : isName remark.word.toList = true
  level : ∀ inner ∈ remark.arguments, brackets.Level (fun _ => True) (onFirstLine inner)
  braces : ∀ inner ∈ remark.arguments,
    Declarations.curly.Level (fun _ => True) (onFirstLine inner)
  plain : ∀ inner ∈ remark.arguments, ∀ lexeme ∈ inner,
    lexeme.kind ≠ .directive ∧ ',' ∉ lexeme.text.toList

structure Entry.Formed (entry : Entry) : Prop where
  name : isName entry.name.toList = true
  annotations : ∀ remark ∈ entry.annotations, remark.Formed
  value : ∀ tree ∈ entry.value, tree.Formed

/-- An entry as its tokens are read: an expression counts directly after the name only. -/
def Entry.seen (entry : Entry) : Entry :=
  { entry with value := if entry.annotations.isEmpty then entry.value else none }

/-- The item that is read from the tokens of an entry. -/
def Entry.item (entry : Entry) : Enumerator :=
  ⟨entry.name, entry.seen.value.map fun tree => " ".intercalate (tree.lexemes.map (·.text))⟩

theorem enumerator?_entry (entry : Entry) :
    Declarations.enumerator? (onFirstLine entry.lexemes) = some entry.item := by
  obtain ⟨name, annotations, value⟩ := entry
  cases annotations with
  | nil =>
      cases value with
      | none => rfl
      | some tree =>
          have htexts : (onFirstLine tree.lexemes).map (·.text) = tree.lexemes.map (·.text) := by
            rw [onFirstLine, List.map_map]
            rfl
          change some (Enumerator.mk name (some (" ".intercalate
            ((onFirstLine tree.lexemes).map (·.text))))) = _
          rw [htexts]
          rfl
  | cons remark annotations => rfl

theorem spaced_spelling (lexemes : List Lexeme) :
    Text.Spaced (spelling lexemes) (" ".intercalate (lexemes.map (·.text))).toList := by
  have htexts : (lexemes.map (·.text)).map String.toList = spelling lexemes := by
    rw [List.map_map]
    rfl
  rw [String.toList_intercalate, htexts]
  exact Text.spaced_joined (by simp [Text.Blanks, Text.isBlank]) (spelling lexemes)

theorem among_literal {text : List Char} {lexeme : Lexeme}
    (h : lexeme ∈ Tree.literalLexemes text) : Among ["-", "+"] lexeme := by
  unfold Tree.literalLexemes at h
  split at h
  · rcases List.mem_cons.mp h with rfl | h
    · exact .inr (.inr ⟨"-", by simp, rfl⟩)
    · exact .inr (.inl (by rw [List.mem_singleton.mp h]; rfl))
  · rcases List.mem_cons.mp h with rfl | h
    · exact .inr (.inr ⟨"+", by simp, rfl⟩)
    · exact .inr (.inl (by rw [List.mem_singleton.mp h]; rfl))
  · exact .inr (.inl (by rw [List.mem_singleton.mp h]; rfl))

def entryMarks : List String :=
  Tree.treeMarks ++ ["-", "+", "="]

theorem among_tree {tree : Tree} (formed : tree.Formed) :
    ∀ lexeme ∈ tree.lexemes, Among entryMarks lexeme :=
  Tree.forall_lexemes (fun _ _ _ _ h => (among_literal h).mono (by decide)) (fun _ _ => .inl rfl)
    (fun text h => .inr (.inr ⟨text, List.mem_append_left _ h, rfl⟩)) formed

/-- What is neither a bracket nor a comma. -/
theorem free_among {marks : List String} {lexeme : Lexeme} (h : Among marks lexeme)
    (outside : ∀ mark ∈ ["(", "[", ")", "]", ","], mark ∉ marks) :
    brackets.opens (lexeme.onLine 1) = false ∧ brackets.closes (lexeme.onLine 1) = false ∧
      brackets.divides (lexeme.onLine 1) = false := by
  simp only [List.forall_mem_cons, List.not_mem_nil, false_imp_iff, implies_true, and_true]
    at outside
  obtain ⟨hopen, hsize, hclose, hend, hcomma⟩ := outside
  simp [brackets, h.isPunct 1 hopen, h.isPunct 1 hsize, h.isPunct 1 hclose, h.isPunct 1 hend,
    h.isPunct 1 hcomma]

theorem level_tree {tree : Tree} (formed : tree.Formed) :
    brackets.Level (fun token => brackets.divides token = false) (onFirstLine tree.lexemes) := by
  induction formed with
  | literal _ _ =>
      refine .of_forall fun token htoken => ?_
      obtain ⟨lexeme, hlexeme, rfl⟩ := List.mem_map.mp htoken
      rw [Tree.lexemes] at hlexeme
      exact free_among (among_literal hlexeme) (by decide)
  | name _ =>
      rw [Tree.lexemes]
      exact .of_forall (by simp [onFirstLine, free_among (.inl rfl : Among [] (.word _))])
  | group _ ih =>
      have hgroup := Brackets.Level.group (p := fun token => brackets.divides token = false)
        ((Lexeme.mark "(").onLine 1) ((Lexeme.mark ")").onLine 1) rfl rfl rfl
        (ih.mono fun _ _ => trivial) .nil
      simpa [onFirstLine, Tree.lexemes] using hgroup
  | @bitwise op operands _ _ _ ih =>
      rw [Tree.lexemes, onFirstLine, Text.map_intercalate, List.map_map]
      refine .intercalate (by cases op <;> rfl) (by cases op <;> rfl) (by cases op <;> rfl) ?_
      intro part hpart
      obtain ⟨operand, hoperand, rfl⟩ := List.mem_map.mp hpart
      exact ih operand hoperand
  | @shift op left right _ _ _ _ ihl ihr =>
      rw [Tree.lexemes, onFirstLine, List.map_append, List.map_cons]
      exact ihl.append (.item (by cases op <;> rfl) (by cases op <;> rfl) (by cases op <;> rfl) ihr)

theorem level_remark {remark : Remark} (formed : remark.Formed) :
    brackets.Level (fun token => brackets.divides token = false)
      (onFirstLine remark.lexemes) := by
  obtain ⟨word, arguments⟩ := remark
  have hword := free_among (.inl rfl : Among [] (.word word)) (by simp)
  cases arguments with
  | none => exact .item hword.1 hword.2.1 hword.2.2 .nil
  | some inner =>
      have hgroup := Brackets.Level.group (p := fun token => brackets.divides token = false)
        ((Lexeme.mark "(").onLine 1) ((Lexeme.mark ")").onLine 1) rfl rfl rfl
        (formed.level inner rfl) .nil
      have hparts : onFirstLine (Remark.lexemes ⟨word, some inner⟩) =
          (Lexeme.word word).onLine 1 :: (Lexeme.mark "(").onLine 1 ::
            (onFirstLine inner ++ [(Lexeme.mark ")").onLine 1]) := by
        simp [onFirstLine, Remark.lexemes]
      rw [hparts]
      exact .item hword.1 hword.2.1 hword.2.2 hgroup

/-- The brackets of an entry match if those of its parts do. -/
theorem level_entry {any : Brackets Token} {p : Token → Prop} {entry : Entry}
    (word : ∀ name, any.Level p (onFirstLine [.word name]))
    (equals : any.Level p (onFirstLine [.mark "="]))
    (noise : ∀ remark ∈ entry.annotations, any.Level p (onFirstLine remark.lexemes))
    (tree : ∀ tree ∈ entry.value, any.Level p (onFirstLine tree.lexemes)) :
    any.Level p (onFirstLine entry.lexemes) := by
  have hnoise := Brackets.Level.flatMap noise
  obtain ⟨name, annotations, value⟩ := entry
  have hparts : onFirstLine (Entry.lexemes ⟨name, annotations, value⟩) =
      onFirstLine [.word name] ++
        (annotations.flatMap (fun remark => onFirstLine remark.lexemes) ++
          onFirstLine (valueLexemes value)) := by
    simp [onFirstLine, Entry.lexemes, List.map_flatMap]
  rw [hparts]
  refine (word name).append (hnoise.append ?_)
  cases value with
  | none => exact .nil
  | some value => exact equals.append (tree value rfl)

theorem braces_among {marks : List String} {lexemes : List Lexeme}
    (h : ∀ lexeme ∈ lexemes, Among marks lexeme) (hopen : "\x7b" ∉ marks) (hclose : "\x7d" ∉ marks) :
    Declarations.curly.Level (fun _ => True) (onFirstLine lexemes) := by
  refine .of_forall fun token htoken => ?_
  obtain ⟨lexeme, hlexeme, rfl⟩ := List.mem_map.mp htoken
  exact ⟨(h lexeme hlexeme).isPunct 1 hopen, (h lexeme hlexeme).isPunct 1 hclose, trivial⟩

theorem braces_remark {remark : Remark} (formed : remark.Formed) :
    Declarations.curly.Level (fun _ => True) (onFirstLine remark.lexemes) := by
  obtain ⟨word, arguments⟩ := remark
  cases arguments with
  | none => exact .item rfl rfl trivial .nil
  | some inner =>
      have hparts : onFirstLine (Remark.lexemes ⟨word, some inner⟩) =
          onFirstLine [.word word] ++
            (onFirstLine [.mark "("] ++ (onFirstLine inner ++ onFirstLine [.mark ")"])) := by
        simp [onFirstLine, Remark.lexemes]
      rw [hparts]
      exact Brackets.Level.append (.item rfl rfl trivial .nil)
        (Brackets.Level.append (.item rfl rfl trivial .nil)
          ((formed.braces inner rfl).append (.item rfl rfl trivial .nil)))

theorem splits_entry {entry : Entry} (formed : entry.Formed) :
    brackets.Level (fun token => brackets.divides token = false) (onFirstLine entry.lexemes) := by
  refine level_entry (fun name => ?_) (.item rfl rfl rfl .nil)
    (fun remark h => level_remark (formed.annotations remark h))
    (fun tree h => level_tree (formed.value tree h))
  have hword := free_among (.inl rfl : Among [] (.word name)) (by simp)
  exact .item hword.1 hword.2.1 hword.2.2 .nil

theorem braces_entry {entry : Entry} (formed : entry.Formed) :
    Declarations.curly.Level (fun _ => True) (onFirstLine entry.lexemes) :=
  level_entry (fun _ => .item rfl rfl trivial .nil) (.item rfl rfl trivial .nil)
    (fun remark h => braces_remark (formed.annotations remark h))
    (fun tree h => braces_among (among_tree (formed.value tree h)) (by decide) (by decide))

/-- What holds of names, of the lexemes of literals, of marks and of the arguments of annotations
holds of all lexemes of an entry. -/
theorem forall_entry {p : Lexeme → Prop} {entry : Entry} (formed : entry.Formed)
    (literal : ∀ text, (Literal.ofChars? text).isSome →
      ∀ lexeme ∈ Tree.literalLexemes text, p lexeme)
    (name : ∀ text : String, isName text.toList = true → p (.word text))
    (mark : ∀ text ∈ "=" :: Tree.treeMarks, p (.mark text))
    (noise : ∀ remark ∈ entry.annotations, ∀ inner ∈ remark.arguments,
      ∀ lexeme ∈ inner, p lexeme) :
    ∀ lexeme ∈ entry.lexemes, p lexeme := by
  have hmark (text : String) (h : text ∈ Tree.treeMarks) : p (.mark text) :=
    mark text (List.mem_cons_of_mem _ h)
  intro lexeme h
  rw [Entry.lexemes, List.mem_cons, List.mem_append, List.mem_flatMap] at h
  rcases h with rfl | ⟨remark, hremark, h⟩ | h
  · exact name entry.name formed.name
  · rw [Remark.lexemes, List.mem_cons] at h
    rcases h with rfl | h
    · exact name remark.word (formed.annotations remark hremark).name
    · cases harguments : remark.arguments with
      | none => simp [harguments] at h
      | some inner =>
          simp only [harguments, List.mem_cons, List.mem_append, List.not_mem_nil, or_false] at h
          rcases h with rfl | h | rfl
          · exact hmark "(" (by decide)
          · exact noise remark hremark inner harguments lexeme h
          · exact hmark ")" (by decide)
  · cases hvalue : entry.value with
    | none => simp [hvalue, valueLexemes] at h
    | some tree =>
        rw [hvalue, valueLexemes, List.mem_cons] at h
        rcases h with rfl | h
        · exact mark "=" List.mem_cons_self
        · exact Tree.forall_lexemes (fun text hliteral _ => literal text hliteral)
            (fun text hname => name (String.ofList text) (by simpa using hname)) hmark
            (formed.value tree hvalue) lexeme h

theorem plain_entry {entry : Entry} (formed : entry.Formed) :
    ∀ lexeme ∈ entry.lexemes, lexeme.kind ≠ .directive := by
  refine forall_entry formed (fun _ _ lexeme h => ?_) nofun nofun
    fun remark hremark inner hinner lexeme hlexeme =>
      ((formed.annotations remark hremark).plain inner hinner lexeme hlexeme).1
  rcases (among_literal h).kind with h | h | h <;> simp [h]

theorem onFirstLine_body (entries : List Entry) :
    onFirstLine (bodyLexemes entries) =
      [(Lexeme.mark ",").onLine 1].intercalate
        (entries.map fun entry => onFirstLine entry.lexemes) := by
  rw [bodyLexemes, onFirstLine, Text.map_intercalate, List.map_map]
  rfl

theorem body_entries {entries : List Entry} (formed : ∀ entry ∈ entries, entry.Formed) :
    Declarations.Body (onFirstLine (bodyLexemes entries)) := by
  constructor
  · rw [onFirstLine_body]
    refine .intercalate rfl rfl trivial fun part hpart => ?_
    obtain ⟨entry, hentry, rfl⟩ := List.mem_map.mp hpart
    exact braces_entry (formed entry hentry)
  · intro token htoken
    obtain ⟨lexeme, hlexeme, rfl⟩ := List.mem_map.mp htoken
    rw [bodyLexemes] at hlexeme
    rcases Text.mem_intercalate hlexeme with rfl | ⟨part, hpart, hmem⟩
    · simp [Lexeme.onLine, Lexeme.mark]
    · obtain ⟨entry, hentry, rfl⟩ := List.mem_map.mp hpart
      exact plain_entry (formed entry hentry) lexeme hmem

theorem enumerators_entries {entries : List Entry} (nonempty : entries ≠ [])
    (formed : ∀ entry ∈ entries, entry.Formed) :
    Declarations.enumerators (onFirstLine (bodyLexemes entries)) = entries.map Entry.item := by
  have hsplit : Prototype.splitCommas (onFirstLine (bodyLexemes entries)) =
      entries.map fun entry => onFirstLine entry.lexemes := by
    rw [onFirstLine_body]
    refine Prototype.divides_splitCommas.intercalate _ rfl rfl rfl (by simpa using nonempty) ?_
    intro part hpart
    obtain ⟨entry, hentry, rfl⟩ := List.mem_map.mp hpart
    exact splits_entry (formed entry hentry)
  rw [Declarations.enumerators, hsplit, List.filterMap_map]
  exact (List.filterMap_congr fun entry _ => enumerator?_entry entry).trans
    (congrFun List.filterMap_eq_map' entries)

theorem endBraces_enumeration (tag : Option String) (body : List Token) :
    State.endBraces { State.start with
        pending := (onFirstLine (.word "enum" :: tag.toList.map Lexeme.word)).reverse } body =
      ⟨(onFirstLine (.word "enum" :: tag.toList.map Lexeme.word)).reverse, true, 0, none,
        [.enumeration (Declarations.enumerators body)]⟩ := by
  cases tag with
  | none => rfl
  | some name =>
      simp [State.endBraces, State.emit, State.start, onFirstLine, Token.isPunct, Token.isWord,
        Lexeme.onLine, Lexeme.word]

/-- An enumeration that is all of a header gives one item for each entry. -/
theorem ofTokens?_lexemes (annotations : Annotations) (tag : Option String) {entries : List Entry}
    (nonempty : entries ≠ []) (formed : ∀ entry ∈ entries, entry.Formed) :
    Declarations.ofTokens? annotations (onFirstLine (lexemes tag entries)) =
      .ok [.enumeration (entries.map Entry.item)] := by
  have hparts : onFirstLine (lexemes tag entries) =
      onFirstLine (.word "enum" :: tag.toList.map Lexeme.word) ++
        (Lexeme.mark "\x7b").onLine 1 ::
          (onFirstLine (bodyLexemes entries) ++ [(Lexeme.mark "\x7d").onLine 1]) ++
        [(Lexeme.mark ";").onLine 1] := by
    simp [onFirstLine, lexemes]
  have joins : ∀ token ∈ onFirstLine (.word "enum" :: tag.toList.map Lexeme.word),
      Declarations.Joins token := by
    intro token htoken
    obtain ⟨lexeme, hlexeme, rfl⟩ := List.mem_map.mp htoken
    have hkind : lexeme.kind = .word := by
      cases tag <;> simp at hlexeme <;> rcases hlexeme with rfl | rfl <;> rfl
    exact Declarations.joins_of_kind (by simp [Lexeme.onLine, hkind]) (by simp [Lexeme.onLine, hkind])
  have apart : Declarations.isExternC (onFirstLine (.word "enum" :: tag.toList.map Lexeme.word)) =
      false := by
    cases tag <;> rfl
  rw [Declarations.ofTokens?, hparts, Declarations.run_append,
    Declarations.run_braced State.between_start joins apart (body_entries formed) rfl rfl,
    endBraces_enumeration, enumerators_entries nonempty formed]
  rfl

theorem value_of_seen {entry : Entry} {tree : Tree} (h : entry.seen.value = some tree) :
    entry.value = some tree := by
  rw [Entry.seen] at h
  split at h
  · exact h
  · cases h

theorem seen_of_direct {entry : Entry} (direct : entry.annotations ≠ [] → entry.value = none) :
    entry.seen = entry := by
  obtain ⟨name, annotations, value⟩ := entry
  cases annotations with
  | nil => rfl
  | cons remark annotations =>
      obtain rfl : value = none := direct (by simp)
      rfl

/-- The entries are read as they are seen. -/
theorem reads_items {entries : List Entry} (formed : ∀ entry ∈ entries, entry.Formed) :
    Reads true (entries.map Entry.seen) (entries.map Entry.item) := by
  induction entries with
  | nil => exact .nil
  | cons entry rest ih =>
      rw [List.forall_mem_cons] at formed
      have hrest := ih formed.2
      rw [List.map_cons, List.map_cons, Entry.item]
      cases hvalue : entry.seen.value with
      | none => exact .counted hvalue hrest
      | some tree =>
          have htree := formed.1.value tree (value_of_seen hvalue)
          exact .valued hvalue htree (spaced_spelling tree.lexemes) hrest

end LibSurvey.Enumeration
