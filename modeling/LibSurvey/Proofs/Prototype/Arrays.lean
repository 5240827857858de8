import LibSurvey.Header.Line.Scan
import LibSurvey.Proofs.Prototype.Tokens
import LibSurvey.Proofs.Signature

/-!
Arrays among the parameters of a prototype. The brackets of a size divide no list, whatever stands in
them, but the parameter is read from its end, one bracket after another, and a parenthesis anywhere in
it makes a callback of it. So an array becomes a pointer exactly where no size holds a bracket or a
parenthesis of its own.
-/

namespace LibSurvey

namespace Prototype

variable {annotations : Annotations}

def isBracket (token : Token) : Bool :=
  ["(", ")", "[", "]"].any token.isPunct

/-- Tokens whose parentheses and brackets match. -/
inductive Balanced : List Token → Prop where
  | nil : Balanced []
  | item {token : Token} {rest : List Token} :
      isBracket token = false → Balanced rest → Balanced (token :: rest)
  | group {opening closing : Token} {inner rest : List Token} :
      opening.isPunct "(" = true → closing.isPunct ")" = true →
      Balanced inner → Balanced rest → Balanced (opening :: (inner ++ closing :: rest))
  | index {opening closing : Token} {inner rest : List Token} :
      opening.isPunct "[" = true → closing.isPunct "]" = true →
      Balanced inner → Balanced rest → Balanced (opening :: (inner ++ closing :: rest))

/-- A size of an array, in its brackets. -/
structure ArraySize where
  opening : Token
  inner : List Token
  closing : Token

def ArraySize.tokens (size : ArraySize) : List Token :=
  size.opening :: (size.inner ++ [size.closing])

structure ArraySize.Formed (size : ArraySize) : Prop where
  opens : size.opening.isPunct "[" = true
  closes : size.closing.isPunct "]" = true
  balanced : Balanced size.inner

/-- A parameter that is an array. -/
structure ArrayParam where
  type : List Token
  name : Token
  sizes : List ArraySize

namespace ArrayParam

def tokens (array : ArrayParam) : List Token :=
  array.type ++ array.name :: array.sizes.flatMap ArraySize.tokens

/-- The type is made of words and stars, one word of it is no qualifier, and what follows it is
taken for a name; each of the sizes, one or more, may be anything whose brackets match. -/
structure Formed (array : ArrayParam) : Prop where
  pieces : ∀ token ∈ array.type,
    token.isPunct "*" = true ∨ token.kind = .word ∧ isName token.text.toList = true
  typed : ∃ word ∈ array.type, word.kind = .word ∧ isQualifier word.text = false
  untagged : ∀ last ∈ array.type.getLast?, isTagKeyword last.text = false
  word : array.name.kind = .word
  notKeyword : isTypeKeyword array.name.text = false
  sized : array.sizes ≠ []
  sizes : ∀ size ∈ array.sizes, size.Formed

/-- The parameter as a pointer. -/
def decayed (array : ArrayParam) : Param :=
  ⟨renderType (array.type.map Token.text ++ ["*"]), some array.name.text⟩

/-- No size holds a bracket or a parenthesis. -/
def Flat (array : ArrayParam) : Prop :=
  ∀ size ∈ array.sizes, ∀ token ∈ size.inner, isBracket token = false

end ArrayParam

theorem isBracket_eq_false_iff {token : Token} : isBracket token = false ↔
    token.isPunct "(" = false ∧ token.isPunct ")" = false ∧ token.isPunct "[" = false ∧
      token.isPunct "]" = false := by
  simp [isBracket]

theorem isBracket_of_word {token : Token} (h : token.kind = .word) : isBracket token = false := by
  simp [isBracket, Token.isPunct, h]

theorem isBracket_of_star {token : Token} (h : token.isPunct "*" = true) :
    isBracket token = false :=
  isBracket_eq_false_iff.mpr ⟨Token.isPunct_ne h (by decide), Token.isPunct_ne h (by decide),
    Token.isPunct_ne h (by decide), Token.isPunct_ne h (by decide)⟩

namespace Balanced

variable {tokens : List Token}

theorem append {a b : List Token} (ha : Balanced a) (hb : Balanced b) : Balanced (a ++ b) := by
  induction ha with
  | nil => exact hb
  | item free _ ih => exact .item free ih
  | group opens closes inner _ _ ih =>
      simpa only [List.cons_append, List.append_assoc] using Balanced.group opens closes inner ih
  | index opens closes inner _ _ ih =>
      simpa only [List.cons_append, List.append_assoc] using Balanced.index opens closes inner ih

theorem of_forall (h : ∀ token ∈ tokens, isBracket token = false) : Balanced tokens := by
  induction tokens with
  | nil => exact .nil
  | cons token tokens ih =>
      rw [List.forall_mem_cons] at h
      exact .item h.1 (ih h.2)

/-- No comma divides the tokens where none stands outside brackets; in particular, none does if that
is not asked. -/
theorem level (h : Balanced tokens) : brackets.Level (fun _ => True) tokens := by
  induction h with
  | nil => exact .nil
  | @item token rest free _ ih =>
      obtain ⟨hround, hround', hsquare, hsquare'⟩ := isBracket_eq_false_iff.mp free
      exact .item (by simp [brackets, hround, hsquare]) (by simp [brackets, hround', hsquare'])
        trivial ih
  | @group opening closing _ _ opens closes _ _ ihInner ih =>
      have hround := Token.isPunct_ne closes (b := "(") (by decide)
      have hsquare := Token.isPunct_ne closes (b := "[") (by decide)
      exact .group opening closing (by simp [brackets, opens]) (by simp [brackets, hround, hsquare])
        (by simp [brackets, closes]) ihInner ih
  | @index opening closing _ _ opens closes _ _ ihInner ih =>
      have hround := Token.isPunct_ne closes (b := "(") (by decide)
      have hsquare := Token.isPunct_ne closes (b := "[") (by decide)
      exact .group opening closing (by simp [brackets, opens]) (by simp [brackets, hround, hsquare])
        (by simp [brackets, closes]) ihInner ih

theorem round (h : Balanced tokens) : round.Level (fun _ => True) tokens := by
  induction h with
  | nil => exact .nil
  | item free _ ih =>
      obtain ⟨hopen, hclose, -, -⟩ := isBracket_eq_false_iff.mp free
      exact .item hopen hclose trivial ih
  | group opens closes _ _ ihInner ih =>
      exact .group _ _ opens (Token.isPunct_ne closes (by decide)) closes ihInner ih
  | @index opening closing inner rest opens closes _ _ ihInner ih =>
      have hopening : Prototype.round.Level (fun _ => True) [opening] :=
        .item (Token.isPunct_ne opens (by decide)) (Token.isPunct_ne opens (by decide)) trivial .nil
      have hclosing : Prototype.round.Level (fun _ => True) (closing :: rest) :=
        .item (Token.isPunct_ne closes (by decide)) (Token.isPunct_ne closes (by decide)) trivial ih
      exact hopening.append (ihInner.append hclosing)

/-- Where a bracket or a parenthesis stands, one opens. -/
theorem exists_opening (h : Balanced tokens) (some : ∃ token ∈ tokens, isBracket token = true) :
    (∃ token ∈ tokens, token.isPunct "(" = true) ∨ ∃ token ∈ tokens, token.isPunct "[" = true := by
  induction h with
  | nil => simp at some
  | item free _ ih =>
      obtain ⟨token, htoken, hbracket⟩ := some
      rcases List.mem_cons.mp htoken with rfl | htoken
      · rw [free] at hbracket
        cases hbracket
      · exact (ih ⟨token, htoken, hbracket⟩).imp
          (fun ⟨other, hother, h⟩ => ⟨other, List.mem_cons_of_mem _ hother, h⟩)
          (fun ⟨other, hother, h⟩ => ⟨other, List.mem_cons_of_mem _ hother, h⟩)
  | group opens _ _ _ _ _ => exact .inl ⟨_, List.mem_cons_self, opens⟩
  | index opens _ _ _ _ _ => exact .inr ⟨_, List.mem_cons_self, opens⟩

end Balanced

/-- A bracket opens here, none opens behind it, and one closes there. -/
def EndsOpened (tokens : List Token) : Prop :=
  ∃ before opening after, tokens = before ++ opening :: after ∧ opening.isPunct "[" = true ∧
    (∀ token ∈ after, token.isPunct "[" = false) ∧ ∃ token ∈ after, token.isPunct "]" = true

theorem EndsOpened.behind {tokens : List Token} (h : EndsOpened tokens) (front : List Token) :
    EndsOpened (front ++ tokens) := by
  obtain ⟨before, opening, after, rfl, h⟩ := h
  exact ⟨front ++ before, opening, after, by simp only [List.append_assoc], h⟩

theorem EndsOpened.before {tokens rest : List Token} (h : EndsOpened tokens)
    (hrest : ∀ token ∈ rest, token.isPunct "[" = false) : EndsOpened (tokens ++ rest) := by
  obtain ⟨before, opening, after, rfl, opens, hafter, closing, hclosing, closes⟩ := h
  refine ⟨before, opening, after ++ rest, by simp, opens, ?_, closing,
    List.mem_append_left rest hclosing, closes⟩
  exact fun token htoken => (List.mem_append.mp htoken).elim (hafter token) (hrest token)

/-- Behind the last bracket that opens, one closes. -/
theorem Balanced.endsOpened {tokens : List Token} (h : Balanced tokens)
    (some : ∃ token ∈ tokens, token.isPunct "[" = true) : EndsOpened tokens := by
  -- The last bracket that opens stands as far behind as there is one: in the rest, in the group, or
  -- in front of both.
  induction h with
  | nil => simp at some
  | @item token rest free _ ih =>
      have hrest : ∃ token ∈ rest, token.isPunct "[" = true := by
        simpa [(isBracket_eq_false_iff.mp free).2.2.1] using some
      exact (ih hrest).behind [token]
  | @group opening closing inner rest opens closes _ _ ihInner ih =>
      have hopening : opening.isPunct "[" = false := Token.isPunct_ne opens (by decide)
      have hclosing : closing.isPunct "[" = false := Token.isPunct_ne closes (by decide)
      by_cases hrest : ∃ token ∈ rest, token.isPunct "[" = true
      · simpa using (ih hrest).behind (opening :: (inner ++ [closing]))
      · have hinner : ∃ token ∈ inner, token.isPunct "[" = true := by
          obtain ⟨token, htoken, h⟩ := some
          simp only [List.mem_cons, List.mem_append] at htoken
          rcases htoken with rfl | htoken | rfl | htoken
          · rw [hopening] at h
            cases h
          · exact ⟨token, htoken, h⟩
          · rw [hclosing] at h
            cases h
          · exact absurd ⟨token, htoken, h⟩ hrest
        refine ((ihInner hinner).before ?_).behind [opening]
        exact List.forall_mem_cons.mpr ⟨hclosing, by simpa using hrest⟩
  | @index opening closing inner rest opens closes _ _ ihInner ih =>
      have hclosing : closing.isPunct "[" = false := Token.isPunct_ne closes (by decide)
      by_cases hrest : ∃ token ∈ rest, token.isPunct "[" = true
      · simpa using (ih hrest).behind (opening :: (inner ++ [closing]))
      have hafter : ∀ token ∈ closing :: rest, token.isPunct "[" = false :=
        List.forall_mem_cons.mpr ⟨hclosing, by simpa using hrest⟩
      by_cases hinner : ∃ token ∈ inner, token.isPunct "[" = true
      · exact ((ihInner hinner).before hafter).behind [opening]
      · refine ⟨[], opening, inner ++ closing :: rest, rfl, opens, fun token htoken => ?_, closing,
          by simp, closes⟩
        rcases List.mem_append.mp htoken with htoken | htoken
        · exact Bool.eq_false_iff.mpr fun h => hinner ⟨token, htoken, h⟩
        · exact hafter token htoken

/-- How many more brackets open than close. -/
def excess (tokens : List Token) : Int :=
  tokens.countP (·.isPunct "[") - tokens.countP (·.isPunct "]")

theorem excess_append (a b : List Token) : excess (a ++ b) = excess a + excess b := by
  simp only [excess, List.countP_append]
  omega

theorem excess_reverse (tokens : List Token) : excess tokens.reverse = excess tokens := by
  rw [excess, List.countP_reverse, List.countP_reverse, excess]

theorem excess_opening {opening : Token} (h : opening.isPunct "[" = true) (rest : List Token) :
    excess (opening :: rest) = excess rest + 1 := by
  have hclose : opening.isPunct "]" = false := Token.isPunct_ne h (by decide)
  simp only [excess, List.countP_cons, h, hclose]
  simp
  omega

theorem excess_closing {closing : Token} (h : closing.isPunct "]" = true) (rest : List Token) :
    excess (closing :: rest) = excess rest - 1 := by
  have hopen : closing.isPunct "[" = false := Token.isPunct_ne h (by decide)
  simp only [excess, List.countP_cons, h, hopen]
  simp
  omega

theorem excess_other {token : Token} (opens : token.isPunct "[" = false)
    (closes : token.isPunct "]" = false) (rest : List Token) :
    excess (token :: rest) = excess rest := by
  simp [excess, opens, closes]

theorem excess_nonpos {tokens : List Token} (h : ∀ token ∈ tokens, token.isPunct "[" = false) :
    excess tokens ≤ 0 := by
  have hnone : tokens.countP (·.isPunct "[") = 0 :=
    List.countP_eq_zero.mpr fun token htoken => by simp [h token htoken]
  rw [excess, hnone]
  omega

theorem excess_neg {tokens : List Token} (h : ∀ token ∈ tokens, token.isPunct "[" = false)
    (some : ∃ token ∈ tokens, token.isPunct "]" = true) : excess tokens < 0 := by
  have hnone : tokens.countP (·.isPunct "[") = 0 :=
    List.countP_eq_zero.mpr fun token htoken => by simp [h token htoken]
  have hsome : 0 < tokens.countP (·.isPunct "]") := List.countP_pos_iff.mpr some
  rw [excess, hnone]
  omega

theorem exists_opening_of_excess {tokens : List Token} (h : 0 < excess tokens) :
    ∃ token ∈ tokens, token.isPunct "[" = true := by
  by_contra hnone
  have hnonpos : excess tokens ≤ 0 := excess_nonpos (by simpa using hnone)
  omega

theorem Balanced.excess {tokens : List Token} (h : Balanced tokens) : excess tokens = 0 := by
  induction h with
  | nil => rfl
  | item free _ ih =>
      obtain ⟨-, -, hopen, hclose⟩ := isBracket_eq_false_iff.mp free
      rw [excess_other hopen hclose, ih]
  | group opens closes _ _ ihInner ih =>
      rw [excess_other (Token.isPunct_ne opens (by decide)) (Token.isPunct_ne opens (by decide)),
        excess_append, ihInner,
        excess_other (Token.isPunct_ne closes (by decide)) (Token.isPunct_ne closes (by decide)), ih]
      rfl
  | index opens closes _ _ ihInner ih =>
      rw [excess_opening opens, excess_append, ihInner, excess_closing closes, ih]
      rfl

/-- Each size that is dropped takes one bracket that opens with it, and one that closes or more. -/
theorem excess_dropSizes (reversed : List Token) : excess reversed ≤ excess (dropSizes reversed).1 := by
  fun_induction dropSizes reversed with
  | case1 => exact Int.le_refl _
  | case2 token before closes opening type hdrop ih =>
      have hparts := List.takeWhile_append_dropWhile (p := (!·.isPunct "[")) (l := before)
      rw [hdrop] at hparts
      have hskipped : excess (before.takeWhile (!·.isPunct "[")) ≤ 0 := by
        refine excess_nonpos fun other hother => ?_
        simpa using List.all_eq_true.mp List.all_takeWhile other hother
      have hopening : excess (opening :: type) ≤ excess type + 1 := by
        cases hopen : opening.isPunct "[" with
        | true => rw [excess_opening hopen]
        | false =>
            have hone : excess [opening] ≤ 0 := excess_nonpos (by simpa using hopen)
            have happend := excess_append [opening] type
            rw [List.singleton_append] at happend
            omega
      rw [excess_closing closes, ← hparts, excess_append]
      change _ ≤ excess (dropSizes type).1
      omega
  | case3 => exact Int.le_refl _
  | case4 => exact Int.le_refl _

/-- The last size goes as a whole, if no bracket opens in it. -/
theorem dropSizes_last (front : List Token) {size : ArraySize}
    (opens : size.opening.isPunct "[" = true) (closes : size.closing.isPunct "]" = true)
    (unopened : ∀ token ∈ size.inner, token.isPunct "[" = false) :
    dropSizes (front ++ size.tokens).reverse = ((dropSizes front.reverse).1, true) := by
  have hinner : ∀ token ∈ size.inner.reverse, (!token.isPunct "[") = true :=
    fun token htoken => by simp [unopened token (List.mem_reverse.mp htoken)]
  have hdrop : (size.inner.reverse ++ size.opening :: front.reverse).dropWhile
      (!·.isPunct "[") = size.opening :: front.reverse := by
    rw [List.dropWhile_append_of_pos hinner]
    simp [opens]
  have hreverse : (front ++ size.tokens).reverse =
      size.closing :: (size.inner.reverse ++ size.opening :: front.reverse) := by
    simp [ArraySize.tokens]
  rw [hreverse, dropSizes, if_pos closes]
  split
  · rename_i h
    rw [hdrop] at h
    cases h
    rfl
  · rename_i h
    rw [hdrop] at h
    cases h

/-- If a bracket opens in the last size, the one that opens the size is left. -/
theorem exists_left_last {front : List Token} (level : excess front = 0) {size : ArraySize}
    (formed : size.Formed) (opened : ∃ token ∈ size.inner, token.isPunct "[" = true) :
    ∃ token ∈ (dropSizes (front ++ size.tokens).reverse).1, token.isPunct "[" = true := by
  obtain ⟨before, opening, after, hinner, opens, hafter, closing⟩ :=
    formed.balanced.endsOpened opened
  -- What is dropped ends in the middle of the size.
  have hsize : front ++ size.tokens =
      front ++ size.opening :: before ++ ArraySize.tokens ⟨opening, after, size.closing⟩ := by
    simp [ArraySize.tokens, hinner]
  have hexcess := excess_dropSizes (front ++ size.opening :: before).reverse
  have hbalanced := formed.balanced.excess
  have hnegative := excess_neg hafter closing
  rw [hinner, excess_append, excess_opening opens] at hbalanced
  rw [excess_reverse, excess_append, excess_opening formed.opens, level] at hexcess
  have hdrop := @dropSizes_last (front ++ size.opening :: before) ⟨opening, after, size.closing⟩
    opens formed.closes hafter
  have hpositive : 0 < excess (dropSizes (front ++ size.opening :: before).reverse).1 := by omega
  rw [hsize, hdrop]
  exact exists_opening_of_excess hpositive

theorem excess_sizes {sizes : List ArraySize} (formed : ∀ size ∈ sizes, size.Formed) :
    excess (sizes.flatMap ArraySize.tokens) = 0 := by
  induction sizes with
  | nil => rfl
  | cons size sizes ih =>
      rw [List.forall_mem_cons] at formed
      rw [List.flatMap_cons, excess_append, ih formed.2, ArraySize.tokens,
        excess_opening formed.1.opens, excess_append, formed.1.balanced.excess,
        excess_closing formed.1.closes]
      rfl

/-- What is left of an array where a bracket opens in one of its sizes. -/
theorem exists_left {front : List Token} (level : excess front = 0) {sizes : List ArraySize}
    (formed : ∀ size ∈ sizes, size.Formed)
    (opened : ∃ size ∈ sizes, ∃ token ∈ size.inner, token.isPunct "[" = true) :
    ∃ token ∈ (dropSizes (front ++ sizes.flatMap ArraySize.tokens).reverse).1,
      token.isPunct "[" = true := by
  -- The sizes are dropped from the last one on.
  induction sizes using List.reverseRecOn with
  | nil => simp at opened
  | append_singleton sizes last ih =>
      simp only [List.mem_append, List.mem_singleton] at formed opened
      have hlast := formed last (.inr rfl)
      have hsizes : ∀ size ∈ sizes, size.Formed := fun size hsize => formed size (.inl hsize)
      rw [List.flatMap_append, List.flatMap_singleton, ← List.append_assoc]
      by_cases h : ∃ token ∈ last.inner, token.isPunct "[" = true
      · refine exists_left_last ?_ hlast h
        rw [excess_append, level, excess_sizes hsizes]
        rfl
      · rw [dropSizes_last _ hlast.opens hlast.closes (by simpa using h)]
        obtain ⟨size, hsize | rfl, hopened⟩ := opened
        · exact ih hsizes ⟨size, hsize, hopened⟩
        · exact absurd hopened h

/-- Sizes without brackets are dropped altogether. -/
theorem dropSizes_flat {front : List Token}
    (unclosed : ∀ last ∈ front.getLast?, last.isPunct "]" = false) {sizes : List ArraySize}
    (formed : ∀ size ∈ sizes, size.Formed)
    (flat : ∀ size ∈ sizes, ∀ token ∈ size.inner, token.isPunct "[" = false) :
    dropSizes (front ++ sizes.flatMap ArraySize.tokens).reverse =
      (front.reverse, !sizes.isEmpty) := by
  induction sizes using List.reverseRecOn with
  | nil =>
      rw [List.flatMap_nil, List.append_nil]
      cases h : front.reverse with
      | nil => rw [dropSizes]; rfl
      | cons last before =>
          have hlast : front.getLast? = some last := by
            rw [← List.head?_reverse, h]
            rfl
          rw [dropSizes, if_neg (by simp [unclosed last hlast])]
          rfl
  | append_singleton sizes last ih =>
      simp only [List.mem_append, List.mem_singleton] at formed flat
      have hlast := formed last (.inr rfl)
      rw [List.flatMap_append, List.flatMap_singleton, ← List.append_assoc,
        dropSizes_last _ hlast.opens hlast.closes (flat last (.inr rfl)),
        ih (fun size hsize => formed size (.inl hsize)) (fun size hsize => flat size (.inl hsize))]
      simp

namespace ArrayParam

variable {array : ArrayParam}

theorem Formed.free (formed : array.Formed) : ∀ token ∈ array.type ++ [array.name],
    isBracket token = false := by
  intro token htoken
  rcases List.mem_append.mp htoken with htoken | htoken
  · rcases formed.pieces token htoken with hstar | hword
    · exact isBracket_of_star hstar
    · exact isBracket_of_word hword.1
  · rw [List.mem_singleton.mp htoken]
    exact isBracket_of_word formed.word

theorem tokens_eq (array : ArrayParam) :
    array.tokens = array.type ++ [array.name] ++ array.sizes.flatMap ArraySize.tokens := by
  simp [tokens]

theorem Formed.balanced (formed : array.Formed) : Balanced array.tokens := by
  have hsizes : Balanced (array.sizes.flatMap ArraySize.tokens) := by
    have hall := formed.sizes
    generalize array.sizes = sizes at hall
    induction sizes with
    | nil => exact .nil
    | cons size sizes ih =>
        rw [List.forall_mem_cons] at hall
        have := Balanced.index hall.1.opens hall.1.closes hall.1.balanced (ih hall.2)
        simpa [ArraySize.tokens] using this
  rw [tokens_eq]
  exact (Balanced.of_forall formed.free).append hsizes

theorem Formed.several (formed : array.Formed) : 1 < array.tokens.length := by
  obtain ⟨word, hword, -, -⟩ := formed.typed
  have := List.length_pos_of_mem hword
  rw [tokens, List.length_append, List.length_cons]
  omega

/-- The text of the pointer holds neither a parenthesis nor a bracket. -/
theorem Formed.not_mem_decayed (formed : array.Formed) {c : Char} (hc : c = '(' ∨ c = '[') :
    c ∉ array.decayed.type.toList := by
  intro h
  have hname : isNameChar c = false := by rcases hc with rfl | rfl <;> decide
  have hstar : c ≠ '*' := by rcases hc with rfl | rfl <;> decide
  obtain rfl | ⟨piece, hpiece, hmem⟩ := of_mem_renderType h
  · rcases hc with hc | hc <;> exact absurd hc (by decide)
  have star {text : String} (htext : text = "*") (hmem : c ∈ text.toList) : False := by
    subst htext
    exact hstar (by simpa using hmem)
  rcases List.mem_append.mp hpiece with hpiece | hpiece
  · obtain ⟨token, htoken, rfl⟩ := List.mem_map.mp hpiece
    rcases formed.pieces token htoken with h | h
    · simp only [Token.isPunct, Bool.and_eq_true, decide_eq_true_eq] at h
      exact star h.2 hmem
    · rw [isNameChar_of_isName h.2 hmem] at hname
      cases hname
  · exact star (List.mem_singleton.mp hpiece) hmem

end ArrayParam

theorem mem_text_of_isPunct {token : Token} {c : Char} {text : String}
    (h : token.isPunct text = true) (hc : c ∈ text.toList) : c ∈ token.text.toList := by
  simp only [Token.isPunct, Bool.and_eq_true, decide_eq_true_eq] at h
  rwa [h.2]

/-- A parameter with a parenthesis is a callback, whose type keeps the parenthesis. -/
theorem mem_param_of_group {tokens : List Token} (h : ∃ token ∈ tokens, token.isPunct "(" = true) :
    '(' ∈ (param tokens).type.toList := by
  have hpiece {before after : List String} : "(" ∈ before ++ ["("] ++ after := by simp
  have hchar : '(' ∈ "(".toList := by simp
  unfold param
  split
  · rename_i before opening rest hspan
    have hcallback (inside : List Token) (after : List String) :
        '(' ∈ (callback (before.map Token.text ++ ["("]) inside after).type.toList := by
      unfold callback
      dsimp only
      split
      · refine mem_renderType ?_ hchar
        simp
      · refine mem_renderType ?_ hchar
        simp
    dsimp only
    split
    · exact hcallback _ _
    · exact hcallback _ _
  · rename_i hspan
    obtain ⟨token, htoken, hopen⟩ := h
    rw [List.span_eq_takeWhile_dropWhile, Prod.mk.injEq] at hspan
    have hall := List.takeWhile_append_dropWhile (p := (!·.isPunct "(")) (l := tokens)
    rw [hspan.2, List.append_nil] at hall
    rw [← hall] at htoken
    have := List.all_eq_true.mp List.all_takeWhile token htoken
    rw [hopen] at this
    cases this

/-- A bracket that is left of a parameter stays in its type. -/
theorem mem_plainParam_of_left {tokens : List Token}
    (h : ∃ token ∈ (dropSizes tokens.reverse).1, token.isPunct "[" = true) :
    '[' ∈ (plainParam tokens).type.toList := by
  obtain ⟨token, htoken, hopen⟩ := h
  have hchar : '[' ∈ token.text.toList := mem_text_of_isPunct hopen (by simp)
  unfold plainParam
  generalize dropSizes tokens.reverse = dropped at htoken
  obtain ⟨reversed, decays⟩ := dropped
  dsimp only at htoken ⊢
  have whole (star : List String) :
      token.text ∈ reversed.reverse.map (·.text) ++ star :=
    List.mem_append_left _ (List.mem_map_of_mem (List.mem_reverse.mpr htoken))
  split
  · rename_i last tag head
    split
    · rename_i hnamed
      have hlast : token ≠ last := by
        rintro rfl
        have hkind := Token.kind_of_isPunct hopen
        simp [mayName, hkind] at hnamed
      refine mem_renderType (List.mem_append_left _ (List.mem_map_of_mem ?_)) hchar
      exact List.mem_reverse.mpr ((List.mem_cons.mp htoken).resolve_left hlast)
    · exact mem_renderType (whole _) hchar
  · exact mem_renderType (whole _) hchar

theorem param_unopened {tokens : List Token} (h : ∀ token ∈ tokens, token.isPunct "(" = false)
    (several : 1 < tokens.length) : param tokens = plainParam tokens := by
  have hspan := span_unopened h [] (by simp)
  rw [List.append_nil] at hspan
  unfold param
  rw [hspan]
  dsimp only
  split
  · simp at several
  · rfl

/-- Without brackets in its sizes an array is read as a pointer with its name. -/
theorem param_flat {array : ArrayParam} (formed : array.Formed) (flat : array.Flat) :
    param array.tokens = array.decayed := by
  have unbracketed (token : Token) (htoken : token ∈ array.type ++ [array.name]) :=
    isBracket_eq_false_iff.mp (formed.free token htoken)
  have unopened : ∀ token ∈ array.tokens, token.isPunct "(" = false := by
    intro token htoken
    rw [array.tokens_eq] at htoken
    rcases List.mem_append.mp htoken with htoken | htoken
    · exact (unbracketed token htoken).1
    obtain ⟨size, hsize, htoken⟩ := List.mem_flatMap.mp htoken
    have hformed := formed.sizes size hsize
    simp only [ArraySize.tokens, List.mem_cons, List.mem_append, List.not_mem_nil, or_false] at htoken
    rcases htoken with rfl | htoken | rfl
    · exact Token.isPunct_ne hformed.opens (by decide)
    · exact (isBracket_eq_false_iff.mp (flat size hsize token htoken)).1
    · exact Token.isPunct_ne hformed.closes (by decide)
  obtain ⟨word, hword, hkind, hqualifier⟩ := formed.typed
  obtain ⟨front, tag, htype⟩ := (List.eq_nil_or_concat' array.type).resolve_left
    (List.ne_nil_of_mem hword)
  have hdrop : dropSizes array.tokens.reverse = (array.name :: tag :: front.reverse, true) := by
    have hsized : (!array.sizes.isEmpty) = true := by simpa using formed.sized
    rw [array.tokens_eq, dropSizes_flat ?_ formed.sizes
      fun size hsize token htoken => (isBracket_eq_false_iff.mp (flat size hsize token htoken)).2.2.1,
      hsized, htype]
    · simp
    · intro last hlast
      exact (unbracketed last (List.mem_of_getLast? hlast)).2.2.2
  have hnamed : mayName array.name = true := by simp [mayName, formed.word, formed.notKeyword]
  have htag : isTagKeyword tag.text = false := formed.untagged tag (by simp [htype])
  have htyped : hasTypeWord (tag :: front.reverse) = true := by
    refine List.any_eq_true.mpr ⟨word, ?_, by simp [hkind, hqualifier]⟩
    simpa [htype, or_comm] using hword
  rw [param_unopened unopened formed.several, plainParam, hdrop]
  simp [hnamed, htag, htyped, ArrayParam.decayed, htype]

/-- An array with brackets or parentheses in a size is no pointer of its type. -/
theorem param_not_flat {array : ArrayParam} (formed : array.Formed) (deep : ¬array.Flat) :
    param array.tokens ≠ array.decayed := by
  intro heq
  obtain ⟨size, hsize, hbracket⟩ : ∃ size ∈ array.sizes,
      ∃ token ∈ size.inner, isBracket token = true := by
    simpa [ArrayParam.Flat] using deep
  by_cases hgroup : ∃ token ∈ array.tokens, token.isPunct "(" = true
  · exact formed.not_mem_decayed (.inl rfl) (heq ▸ mem_param_of_group hgroup)
  have unopened : ∀ token ∈ array.tokens, token.isPunct "(" = false := by simpa using hgroup
  have hinner (token : Token) (htoken : token ∈ size.inner) : token ∈ array.tokens := by
    rw [array.tokens_eq, List.mem_append, List.mem_flatMap]
    exact .inr ⟨size, hsize, by simp [ArraySize.tokens, htoken]⟩
  have hopened : ∃ token ∈ size.inner, token.isPunct "[" = true := by
    refine ((formed.sizes size hsize).balanced.exists_opening hbracket).resolve_left ?_
    rintro ⟨token, htoken, hopen⟩
    exact hgroup ⟨token, hinner token htoken, hopen⟩
  have hlevel : excess (array.type ++ [array.name]) = 0 :=
    (Balanced.of_forall formed.free).excess
  have hleft := exists_left hlevel formed.sizes ⟨size, hsize, hopened⟩
  rw [← array.tokens_eq] at hleft
  rw [param_unopened unopened formed.several] at heq
  exact formed.not_mem_decayed (.inr rfl) (heq ▸ mem_plainParam_of_left hleft)

/-- The parameters in a list. -/
def listed (tokens : List Token) : List Param :=
  ((splitCommas tokens).filter (!·.isEmpty)).map param

/-- What may stand before a parameter in a list. -/
inductive Preceding : List Token → Prop where
  | none : Preceding []
  | comma {tokens : List Token} {comma : Token} :
      Balanced tokens → comma.isPunct "," = true → Preceding (tokens ++ [comma])

/-- What may stand behind a parameter in a list. -/
inductive Following : List Token → Prop where
  | none : Following []
  | comma {comma : Token} {tokens : List Token} :
      comma.isPunct "," = true → Balanced tokens → Following (comma :: tokens)

theorem splitCommas_comma {tokens : List Token} (balanced : Balanced tokens) {comma : Token}
    (hcomma : comma.isPunct "," = true) (rest : List Token) :
    splitCommas (tokens ++ comma :: rest) = splitCommas tokens ++ splitCommas rest := by
  have opens : brackets.opens comma = false := by
    simp [brackets, Token.isPunct_ne hcomma (show "," ≠ "(" by decide),
      Token.isPunct_ne hcomma (show "," ≠ "[" by decide)]
  have closes : brackets.closes comma = false := by
    simp [brackets, Token.isPunct_ne hcomma (show "," ≠ ")" by decide),
      Token.isPunct_ne hcomma (show "," ≠ "]" by decide)]
  exact divides_splitCommas.append_mark balanced.level opens closes hcomma [] [] rest

theorem listed_comma {tokens : List Token} (balanced : Balanced tokens) {comma : Token}
    (hcomma : comma.isPunct "," = true) (rest : List Token) :
    listed (tokens ++ comma :: rest) = listed tokens ++ listed rest := by
  rw [listed, splitCommas_comma balanced hcomma, List.filter_append, List.map_append, listed, listed]

theorem balanced_comma {comma : Token} (hcomma : comma.isPunct "," = true) {rest : List Token}
    (balanced : Balanced rest) : Balanced (comma :: rest) := by
  refine .item (isBracket_eq_false_iff.mpr ⟨?_, ?_, ?_, ?_⟩) balanced
  all_goals exact Token.isPunct_ne hcomma (by decide)

theorem Preceding.balanced {tokens : List Token} (h : Preceding tokens) : Balanced tokens := by
  cases h with
  | none => exact .nil
  | comma balanced hcomma => exact balanced.append (balanced_comma hcomma .nil)

theorem Following.balanced {tokens : List Token} (h : Following tokens) : Balanced tokens := by
  cases h with
  | none => exact .nil
  | comma hcomma balanced => exact balanced_comma hcomma balanced

theorem listed_preceding {before : List Token} (h : Preceding before) (rest : List Token) :
    listed (before ++ rest) = listed before ++ listed rest := by
  cases h with
  | none => rfl
  | comma balanced hcomma =>
      rw [List.append_assoc, List.singleton_append, listed_comma balanced hcomma,
        listed_comma balanced hcomma]
      simp [listed, splitCommas, splitCommasFrom]

theorem listed_following {tokens after : List Token} (balanced : Balanced tokens)
    (h : Following after) : listed (tokens ++ after) = listed tokens ++ listed after := by
  cases h with
  | none => simp [listed, splitCommas, splitCommasFrom]
  | @comma comma rest hcomma _ =>
      have hafter : listed (comma :: rest) = listed rest := listed_comma .nil hcomma rest
      rw [listed_comma balanced hcomma, hafter]

/-- No comma divides an array. -/
theorem ArrayParam.Formed.undivided {array : ArrayParam} (formed : array.Formed) :
    brackets.Level (fun token => brackets.divides token = false) array.tokens := by
  have hsizes : brackets.Level (fun token => brackets.divides token = false)
      (array.sizes.flatMap ArraySize.tokens) := by
    refine Brackets.Level.flatMap fun size hsize => ?_
    have hformed := formed.sizes size hsize
    have hround := Token.isPunct_ne hformed.closes (b := "(") (by decide)
    have hsquare := Token.isPunct_ne hformed.closes (b := "[") (by decide)
    exact .group size.opening size.closing (by simp [brackets, hformed.opens])
      (by simp [brackets, hround, hsquare]) (by simp [brackets, hformed.closes])
      hformed.balanced.level .nil
  rw [array.tokens_eq]
  refine Brackets.Level.append (Brackets.Level.of_forall fun token htoken => ?_) hsizes
  obtain ⟨hround, hround', hsquare, hsquare'⟩ := isBracket_eq_false_iff.mp (formed.free token htoken)
  have hcomma : token.isPunct "," = false := by
    rcases List.mem_append.mp htoken with htoken | htoken
    · rcases formed.pieces token htoken with hstar | hword
      · exact Token.isPunct_ne hstar (by decide)
      · simp [Token.isPunct, hword.1]
    · rw [List.mem_singleton.mp htoken]
      simp [Token.isPunct, formed.word]
  simp [brackets, hround, hround', hsquare, hsquare', hcomma]

theorem listed_array {array : ArrayParam} (formed : array.Formed) :
    listed array.tokens = [param array.tokens] := by
  have hsplit : splitCommas array.tokens = [array.tokens] := by
    have := divides_splitCommas.level formed.undivided (Int.le_refl 0) (fun _ _ h => h) [] [] []
    simpa [splitCommas, splitCommasFrom] using this
  have hnonempty : array.tokens ≠ [] := by
    have := formed.several
    rintro h
    simp [h] at this
  simp [listed, hsplit, hnonempty]

/-- The parameters of a function are those of the list between its first parentheses. -/
theorem params_of_ofWords? {head inside after : List Token} {opening closing : Token}
    (unopened : ∀ token ∈ head, token.isPunct "(" = false) (opens : opening.isPunct "(" = true)
    (balanced : Balanced inside) (closes : closing.isPunct ")" = true)
    {name : String} {signature : Signature}
    (h : ofWords? (head ++ opening :: (inside ++ closing :: after)) = some (name, signature)) :
    signature.params = params inside := by
  have hspan := span_unopened unopened (opening :: (inside ++ closing :: after))
    (by rintro token ⟨⟩; exact opens)
  have hclosing : closing? 0 [] (inside ++ closing :: after) = some (inside, after) := by
    rw [closing?_level balanced.round, closing?_cons,
      if_neg (by simp [Token.isPunct_ne closes (show ")" ≠ "(" by decide)]), if_pos closes]
    simp
  unfold ofWords? at h
  rw [hspan] at h
  split at h
  · cases h
  split at h
  · cases h
  dsimp only at h
  rw [hclosing] at h
  split at h
  · rename_i hname hinside
    cases hinside
    split at h
    · cases h
      rfl
    · cases h
  · cases h

/-- The parameters of a recognised prototype are read one by one, and an array among them is read as
a pointer with its name exactly where none of its sizes holds a bracket or a parenthesis. -/
theorem ofStatement?_array {statement head left right after : List Token} {opening closing : Token}
    {array : ArrayParam} {name : String} {signature : Signature}
    (recognised : ofStatement? annotations statement = some (name, signature))
    (words : stripNoise annotations statement =
      head ++ opening :: (left ++ (array.tokens ++ right) ++ closing :: after))
    (unopened : ∀ token ∈ head, token.isPunct "(" = false) (opens : opening.isPunct "(" = true)
    (closes : closing.isPunct ")" = true) (preceding : Preceding left) (formed : array.Formed)
    (following : Following right) :
    ∃ found, signature.params = listed left ++ found :: listed right ∧
      (found = array.decayed ↔ array.Flat) := by
  refine ⟨param array.tokens, ?_, fun heq => ?_, param_flat formed⟩
  · have hbalanced : Balanced (left ++ (array.tokens ++ right)) :=
      preceding.balanced.append (formed.balanced.append following.balanced)
    have several : 1 < (left ++ (array.tokens ++ right)).length := by
      have := formed.several
      simp only [List.length_append]
      omega
    have hlist : params (left ++ (array.tokens ++ right)) =
        listed (left ++ (array.tokens ++ right)) := by
      rw [params, if_neg, listed]
      generalize left ++ (array.tokens ++ right) = inside at several
      rcases inside with _ | ⟨first, _ | ⟨second, rest⟩⟩
      · simp at several
      · simp at several
      · simp [isVoid]
    rw [ofStatement?, words] at recognised
    rw [params_of_ofWords? unopened opens hbalanced closes recognised, hlist,
      listed_preceding preceding, listed_following formed.balanced following, listed_array formed]
    rfl
  · by_contra deep
    exact param_not_flat formed deep heq

/-- A token of a statement on one line. -/
def wordOf (text : String) : Token :=
  (Lexeme.word text).onLine 1

def markOf (text : String) : Token :=
  (Lexeme.mark text).onLine 1

def sizeOf (inner : List Lexeme) : ArraySize :=
  ⟨markOf "[", lineOf inner, markOf "]"⟩

/-- An array of two sizes, one of which is a sum, between two other parameters. -/
theorem ofStatement?_array_sum :
    let array : ArrayParam := ⟨[wordOf "const", wordOf "char", markOf "*"], wordOf "v",
      [sizeOf [.word "N", .mark "+", .number "1"], sizeOf []]⟩
    let left := [wordOf "int", wordOf "a", markOf ","]
    let right := [markOf ",", markOf "..."]
    let statement := [wordOf "extern", wordOf "int", wordOf "f", markOf "("] ++
      (left ++ (array.tokens ++ right) ++ [markOf ")"])
    ofStatement? ⟨[]⟩ statement = some ("f",
        ⟨"int", [⟨"int", some "a"⟩, ⟨"const char**", some "v"⟩, ⟨"...", none⟩]⟩) ∧
      ∃ found, [⟨"int", some "a"⟩, ⟨"const char**", some "v"⟩, ⟨"...", none⟩] =
          listed left ++ found :: listed right ∧ (found = array.decayed ↔ array.Flat) := by
  intro array left right statement
  have recognised : ofStatement? ⟨[]⟩ statement = some ("f",
      ⟨"int", [⟨"int", some "a"⟩, ⟨"const char**", some "v"⟩, ⟨"...", none⟩]⟩) := by
    decide +kernel
  have words : stripNoise ⟨[]⟩ statement = [wordOf "int", wordOf "f"] ++ markOf "(" ::
      (left ++ (array.tokens ++ right) ++ markOf ")" :: []) := by
    decide +kernel
  have preceding : Preceding left :=
    @Preceding.comma [wordOf "int", wordOf "a"] (markOf ",") (.of_forall (by decide)) rfl
  have following : Following right := .comma rfl (.of_forall (by decide))
  have formed : array.Formed := by
    refine ⟨by decide, ⟨wordOf "char", by decide, by decide⟩, by decide, rfl, by decide, by decide,
      fun size hsize => ?_⟩
    have hinner : ∀ size ∈ array.sizes, ∀ token ∈ size.inner, isBracket token = false := by decide
    refine ⟨?_, ?_, .of_forall (hinner size hsize)⟩
    · exact (show ∀ size ∈ array.sizes, size.opening.isPunct "[" = true by decide) size hsize
    · exact (show ∀ size ∈ array.sizes, size.closing.isPunct "]" = true by decide) size hsize
  exact ⟨recognised, ofStatement?_array recognised words (by decide) rfl rfl preceding formed following⟩

/-- A size with parentheses makes a callback of an array, and one with brackets leaves a part of it,
though a reading by lines cuts both at their first bracket. -/
theorem array_misread :
    let measured : ArrayParam := ⟨[wordOf "int"], wordOf "v",
      [sizeOf [.word "sizeof", .mark "(", .word "int", .mark ")"]]⟩
    let indexed : ArrayParam := ⟨[wordOf "int"], wordOf "w",
      [sizeOf [.word "B", .mark "[", .number "1", .mark "]"]]⟩
    let statement := [wordOf "void", wordOf "f", markOf "("] ++
      (measured.tokens ++ markOf "," :: indexed.tokens ++ [markOf ")"])
    let header := "void f(int v[sizeof(int)], int w[B[1]]);".toList
    measured.Formed ∧ indexed.Formed ∧
      Token.ofChars? header = .ok (statement ++ [markOf ";"]) ∧
      ofStatement? ⟨[]⟩ statement = some ("f",
        ⟨"void", [⟨"int v[sizeof (int)]", none⟩, ⟨"int w[*", some "B"⟩]⟩) ∧
      measured.decayed = ⟨"int*", some "v"⟩ ∧ indexed.decayed = ⟨"int*", some "w"⟩ ∧
      Line.scan ⟨[]⟩ header =
        [.function "f" ⟨"void", [measured.decayed, indexed.decayed]⟩] := by
  intro measured indexed statement header
  have hmeasured : Balanced (lineOf [.word "sizeof", .mark "(", .word "int", .mark ")"]) :=
    .item rfl (@Balanced.group _ _ [wordOf "int"] [] rfl rfl (.item rfl .nil) .nil)
  have hindexed : Balanced (lineOf [.word "B", .mark "[", .number "1", .mark "]"]) :=
    .item rfl (@Balanced.index _ _ [(Lexeme.number "1").onLine 1] [] rfl rfl (.item rfl .nil) .nil)
  refine ⟨⟨by decide, ⟨wordOf "int", by decide, by decide⟩, by decide, rfl, by decide, by decide,
      ?_⟩, ⟨by decide, ⟨wordOf "int", by decide, by decide⟩, by decide, rfl, by decide, by decide,
      ?_⟩, ?_⟩
  · rintro size hsize
    rw [List.mem_singleton.mp hsize]
    exact ⟨rfl, rfl, hmeasured⟩
  · rintro size hsize
    rw [List.mem_singleton.mp hsize]
    exact ⟨rfl, rfl, hindexed⟩
  · decide +kernel

end Prototype
end LibSurvey
