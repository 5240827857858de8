import LibSurvey.Proofs.Text.Reflow
import LibSurvey.Proofs.Token.Cut

/-!
Tokens before another text. Of what follows it, a token only depends on what comes before the first
blank, so it stands as well before a text that shares all of its own such fronts with the first one:
that text may have a blank where the first one goes on.
-/

namespace LibSurvey

namespace Text

/-- Up to its first blank, `other` begins with nothing that `rest` does not begin with. -/
def Shares (rest other : List Char) : Prop :=
  ∀ front, (∀ c ∈ front, isBlank c = false) → front <+: other → front <+: rest

variable {rest other : List Char}

theorem Shares.trans {last : List Char} (h : Shares rest other) (h' : Shares other last) :
    Shares rest last :=
  fun front solid hfront => h front solid (h' front solid hfront)

theorem Shares.cons (h : Shares rest other) (c : Char) : Shares (c :: rest) (c :: other) := by
  intro front solid hfront
  cases front with
  | nil => exact List.nil_prefix
  | cons d front =>
      obtain ⟨rfl, hrest⟩ := List.cons_prefix_cons.mp hfront
      exact List.cons_prefix_cons.mpr
        ⟨rfl, h front (fun e he => solid e (List.mem_cons_of_mem d he)) hrest⟩

theorem Shares.append (h : Shares rest other) (text : List Char) :
    Shares (text ++ rest) (text ++ other) := by
  induction text with
  | nil => exact h
  | cons c text ih => exact ih.cons c

/-- A text that begins with a blank, if at all, shares its fronts with every text. -/
theorem shares_blank (h : ∀ c ∈ other.head?, isBlank c = true) (rest : List Char) :
    Shares rest other := by
  intro front solid hfront
  cases front with
  | nil => exact List.nil_prefix
  | cons c front =>
      obtain ⟨more, rfl⟩ := hfront
      exact absurd rfl (ne_of_isBlank (h c rfl) (solid c List.mem_cons_self))

theorem shares_refl (rest : List Char) : Shares rest rest :=
  fun _ _ => id

theorem shares_reflow (h : Reflow rest other) : Shares rest other := by
  induction h with
  | nil => exact shares_refl []
  | @keep c _ _ _ ih => exact ih.cons c
  | @gap x y a b _ hy _ nonempty _ _ =>
      obtain ⟨c, y, rfl⟩ := List.exists_cons_of_ne_nil nonempty
      exact shares_blank (by simp [hy c List.mem_cons_self]) (x ++ a)

/-- Blanks at the end count for nothing. -/
theorem shares_append_blanks (text : List Char) {blanks : List Char} (h : Blanks blanks) :
    Shares text (text ++ blanks) := by
  have hend : Shares [] blanks := shares_blank (fun c hc => h c (List.mem_of_mem_head? hc)) []
  have := hend.append text
  rwa [List.append_nil] at this

theorem Shares.of_trimRight (h : Shares (trimRight rest) other) : Shares rest other := by
  obtain ⟨blanks, -, htext⟩ := trimRight_append_end rest
  intro front solid hfront
  rw [← htext]
  exact (h front solid hfront).trans (List.prefix_append _ blanks)

theorem Shares.head? (h : Shares rest other) {c : Char} (solid : isBlank c = false)
    (hc : c ∈ other.head?) : c ∈ rest.head? := by
  obtain ⟨more, rfl⟩ := List.head?_eq_some_iff.mp hc
  obtain ⟨after, rfl⟩ := h [c] (List.forall_mem_singleton.mpr solid) (List.prefix_append [c] more)
  rfl

/-- What stops before the one text stops before the other, or at a blank. -/
theorem Shares.stops (h : Shares rest other) {p : Char → Bool}
    (hblank : ∀ c, isBlank c = true → p c = false) (stops : ∀ c ∈ rest.head?, p c = false) :
    ∀ c ∈ other.head?, p c = false := by
  intro c hc
  cases hsolid : isBlank c with
  | true => exact hblank c hsolid
  | false => exact stops c (h.head? hsolid hc)

end Text

namespace Token
open Text (Shares)

variable {rest other : List Char}

/-- A mark is as long before the other text. -/
theorem punct_shares {c : Char} (h : Shares (punct c rest).2 other) :
    ∃ more, punct c more = ((punct c rest).1, other) ∧ Shares rest more := by
  revert h
  unfold punct
  split
  · exact fun h => ⟨['.', '.'] ++ other, rfl, h.append ['.', '.']⟩
  · exact fun h => ⟨'#' :: other, rfl, h.cons '#'⟩
  · exact fun h => ⟨'<' :: other, rfl, h.cons '<'⟩
  · exact fun h => ⟨'>' :: other, rfl, h.cons '>'⟩
  · exact fun h => ⟨'>' :: other, rfl, h.cons '>'⟩
  · exact fun h => ⟨':' :: other, rfl, h.cons ':'⟩
  · rename_i hdots hhash hleft hright harrow hcolon
    intro h
    refine ⟨other, ?_, h⟩
    split
    · obtain ⟨more, rfl⟩ := h ['.', '.'] (by simp [Text.isBlank]) ⟨_, rfl⟩
      exact (hdots more rfl rfl).elim
    · obtain ⟨more, rfl⟩ := h ['#'] (by simp [Text.isBlank]) ⟨_, rfl⟩
      exact (hhash more rfl rfl).elim
    · obtain ⟨more, rfl⟩ := h ['<'] (by simp [Text.isBlank]) ⟨_, rfl⟩
      exact (hleft more rfl rfl).elim
    · obtain ⟨more, rfl⟩ := h ['>'] (by simp [Text.isBlank]) ⟨_, rfl⟩
      exact (hright more rfl rfl).elim
    · obtain ⟨more, rfl⟩ := h ['>'] (by simp [Text.isBlank]) ⟨_, rfl⟩
      exact (harrow more rfl rfl).elim
    · obtain ⟨more, rfl⟩ := h [':'] (by simp [Text.isBlank]) ⟨_, rfl⟩
      exact (hcolon more rfl rfl).elim
    · rfl

theorem startsNumber_shares (h : Shares rest other) {c : Char}
    (unnumbered : startsNumber c rest = false) : startsNumber c other = false := by
  simp only [startsNumber, Bool.or_eq_false_iff, Bool.and_eq_false_imp,
    decide_eq_true_eq] at unnumbered ⊢
  refine ⟨unnumbered.1, fun hdot => ?_⟩
  cases hhead : other.head? with
  | none => rfl
  | some d =>
      refine Bool.eq_false_iff.mpr fun hdigit => ?_
      have hsolid : Text.isBlank d = false := by
        refine isBlank_of_isNumberChar ?_
        have hd : d.isDigit = true := hdigit
        simp [isNumberChar, Char.isAlphanum, hd]
      have hfalse := unnumbered.2 hdot
      rw [h.head? hsolid hhead, hdigit] at hfalse
      exact Bool.noConfusion hfalse

/-- A token that stands before one text stands before another that shares its fronts. A `#` may
begin a directive there, and a backslash may join two lines. -/
theorem Stands.shares {start start' : Bool} {kind : Kind} {text : List Char}
    (stands : Stands start kind text rest) (h : Shares rest other) (noHash : '#' ∉ text)
    (noBackslash : '\\' ∉ text) : Stands start' kind text other := by
  cases stands with
  | word hname ends => exact .word hname (h.stops (fun _ => isNameChar_of_isBlank) ends)
  | number hnumber ends =>
      refine .number hnumber (h.stops (fun c hc => Bool.eq_false_iff.mpr fun hnumber => ?_) ends)
      rw [isBlank_of_isNumberChar hnumber] at hc
      exact Bool.noConfusion hc
  | string hliteral => exact .string hliteral
  | character hliteral => exact .character hliteral
  | @mark c rest hmark =>
      obtain ⟨more, hpunct, hmore⟩ := punct_shares h
      have hmem : c ∈ (punct c rest).1 := by
        obtain ⟨d, more, htext⟩ := List.exists_cons_of_ne_nil (punct_ne_nil c rest)
        have hparts := (punct_parts c rest).1
        rw [htext] at hparts ⊢
        rw [(List.cons.inj hparts).1]
        exact List.mem_cons_self
      have begins : BeginsMark start' c more :=
        { solid := hmark.solid
          unquoted := hmark.unquoted
          unnamed := hmark.unnamed
          unnumbered := startsNumber_shares hmore hmark.unnumbered
          unjoined := fun hc => absurd (hc ▸ hmem) noBackslash
          uncommented := fun hc =>
            ⟨fun hhead => (hmark.uncommented hc).1 (hmore.head? (by decide) hhead),
              fun hhead => (hmark.uncommented hc).2 (hmore.head? (by decide) hhead)⟩
          undirected := fun hc => absurd (hc ▸ hmem) noHash }
      have := Stands.mark begins
      rwa [hpunct] at this

end Token
end LibSurvey
