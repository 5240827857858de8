import LibSurvey.Proofs.Text.Lines
import LibSurvey.Proofs.Token.Lexeme

/-!
Directives on plain lines. What stands in quotes may hide nothing there, so that a directive is read
up to the end of its line as it stands.
-/

namespace LibSurvey.Token
open Text (PlainLine)

variable {line : Nat} {rest : List Char}

/-- A quoted part of a plain line ends on the line, closed or not. -/
theorem directiveQuote_plain {body : List Char} (plain : PlainLine body) (quote : Char)
    (line : Nat) (seen : List Char) (hrest : LineEnd rest) :
    ∃ quoted after, body = quoted ++ after ∧
      directiveQuote quote line seen (body ++ rest) =
        ⟨quoted.reverse ++ seen, line, after ++ rest⟩ := by
  induction body generalizing seen with
  | nil =>
      refine ⟨[], [], rfl, ?_⟩
      cases rest with
      | nil => rfl
      | cons c rest =>
          obtain rfl : c = '\n' := hrest c rfl
          rfl
  | cons c body ih =>
      have hfeed : c ≠ '\n' := by rintro rfl; exact plain.whole List.mem_cons_self
      have hback : c ≠ '\\' := by rintro rfl; exact plain.unjoined List.mem_cons_self
      have hstep : directiveQuote quote line seen (c :: (body ++ rest)) =
          if c = quote then ⟨c :: seen, line, body ++ rest⟩
          else directiveQuote quote line (c :: seen) (body ++ rest) := by
        rw [directiveQuote] <;> simp [hfeed, hback]
      rw [List.cons_append, hstep]
      split
      · exact ⟨[c], body, rfl, by simp⟩
      · obtain ⟨quoted, after, rfl, h⟩ :=
          ih (plain.part (List.suffix_cons c body).isInfix) (c :: seen)
        exact ⟨c :: quoted, after, rfl, by simpa using h⟩

/-- What follows a character on a plain line does not make a comment of it. -/
theorem not_comment {c d : Char} {body after : List Char} (pair : ¬['/', d] <:+: c :: body)
    (hd : d ≠ '\n') (hrest : LineEnd rest) (hc : c = '/') (h : body ++ rest = d :: after) :
    False := by
  cases body with
  | nil => exact hd (hrest d (by rw [List.nil_append] at h; rw [h]; rfl))
  | cons e body =>
      obtain ⟨rfl, -⟩ := List.cons.inj h
      exact pair (hc ▸ (List.prefix_append ['/', e] body).isInfix)

theorem directive?_cons {c : Char} {body : List Char} (plain : PlainLine (c :: body))
    (seen : List Char) (hrest : LineEnd rest) : directive? line seen (c :: (body ++ rest)) =
      if c = '"' || c = '\'' then
        directive? (directiveQuote c line (c :: seen) (body ++ rest)).line
          (directiveQuote c line (c :: seen) (body ++ rest)).text
          (directiveQuote c line (c :: seen) (body ++ rest)).rest
      else directive? line (c :: seen) (body ++ rest) := by
  have hfeed : c ≠ '\n' := by rintro rfl; exact plain.whole List.mem_cons_self
  have hback : c ≠ '\\' := by rintro rfl; exact plain.unjoined List.mem_cons_self
  rw [directive?]
  · exact hfeed
  · exact fun _ h _ => hback h
  · exact fun _ h _ => hback h
  · exact fun _ h hafter => not_comment plain.noLine (by decide) hrest h hafter
  · exact fun _ h hafter => not_comment plain.noBlock (by decide) hrest h hafter

/-- A plain directive is read up to the end of its line. -/
theorem directive?_plain {body : List Char} (plain : PlainLine body) (line : Nat)
    (seen : List Char) (hrest : LineEnd rest) :
    directive? line seen (body ++ rest) = .ok ⟨body.reverse ++ seen, line, rest⟩ := by
  -- A quoted part is left at once, so the induction is on the length.
  induction hlength : body.length using Nat.strongRecOn generalizing body seen with
  | ind length ih =>
      cases body with
      | nil =>
          cases rest with
          | nil => simp [directive?]
          | cons c rest =>
              obtain rfl : c = '\n' := hrest c rfl
              simp [directive?]
      | cons c body =>
          have hbody := plain.part (List.suffix_cons c body).isInfix
          rw [List.length_cons] at hlength
          rw [List.cons_append, directive?_cons plain seen hrest]
          split
          · obtain ⟨quoted, after, rfl, hquote⟩ :=
              directiveQuote_plain hbody c line (c :: seen) hrest
            rw [List.length_append] at hlength
            rw [hquote]
            have := ih after.length (by omega)
              (hbody.part (List.suffix_append quoted after).isInfix) (quoted.reverse ++ c :: seen) rfl
            simpa using this
          · have := ih body.length (by omega) hbody (c :: seen) rfl
            simpa using this

/-- A directive line is one lexeme, the text after its `#`. -/
theorem reads_directive {gap body : List Char} (hgap : Lexeme.Gap gap) (plain : PlainLine body) :
    Reads (gap ++ '#' :: body) [⟨.directive, String.ofList (Text.trim body)⟩] := by
  intro number count tokens rest hrest room
  have hfront : front? true number '#' (body ++ rest) =
      .ok (.token .directive (Text.trim body) number, rest) := by
    have := directive?_plain plain number [] hrest
    simp [front?, this, Text.isBlank]
  have hroom : count < limit := Nat.lt_of_succ_le (by simpa using room)
  refine ⟨true, ?_⟩
  rw [List.append_assoc, scan_gap hgap, List.cons_append, scan_front, hfront]
  simp [hroom, Lexeme.onLine]

end LibSurvey.Token
