import LibSurvey.Proofs.Constant.Literal
import LibSurvey.Proofs.Text.Front
import LibSurvey.Proofs.Text.Lines
import LibSurvey.Proofs.Word
import Mathlib.Data.List.Forall2
import Mathlib.Data.Nat.Digits.Defs
import Mathlib.Tactic.IntervalCases

/-!
Which texts are integer literals, and of what value. A literal is a sign or none, blanks, the mark of a
base, digits of that base and a suffix; it is read if and only if its value is one that its base
allows. What is printed in any of the bases is therefore read back.
-/

namespace LibSurvey.Literal
open Text (Blanks)

inductive Base where
  | decimal
  | hexadecimal
  | binary
deriving DecidableEq, Repr

namespace Base

def radix : Base → Nat
  | .decimal => 10
  | .hexadecimal => 16
  | .binary => 2

/-- What may stand before the digits. -/
def marks : Base → List (List Char)
  | .decimal => [[]]
  | .hexadecimal => [['0', 'x'], ['0', 'X']]
  | .binary => [['0', 'b'], ['0', 'B']]

/-- A magnitude with a sign has this value: a decimal one as a number that fits, others as a pattern of
64 bits or its negation. -/
def Gives (base : Base) (negative : Bool) (magnitude : Nat) (v : Int64) : Prop :=
  match base with
  | .decimal => v.toInt = if negative then -(magnitude : Int) else magnitude
  | .hexadecimal | .binary =>
    magnitude < 2 ^ 64 ∧
      v.toBitVec = if negative then -BitVec.ofNat 64 magnitude else BitVec.ofNat 64 magnitude

end Base

/-- A digit and its value; letters may be of either case. -/
def IsDigit (radix : Nat) (c : Char) (n : Nat) : Prop :=
  n < radix ∧ (c = n.digitChar ∨ c = n.digitChar.toUpper)

/-- One digit or more, the most significant first, and the number they stand for. -/
def Numeral (radix : Nat) (digits : List Char) (n : Nat) : Prop :=
  digits ≠ [] ∧ ∃ values, List.Forall₂ (IsDigit radix) digits values ∧
    n = Nat.ofDigits radix values.reverse

def IsSuffix (text : List Char) : Prop :=
  ∀ c ∈ text, c ∈ ['u', 'U', 'l', 'L']

instance (text : List Char) : Decidable (IsSuffix text) :=
  inferInstanceAs (Decidable (∀ c ∈ text, c ∈ ['u', 'U', 'l', 'L']))

def signs (negative : Bool) : List (List Char) :=
  if negative then [['-']] else [[], ['+']]

/-- Digits with the mark of their base. -/
def Marked (base : Base) (text : List Char) (magnitude : Nat) : Prop :=
  ∃ mark ∈ base.marks, ∃ digits, Numeral base.radix digits magnitude ∧ text = mark ++ digits

/-- The text of a literal, blanks around it apart. -/
def Spelled (text : List Char) (negative : Bool) (base : Base) (magnitude : Nat) : Prop :=
  ∃ sign ∈ signs negative, ∃ gap body suffix, Blanks gap ∧ Marked base body magnitude ∧
    IsSuffix suffix ∧ Text.trim text = sign ++ (gap ++ (body ++ suffix))

variable {radix n : Nat} {c : Char} {digits : List Char} {negative : Bool} {v : Int64}

theorem Base.radix_le (base : Base) : base.radix ≤ 16 := by
  cases base <;> decide

theorem digitValue_of_isDigit (h : IsDigit radix c n) (small : radix ≤ 16) : digitValue c = n := by
  obtain ⟨hn, hc⟩ := h
  have hlt : n < 16 := by omega
  interval_cases n <;> rcases hc with rfl | rfl <;> decide

/-- The digits of all bases stand in three runs of characters. -/
theorem toNat_of_digitValue (h : digitValue c < 16) :
    (digitValue c < 10 ∧ c.toNat = digitValue c + 48) ∨
      (10 ≤ digitValue c ∧ (c.toNat = digitValue c + 87 ∨ c.toNat = digitValue c + 55)) := by
  unfold digitValue at h ⊢
  split
  · have hrange := toNat_of_isDigit ‹c.isDigit = true›
    have hzero : '0'.toNat = 48 := rfl
    omega
  split
  · have hlow : 97 ≤ c.toNat := of_decide_eq_true (Bool.and_eq_true_iff.mp ‹_›).1
    have ha : 'a'.toNat = 97 := rfl
    omega
  split
  · have hlow : 65 ≤ c.toNat := of_decide_eq_true (Bool.and_eq_true_iff.mp ‹_›).1
    have ha : 'A'.toNat = 65 := rfl
    omega
  · simp_all

theorem isDigit_digitValue (h : digitValue c < radix) (small : radix ≤ 16) :
    IsDigit radix c (digitValue c) := by
  refine ⟨h, ?_⟩
  have hlt : digitValue c < 16 := by omega
  have hchar := Char.ofNat_toNat c
  rcases toNat_of_digitValue hlt with ⟨hlow, hc⟩ | ⟨hlow, hc | hc⟩
  all_goals
    generalize digitValue c = k at hlow hlt hc ⊢
    rw [← hchar, hc]
    interval_cases k <;> decide

theorem forall₂_isDigit_iff (small : radix ≤ 16) {values : List Nat} :
    List.Forall₂ (IsDigit radix) digits values ↔
      (∀ c ∈ digits, isDigitIn radix c = true) ∧ values = digits.map digitValue := by
  simp only [isDigitIn, decide_eq_true_eq]
  constructor
  · intro h
    induction h with
    | nil => simp
    | cons hc _ ih =>
        have hvalue := digitValue_of_isDigit hc small
        simpa [hvalue, hc.1] using ih
  · rintro ⟨hdigits, rfl⟩
    rw [List.forall₂_map_right_iff, List.forall₂_same]
    exact fun c hc => isDigit_digitValue (hdigits c hc) small

theorem digitsValue_eq_ofDigits (radix : Nat) (digits : List Char) :
    digitsValue radix digits = Nat.ofDigits radix (digits.map digitValue).reverse := by
  rw [Nat.ofDigits_eq_foldr, List.foldr_reverse, List.foldl_map, digitsValue]
  congr 1
  funext value c
  simp [Nat.mul_comm, Nat.add_comm]

theorem numeral_iff (small : radix ≤ 16) : Numeral radix digits n ↔
    (digits.isEmpty || !digits.all (isDigitIn radix)) = false ∧ n = digitsValue radix digits := by
  simp [Numeral, forall₂_isDigit_iff small, digitsValue_eq_ofDigits, and_assoc]

theorem magnitude?_eq_some_iff (small : radix ≤ 16) :
    magnitude? radix digits = some n ↔ Numeral radix digits n ∧ n < 2 ^ 64 := by
  have hsize : UInt64.size = 2 ^ 64 := rfl
  rw [numeral_iff small, magnitude?, hsize]
  cases digits.isEmpty || !digits.all (isDigitIn radix) with
  | true => simp
  | false =>
      simp only [Bool.false_eq_true, ite_false, true_and, Option.ite_none_right_eq_some,
        Option.some.injEq]
      constructor
      · rintro ⟨hlt, rfl⟩
        exact ⟨rfl, hlt⟩
      · rintro ⟨rfl, hlt⟩
        exact ⟨hlt, rfl⟩

theorem pattern?_eq_some_iff (small : radix ≤ 16) :
    pattern? radix negative digits = some v ↔ ∃ n, Numeral radix digits n ∧ n < 2 ^ 64 ∧
      v.toBitVec = if negative then -BitVec.ofNat 64 n else BitVec.ofNat 64 n := by
  simp only [pattern?, Option.map_eq_some_iff, magnitude?_eq_some_iff small, and_assoc,
    ← Int64.toBitVec_inj]
  refine exists_congr fun n => and_congr_right fun _ => and_congr_right fun _ => ?_
  rw [eq_comm]
  cases negative <;> rfl

theorem decimal?_eq_some_iff :
    decimal? negative digits = some v ↔ ∃ n, Numeral 10 digits n ∧
      v.toInt = if negative then -(n : Int) else n := by
  have hmin : Int64.minValue.toInt = -2 ^ 63 := by decide
  have hmax : Int64.maxValue.toInt = 2 ^ 63 - 1 := by decide
  have hlow : -2 ^ 63 ≤ v.toInt := Int64.le_toInt v
  have hhigh : v.toInt < 2 ^ 63 := Int64.toInt_lt v
  simp only [decimal?, Option.bind_eq_some_iff, magnitude?_eq_some_iff (show 10 ≤ 16 by decide),
    and_assoc, hmin, hmax]
  refine exists_congr fun n => and_congr_right fun _ => ?_
  generalize hsigned : (if negative then -(n : Int) else n) = signed
  have habs : signed.natAbs = n := by
    rw [← hsigned]
    split <;> simp
  constructor
  · rintro ⟨-, h⟩
    split at h
    · rename_i hrange
      simp only [Bool.and_eq_true, decide_eq_true_eq] at hrange
      obtain rfl := Option.some.inj h
      exact Int64.toInt_ofInt_of_le hrange.1 (by omega)
    · cases h
  · rintro rfl
    refine ⟨by omega, ?_⟩
    rw [if_pos (by simp only [Bool.and_eq_true, decide_eq_true_eq]; omega), Int64.ofInt_toInt]

theorem isDigitIn_of_numeral (small : radix ≤ 16) (h : Numeral radix digits n) (hc : c ∈ digits) :
    isDigitIn radix c = true := by
  obtain ⟨-, values, hvalues, -⟩ := h
  exact ((forall₂_isDigit_iff small).mp hvalues).1 c hc

/-- A text without sign and suffix has a value if it is a marked numeral whose base gives it one. -/
theorem unsuffixed?_eq_some_iff {text : List Char} :
    unsuffixed? negative text = some v ↔
      ∃ base n, Marked base text n ∧ base.Gives negative n v := by
  constructor
  · intro h
    have patterned (base : Base) (hbase : base ≠ .decimal) (mark : List Char) {rest : List Char}
        (hmark : mark ∈ base.marks) (h : pattern? base.radix negative rest = some v) :
        ∃ base n, Marked base (mark ++ rest) n ∧ base.Gives negative n v := by
      obtain ⟨n, hn, hv⟩ := (pattern?_eq_some_iff base.radix_le).mp h
      refine ⟨base, n, ⟨mark, hmark, rest, hn, rfl⟩, ?_⟩
      cases base with
      | decimal => exact absurd rfl hbase
      | hexadecimal | binary => exact hv
    unfold unsuffixed? at h
    split at h
    · exact patterned .hexadecimal (by decide) ['0', 'x'] (by decide) h
    · exact patterned .hexadecimal (by decide) ['0', 'X'] (by decide) h
    · exact patterned .binary (by decide) ['0', 'b'] (by decide) h
    · exact patterned .binary (by decide) ['0', 'B'] (by decide) h
    · obtain ⟨n, hn, hv⟩ := decimal?_eq_some_iff.mp h
      exact ⟨.decimal, n, ⟨[], by decide, text, hn, rfl⟩, hv⟩
  · rintro ⟨base, n, ⟨mark, hmark, digits, hn, rfl⟩, hv⟩
    cases base with
    | decimal =>
        obtain rfl : mark = [] := by simpa [Base.marks] using hmark
        have hdigits : ∀ c ∈ digits, isDigitIn 10 c = true :=
          fun c hc => isDigitIn_of_numeral (by decide) hn hc
        have hdecimal := decimal?_eq_some_iff.mpr ⟨n, hn, hv⟩
        -- The marks of the other bases end in letters, which are no decimal digits.
        have unmarked {c : Char} {rest : List Char} (letter : isDigitIn 10 c = false)
            (h : [] ++ digits = '0' :: c :: rest) : False := by
          have hc := hdigits c (by rw [← List.nil_append digits, h]; simp)
          rw [letter] at hc
          exact Bool.noConfusion hc
        unfold unsuffixed?
        split
        case h_5 => exact hdecimal
        all_goals
          rename_i hmarked
          exact (unmarked (by decide) hmarked).elim
    | hexadecimal =>
        have hpattern := (pattern?_eq_some_iff (show 16 ≤ 16 by decide)).mpr ⟨n, hn, hv⟩
        simp only [Base.marks, List.mem_cons, List.not_mem_nil, or_false] at hmark
        rcases hmark with rfl | rfl <;> exact hpattern
    | binary =>
        have hpattern := (pattern?_eq_some_iff (show 2 ≤ 16 by decide)).mpr ⟨n, hn, hv⟩
        simp only [Base.marks, List.mem_cons, List.not_mem_nil, or_false] at hmark
        rcases hmark with rfl | rfl <;> exact hpattern

theorem isSuffix_iff {text : List Char} : IsSuffix text ↔ ∀ c ∈ text, isSuffixChar c = true := by
  simp [IsSuffix, isSuffixChar, or_assoc]

theorem isSuffixChar_of_isDigitIn (small : radix ≤ 16) (h : isDigitIn radix c = true) :
    isSuffixChar c = false := by
  refine Bool.eq_false_iff.mpr fun hc => ?_
  simp only [isSuffixChar, Bool.or_eq_true, decide_eq_true_eq] at hc
  have hlt : digitValue c < 16 := Nat.lt_of_lt_of_le (of_decide_eq_true h) small
  rcases hc with ((rfl | rfl) | rfl) | rfl <;> exact absurd hlt (by decide)

theorem dropLastWhile_suffix {base : Base} {body suffix : List Char} (hbody : Marked base body n)
    (hsuffix : IsSuffix suffix) : Text.dropLastWhile isSuffixChar (body ++ suffix) = body := by
  obtain ⟨mark, -, digits, hdigits, rfl⟩ := hbody
  obtain ⟨front, last, rfl⟩ := List.eq_nil_or_concat digits |>.resolve_left hdigits.1
  have hlast := isSuffixChar_of_isDigitIn base.radix_le
    (isDigitIn_of_numeral base.radix_le hdigits (by simp : last ∈ front.concat last))
  have hsuffix : ∀ c ∈ suffix.reverse, isSuffixChar c = true :=
    fun c hc => isSuffix_iff.mp hsuffix c (List.mem_reverse.mp hc)
  rw [Text.dropLastWhile, List.reverse_append, Text.dropWhile_front hsuffix (by simpa using hlast),
    List.reverse_reverse]

theorem isDigit_of_isDigitIn (h : isDigitIn 10 c = true) : c.isDigit = true := by
  have hlt : digitValue c < 10 := of_decide_eq_true h
  unfold digitValue at hlt
  split at hlt
  · assumption
  · split at hlt
    · omega
    split at hlt <;> omega

theorem head_marked {base : Base} {body : List Char} (h : Marked base body n) :
    ∃ c rest, body = c :: rest ∧ c.isDigit = true := by
  obtain ⟨mark, hmark, digits, hdigits, rfl⟩ := h
  cases base with
  | decimal =>
      obtain rfl : mark = [] := by simpa [Base.marks] using hmark
      obtain ⟨c, rest, rfl⟩ := List.exists_cons_of_ne_nil hdigits.1
      exact ⟨c, rest, rfl,
        isDigit_of_isDigitIn (isDigitIn_of_numeral (by decide) hdigits List.mem_cons_self)⟩
  | hexadecimal | binary =>
      simp only [Base.marks, List.mem_cons, List.not_mem_nil, or_false] at hmark
      rcases hmark with rfl | rfl <;> exact ⟨_, _, rfl, by decide⟩

/-- A sign and the blanks after it are taken off the front of a text. -/
theorem splitSign_spec (text : List Char) : ∃ sign ∈ signs (splitSign text).1, ∃ gap, Blanks gap ∧
    text = sign ++ (gap ++ (splitSign text).2) := by
  have front (rest : List Char) : ∃ gap, Blanks gap ∧ rest = gap ++ Text.trimLeft rest :=
    ⟨rest.takeWhile Text.isBlank, List.all_eq_true.mp List.all_takeWhile,
      List.takeWhile_append_dropWhile.symm⟩
  unfold splitSign
  split
  · rename_i rest
    obtain ⟨gap, hgap, hrest⟩ := front rest
    exact ⟨['-'], by simp [signs], gap, hgap, congrArg ('-' :: ·) hrest⟩
  · rename_i rest
    obtain ⟨gap, hgap, hrest⟩ := front rest
    exact ⟨['+'], by simp [signs], gap, hgap, congrArg ('+' :: ·) hrest⟩
  · exact ⟨[], by simp [signs], [], by simp [Blanks], rfl⟩

theorem trimLeft_digit (h : c.isDigit = true) (rest : List Char) :
    Text.trimLeft (c :: rest) = c :: rest := by
  have hblank : Text.isBlank c = false :=
    isBlank_of_isNameChar (by simp [isNameChar, Char.isAlphanum, h])
  simp [Text.trimLeft, hblank]

theorem splitSign_append {sign gap : List Char} {c : Char} (hsign : sign ∈ signs negative)
    (hgap : Blanks gap) (attached : sign = [] → gap = []) (hdigit : c.isDigit = true)
    (rest : List Char) :
    splitSign (sign ++ (gap ++ c :: rest)) = (negative, c :: rest) := by
  have htrim : Text.trimLeft (gap ++ c :: rest) = c :: rest := by
    rw [Text.trimLeft_blanks_append hgap, trimLeft_digit hdigit]
  have hminus : c ≠ '-' := by rintro rfl; exact absurd hdigit (by decide)
  have hplus : c ≠ '+' := by rintro rfl; exact absurd hdigit (by decide)
  cases negative with
  | true =>
      obtain rfl : sign = ['-'] := by simpa [signs] using hsign
      simp [splitSign, htrim]
  | false =>
      have hcases : sign = [] ∨ sign = ['+'] := by simpa [signs] using hsign
      rcases hcases with rfl | rfl
      · rw [attached rfl]
        simp [splitSign, hminus, hplus]
      · simp [splitSign, htrim]

theorem ofChars?_eq_some_iff_spelled {text : List Char} : ofChars? text = some v ↔
    ∃ negative base n, Spelled text negative base n ∧ base.Gives negative n v := by
  constructor
  · intro h
    obtain ⟨sign, hsign, gap, hgap, htext⟩ := splitSign_spec (Text.trim text)
    simp only [ofChars?] at h
    split at h
    case isFalse => cases h
    obtain ⟨base, n, hmarked, hv⟩ := unsuffixed?_eq_some_iff.mp h
    obtain ⟨suffix, hsuffix, hbody⟩ :=
      Text.dropLastWhile_append_end isSuffixChar (splitSign (Text.trim text)).2
    rw [← hbody] at htext
    exact ⟨_, base, n, ⟨sign, hsign, gap, _, suffix, hgap, hmarked, isSuffix_iff.mpr hsuffix, htext⟩,
      hv⟩
  · rintro ⟨negative, base, n, ⟨sign, hsign, gap, body, suffix, hgap, hmarked, hsuffix, htext⟩, hv⟩
    obtain ⟨c, rest, hbody, hdigit⟩ := head_marked hmarked
    -- Without a sign the text begins with its first digit, since it is trimmed.
    have attached : sign = [] → gap = [] := by
      rintro rfl
      have htrimmed : Text.trimLeft (Text.trim text) = Text.trim text := by
        rw [← Text.trim_eq_trimLeft (Text.trimRight_trim text), Text.trim_trim]
      rw [htext, List.nil_append, Text.trimLeft_blanks_append hgap, hbody, List.cons_append,
        trimLeft_digit hdigit] at htrimmed
      exact List.self_eq_append_left.mp htrimmed
    have hsplit := splitSign_append hsign hgap attached hdigit (rest ++ suffix)
    rw [← List.cons_append, ← hbody, ← htext] at hsplit
    have hhead : ((body ++ suffix).head?.map Char.isDigit).getD false = true := by
      rw [hbody]
      exact hdigit
    simp only [ofChars?, hsplit, hhead, ite_true]
    rw [dropLastWhile_suffix hmarked hsuffix]
    exact unsuffixed?_eq_some_iff.mpr ⟨base, n, hmarked, hv⟩

theorem numeral_toDigits (small : radix ≤ 16) (two : 1 < radix) (n : Nat) :
    Numeral radix (Nat.toDigits radix n) n := by
  refine ⟨Nat.toDigits_ne_nil, ?_⟩
  induction n using Nat.strongRecOn with
  | ind n ih =>
      by_cases hn : n < radix
      · rw [Nat.toDigits_of_lt_base hn]
        exact ⟨[n], .cons ⟨hn, .inl rfl⟩ .nil, by simp⟩
      · obtain ⟨values, hvalues, hdiv⟩ := ih (n / radix) (Nat.div_lt_self (by omega) two)
        rw [Nat.toDigits_of_base_le two (by omega)]
        have hlast : IsDigit radix (n % radix).digitChar (n % radix) :=
          ⟨Nat.mod_lt n (by omega), .inl rfl⟩
        refine ⟨values ++ [n % radix], List.rel_append hvalues (.cons hlast .nil), ?_⟩
        rw [List.reverse_append, List.reverse_singleton, List.singleton_append, Nat.ofDigits_cons,
          ← hdiv]
        simpa using (Nat.mod_add_div n radix).symm

theorem isDigit_toUpper (small : radix ≤ 16) (h : IsDigit radix c n) :
    IsDigit radix c.toUpper n := by
  obtain ⟨hn, hc⟩ := h
  refine ⟨hn, .inr ?_⟩
  have hlt : n < 16 := by omega
  interval_cases n <;> rcases hc with rfl | rfl <;> decide

theorem Numeral.toUpper (small : radix ≤ 16) (h : Numeral radix digits n) :
    Numeral radix (digits.map Char.toUpper) n := by
  obtain ⟨nonempty, values, hvalues, hn⟩ := h
  refine ⟨by simpa using nonempty, values, ?_, hn⟩
  exact List.forall₂_map_left_iff.mpr (hvalues.imp fun _ _ => isDigit_toUpper small)

theorem isBody_of_marked {base : Base} {body : List Char} (h : Marked base body n) (hc : c ∈ body) :
    IsBody c := by
  obtain ⟨mark, hmark, digits, hdigits, rfl⟩ := h
  rcases List.mem_append.mp hc with hc | hc
  · have hmarks : ∀ mark ∈ base.marks, ∀ c ∈ mark, IsBody c := by
      cases base <;> simp [Base.marks] <;> decide
    exact hmarks mark hmark c hc
  · exact isBody_of_isDigitIn (Nat.le_trans base.radix_le (by decide))
      (isDigitIn_of_numeral base.radix_le hdigits hc)

/-- No blank has to stand in a literal. -/
theorem spelled_plain {base : Base} {sign body suffix : List Char} (hsign : sign ∈ signs negative)
    (hbody : Marked base body n) (hsuffix : IsSuffix suffix) :
    Spelled (sign ++ (body ++ suffix)) negative base n := by
  have hsolid : (sign ++ (body ++ suffix)).any Text.isBlank = false := by
    refine List.any_eq_false.mpr fun c hc => Bool.eq_false_iff.mp ?_
    rcases List.mem_append.mp hc with hc | hc
    · have hsigns : ∀ sign ∈ signs negative, ∀ c ∈ sign, Text.isBlank c = false := by
        cases negative <;> simp [signs, Text.isBlank]
      exact hsigns sign hsign c hc
    · refine isBlank_of_isNameChar (isNameChar_of_isBody ?_)
      rcases List.mem_append.mp hc with hc | hc
      · exact isBody_of_marked hbody hc
      · exact isBody_of_isSuffixChar (isSuffix_iff.mp hsuffix c hc)
  have hne : sign ++ (body ++ suffix) ≠ [] := by
    obtain ⟨c, rest, rfl, -⟩ := head_marked hbody
    simp
  have htight := Text.tight_of_solid hne hsolid
  refine ⟨sign, hsign, [], body, suffix, by simp [Blanks], hbody, hsuffix, ?_⟩
  rw [Text.trim, htight.left, htight.right, List.nil_append]

/-- A number as it is printed. -/
def printed (v : Int64) : List Char :=
  (toString v.toInt).toList

theorem printed_eq (v : Int64) : ∃ sign ∈ signs (decide (v.toInt < 0)),
    printed v = sign ++ Nat.toDigits 10 v.toInt.natAbs := by
  unfold printed
  generalize v.toInt = i
  cases i with
  | ofNat n =>
      have hsign : decide (Int.ofNat n < 0) = false := by simp
      refine ⟨[], by rw [hsign]; decide, ?_⟩
      change (Nat.repr n).toList = _
      simp [Nat.repr]
  | negSucc n =>
      refine ⟨['-'], by simp [signs], ?_⟩
      change ("-" ++ Nat.repr (n + 1)).toList = _
      simp [Nat.repr]

/-- A literal is read exactly if it is spelled as one and its base gives it a value, which is the value
that is read. Numbers printed in decimal and patterns printed in other bases are read back. -/
theorem ofChars?_eq_some_iff :
    (∀ text v, ofChars? text = some v ↔
      ∃ negative base magnitude, Spelled text negative base magnitude ∧
        base.Gives negative magnitude v) ∧
    ∀ suffix, IsSuffix suffix →
      (∀ v, ofChars? (printed v ++ suffix) = some v) ∧
      ∀ base : Base, base ≠ .decimal → ∀ mark ∈ base.marks, ∀ pattern : BitVec 64,
        let digits := Nat.toDigits base.radix pattern.toNat
        ofChars? (mark ++ digits ++ suffix) = some (.ofBitVec pattern) ∧
          ofChars? (mark ++ digits.map Char.toUpper ++ suffix) = some (.ofBitVec pattern) := by
  refine ⟨fun text v => ofChars?_eq_some_iff_spelled, fun suffix hsuffix => ⟨fun v => ?_, ?_⟩⟩
  · obtain ⟨sign, hsign, hprinted⟩ := printed_eq v
    have hmarked : Marked .decimal (Nat.toDigits 10 v.toInt.natAbs) v.toInt.natAbs :=
      ⟨[], by decide, _, numeral_toDigits (by decide) (by decide) _, rfl⟩
    have hspelled := spelled_plain hsign hmarked hsuffix
    rw [← List.append_assoc, ← hprinted] at hspelled
    refine ofChars?_eq_some_iff_spelled.mpr ⟨_, _, _, hspelled, ?_⟩
    simp only [Base.Gives, decide_eq_true_eq]
    omega
  · intro base hbase mark hmark pattern digits
    have hdigits : Numeral base.radix digits pattern.toNat :=
      numeral_toDigits base.radix_le (by cases base <;> decide) _
    have read {digits : List Char} (h : Numeral base.radix digits pattern.toNat) :
        ofChars? (mark ++ digits ++ suffix) = some (.ofBitVec pattern) := by
      have hmarked : Marked base (mark ++ digits) pattern.toNat := ⟨mark, hmark, digits, h, rfl⟩
      have hspelled := spelled_plain (show [] ∈ signs false by decide) hmarked hsuffix
      refine ofChars?_eq_some_iff_spelled.mpr ⟨_, _, _, hspelled, ?_⟩
      cases base with
      | decimal => exact absurd rfl hbase
      | hexadecimal | binary => exact ⟨pattern.isLt, by simp⟩
    exact ⟨read hdigits, read (hdigits.toUpper base.radix_le)⟩

/-- The least value and the greatest pattern without its highest bit, printed with a suffix. -/
theorem ofChars?_eq_some_iff_ends :
    IsSuffix ['u', 'L'] ∧ Base.hexadecimal ≠ .decimal ∧ ['0', 'X'] ∈ Base.hexadecimal.marks ∧
      ofChars? "-9223372036854775808uL".toList = some Int64.minValue ∧
      ofChars? "0X7FFFFFFFFFFFFFFFuL".toList = some Int64.maxValue := by
  have hsuffix : IsSuffix ['u', 'L'] := by simp [IsSuffix]
  have hbase : Base.hexadecimal ≠ .decimal := by decide
  have hmark : ['0', 'X'] ∈ Base.hexadecimal.marks := by decide
  have hleast : printed Int64.minValue ++ ['u', 'L'] = "-9223372036854775808uL".toList := by
    decide +kernel
  have hdigits : (Nat.toDigits Base.hexadecimal.radix Int64.maxValue.toBitVec.toNat).map
      Char.toUpper = "7FFFFFFFFFFFFFFF".toList := by decide +kernel
  have h := ofChars?_eq_some_iff.2 ['u', 'L'] hsuffix
  have hgreatest := (h.2 .hexadecimal hbase ['0', 'X'] hmark Int64.maxValue.toBitVec).2
  rw [hdigits] at hgreatest
  exact ⟨hsuffix, hbase, hmark, hleast ▸ h.1 Int64.minValue, hgreatest⟩

end LibSurvey.Literal
