import LibSurvey.Text.Utf8
import Mathlib.Data.UInt

/-!
Bytes of text read back. One character is read from its bytes whatever follows them; a whole text then
follows by induction, since the fuel counts bytes and no character has fewer than one. Conversely a
character that is read has only one form, so that no other bytes are read as the same text.
-/

namespace LibSurvey.Text.Utf8

theorem toNat_ofNat {n : Nat} (h : n < 256) : (UInt8.ofNat n).toNat = n := by
  rw [UInt8.toNat_ofNat', Nat.mod_eq_of_lt h]

theorem eq_ofNat {n : Nat} {b : UInt8} (h : n < 256) : UInt8.ofNat n = b ↔ n = b.toNat := by
  rw [← UInt8.toNat_inj, toNat_ofNat h]

theorem within_ofNat {n : Nat} {low high : UInt8} (h : n < 256) :
    (low ≤ UInt8.ofNat n && UInt8.ofNat n ≤ high) = decide (low.toNat ≤ n ∧ n ≤ high.toNat) := by
  simp only [UInt8.le_iff_toNat_le, toNat_ofNat h, Bool.decide_and]

theorem payload_ofNat (n : Nat) : payload (UInt8.ofNat (n % 64 + 128)) = n % 64 := by
  rw [payload, UInt8.toNat_ofNat']
  omega

theorem isContinuation_ofNat (n : Nat) : isContinuation (UInt8.ofNat (n % 64 + 128)) = true := by
  rw [isContinuation, within_ofNat (by omega)]
  simp only [decide_eq_true_eq, UInt8.reduceToNat]
  omega

/-- The number of a first byte says how many follow it. -/
theorem step_ofNat {n : Nat} (h : n < 256) (rest : List UInt8) :
    step (UInt8.ofNat n) rest =
      if n < 0x80 then .char (Char.ofNat n) rest
      else if 0xc2 ≤ n ∧ n ≤ 0xdf then stepTwo (UInt8.ofNat n) rest
      else if 0xe0 ≤ n ∧ n ≤ 0xef then stepThree (UInt8.ofNat n) rest
      else if 0xf0 ≤ n ∧ n ≤ 0xf4 then stepFour (UInt8.ofNat n) rest
      else .malformed 1 rest := by
  simp only [step, UInt8.lt_iff_toNat_lt, within_ofNat h, toNat_ofNat h, decide_eq_true_eq,
    UInt8.reduceToNat]

/-- A second byte fits where the least and the greatest first byte narrow its range. -/
theorem second_ofNat {m n : Nat} {first last least greatest : UInt8} (hm : m < 256) (hn : n < 256)
    (hleast : m = first.toNat → least.toNat ≤ n) (hgreatest : m = last.toNat → n ≤ greatest.toNat)
    (low : 0x80 ≤ n) (high : n ≤ 0xbf) :
    (if UInt8.ofNat m = first then least ≤ UInt8.ofNat n && UInt8.ofNat n ≤ 0xbf
      else if UInt8.ofNat m = last then 0x80 ≤ UInt8.ofNat n && UInt8.ofNat n ≤ greatest
      else isContinuation (UInt8.ofNat n)) = true := by
  simp only [isContinuation, eq_ofNat hm, within_ofNat hn]
  split
  · exact decide_eq_true ⟨hleast ‹_›, high⟩
  · split
    · exact decide_eq_true ⟨low, hgreatest ‹_›⟩
    · exact decide_eq_true ⟨low, high⟩

theorem encodeChar_ne_nil (c : Char) : String.utf8EncodeChar c ≠ [] := by
  unfold String.utf8EncodeChar
  dsimp only
  repeat' split
  all_goals simp

theorem step_two {v : Nat} (low : 128 ≤ v) (high : v < 0x800) (rest : List UInt8) :
    step (UInt8.ofNat (v / 64 % 32 + 192)) (UInt8.ofNat (v % 64 + 128) :: rest) =
      .char (Char.ofNat v) rest := by
  have hlead : v / 64 % 32 + 192 < 256 := by omega
  have hvalue : (v / 64 % 32 + 192) % 32 * 64 + v % 64 = v := by omega
  rw [step_ofNat hlead, if_neg (by omega), if_pos (by omega), stepTwo,
    if_pos (isContinuation_ofNat v), payload_ofNat, toNat_ofNat hlead, hvalue]

theorem step_three {v : Nat} (low : 0x800 ≤ v) (high : v < 0x10000)
    (valid : v < 0xd800 ∨ 0xdfff < v) (rest : List UInt8) :
    step (UInt8.ofNat (v / 4096 % 16 + 224))
      (UInt8.ofNat (v / 64 % 64 + 128) :: UInt8.ofNat (v % 64 + 128) :: rest) =
      .char (Char.ofNat v) rest := by
  have hlead : v / 4096 % 16 + 224 < 256 := by omega
  have hsecond : secondOfThree (UInt8.ofNat (v / 4096 % 16 + 224))
      (UInt8.ofNat (v / 64 % 64 + 128)) = true :=
    second_ofNat hlead (by omega) (by simp only [UInt8.reduceToNat]; omega)
      (by simp only [UInt8.reduceToNat]; omega) (by omega) (by omega)
  have hvalue : (v / 4096 % 16 + 224) % 16 * 4096 + v / 64 % 64 * 64 + v % 64 = v := by omega
  rw [step_ofNat hlead, if_neg (by omega), if_neg (by omega), if_pos (by omega), stepThree, hsecond]
  simp only [Bool.not_true, Bool.false_eq_true, ite_false]
  rw [if_pos (isContinuation_ofNat v), payload_ofNat, payload_ofNat, toNat_ofNat hlead, hvalue]

theorem step_four {v : Nat} (low : 0x10000 ≤ v) (high : v < 0x110000) (rest : List UInt8) :
    step (UInt8.ofNat (v / 262144 % 8 + 240))
      (UInt8.ofNat (v / 4096 % 64 + 128) :: UInt8.ofNat (v / 64 % 64 + 128) ::
        UInt8.ofNat (v % 64 + 128) :: rest) = .char (Char.ofNat v) rest := by
  have hlead : v / 262144 % 8 + 240 < 256 := by omega
  have hsecond : secondOfFour (UInt8.ofNat (v / 262144 % 8 + 240))
      (UInt8.ofNat (v / 4096 % 64 + 128)) = true :=
    second_ofNat hlead (by omega) (by simp only [UInt8.reduceToNat]; omega)
      (by simp only [UInt8.reduceToNat]; omega) (by omega) (by omega)
  have hvalue : (v / 262144 % 8 + 240) % 8 * 262144 + v / 4096 % 64 * 4096 + v / 64 % 64 * 64 +
      v % 64 = v := by omega
  rw [step_ofNat hlead, if_neg (by omega), if_neg (by omega), if_neg (by omega),
    if_pos (by omega), stepFour, hsecond]
  simp only [Bool.not_true, Bool.false_eq_true, ite_false]
  rw [isContinuation_ofNat, isContinuation_ofNat]
  simp only [Bool.not_true, Bool.false_eq_true, ite_false, ite_true]
  rw [payload_ofNat, payload_ofNat, payload_ofNat, toNat_ofNat hlead, hvalue]

theorem step_encodeChar {c : Char} {b : UInt8} {more : List UInt8}
    (h : String.utf8EncodeChar c = b :: more) (rest : List UInt8) :
    step b (more ++ rest) = .char c rest := by
  have hvalid : c.val.toNat < 0xd800 ∨ 0xdfff < c.val.toNat ∧ c.val.toNat < 0x110000 := c.valid
  have hchar : Char.ofNat c.val.toNat = c := Char.ofNat_toNat c
  unfold String.utf8EncodeChar at h
  generalize c.val.toNat = v at h hvalid hchar
  dsimp only at h
  split at h
  · cases h
    rw [step_ofNat (by omega), if_pos (by omega), hchar]
    rfl
  split at h
  · cases h
    rw [← hchar]
    exact step_two (by omega) (by omega) rest
  split at h
  · cases h
    rw [← hchar]
    exact step_three (by omega) (by omega) (by omega) rest
  · cases h
    rw [← hchar]
    exact step_four (by omega) (by omega) rest

theorem decodeFrom_encode (total fuel : Nat) (seen text : List Char) (h : text.length ≤ fuel) :
    decodeFrom total fuel seen (encode text) = .ok (seen.reverse ++ text) := by
  induction text generalizing fuel seen with
  | nil => cases fuel <;> simp [encode, decodeFrom]
  | cons c text ih =>
      obtain ⟨b, more, hbytes⟩ := List.exists_cons_of_ne_nil (encodeChar_ne_nil c)
      obtain ⟨fuel, rfl⟩ : ∃ n, fuel = n + 1 := ⟨fuel - 1, by simp at h; omega⟩
      have hencode : encode (c :: text) = b :: (more ++ encode text) := by
        simp [encode, hbytes]
      rw [hencode, decodeFrom, step_encodeChar hbytes]
      simpa using ih fuel (c :: seen) (by simpa using h)

theorem length_le_length_encode (text : List Char) : text.length ≤ (encode text).length := by
  induction text with
  | nil => simp
  | cons c text ih =>
      have := List.length_pos_of_ne_nil (encodeChar_ne_nil c)
      simp only [encode, List.flatMap_cons, List.length_append, List.length_cons] at ih ⊢
      omega

theorem decode?_encode (text : List Char) : decode? (encode text) = .ok text :=
  decodeFrom_encode _ _ [] text (length_le_length_encode text)

/-! Text read from bytes is written as the same bytes again. -/

theorem encodeChar_ofNat {v : Nat} (h : v.isValidChar) :
    String.utf8EncodeChar (Char.ofNat v) =
      if v ≤ 127 then [UInt8.ofNat v]
      else if v ≤ 2047 then [UInt8.ofNat (v / 64 % 32 + 192), UInt8.ofNat (v % 64 + 128)]
      else if v ≤ 65535 then
        [UInt8.ofNat (v / 4096 % 16 + 224), UInt8.ofNat (v / 64 % 64 + 128),
          UInt8.ofNat (v % 64 + 128)]
      else
        [UInt8.ofNat (v / 262144 % 8 + 240), UInt8.ofNat (v / 4096 % 64 + 128),
          UInt8.ofNat (v / 64 % 64 + 128), UInt8.ofNat (v % 64 + 128)] := by
  have hv : (Char.ofNat v).val.toNat = v := by
    rw [Char.ofNat, dif_pos h]
    rfl
  rw [String.utf8EncodeChar, hv]

theorem within_iff {low high b : UInt8} :
    (low ≤ b && b ≤ high) = true ↔ low.toNat ≤ b.toNat ∧ b.toNat ≤ high.toNat := by
  simp only [Bool.and_eq_true, decide_eq_true_eq, UInt8.le_iff_toNat_le]

theorem payload_lt (b : UInt8) : payload b < 64 :=
  Nat.mod_lt _ (by decide)

/-- A continuation byte is the one that its payload is written as. -/
theorem ofNat_payload {b : UInt8} (h : isContinuation b = true) :
    UInt8.ofNat (payload b + 128) = b := by
  have hrange := within_iff.mp h
  simp only [UInt8.reduceToNat] at hrange
  have := payload_lt b
  rw [eq_ofNat (by omega), payload]
  omega

theorem isContinuation_of_second {b0 b : UInt8} (first last least greatest : UInt8)
    (low : 0x80 ≤ least.toNat) (high : greatest.toNat ≤ 0xbf)
    (h : (if b0 = first then least ≤ b && b ≤ 0xbf
      else if b0 = last then 0x80 ≤ b && b ≤ greatest else isContinuation b) = true) :
    isContinuation b = true ∧ (b0 = first → least.toNat ≤ b.toNat) ∧
      (b0 = last → b0 ≠ first → b.toNat ≤ greatest.toNat) := by
  split at h
  · rename_i hfirst
    have hrange := within_iff.mp h
    exact ⟨within_iff.mpr ⟨Nat.le_trans low hrange.1, hrange.2⟩, fun _ => hrange.1,
      fun _ hne => absurd hfirst hne⟩
  · rename_i hfirst
    split at h
    · have hrange := within_iff.mp h
      exact ⟨within_iff.mpr ⟨hrange.1, Nat.le_trans hrange.2 high⟩, fun hb => absurd hb hfirst,
        fun _ _ => hrange.2⟩
    · rename_i hlast
      exact ⟨h, fun hb => absurd hb hfirst, fun hb => absurd hb hlast⟩

theorem encode_of_stepTwo {b : UInt8} {rest after : List UInt8} {c : Char}
    (low : 0xc2 ≤ b.toNat) (high : b.toNat ≤ 0xdf) (h : stepTwo b rest = .char c after) :
    b :: rest = String.utf8EncodeChar c ++ after := by
  cases rest with
  | nil => cases h
  | cons b1 rest =>
      rw [stepTwo] at h
      split at h
      · rename_i h1
        cases h
        have := payload_lt b1
        rw [encodeChar_ofNat (.inl (by omega)), if_neg (by omega), if_pos (by omega)]
        have hlead : UInt8.ofNat ((b.toNat % 32 * 64 + payload b1) / 64 % 32 + 192) = b := by
          rw [eq_ofNat (by omega)]
          omega
        have hlast : (b.toNat % 32 * 64 + payload b1) % 64 = payload b1 := by omega
        rw [hlead, hlast, ofNat_payload h1]
        rfl
      · cases h

theorem toNat_eq {b : UInt8} (h : isContinuation b = true) : b.toNat = payload b + 128 := by
  have := payload_lt b
  have hb := ofNat_payload h
  rw [eq_ofNat (by omega)] at hb
  exact hb.symm

theorem encode_of_stepThree {b : UInt8} {rest after : List UInt8} {c : Char}
    (low : 0xe0 ≤ b.toNat) (high : b.toNat ≤ 0xef) (h : stepThree b rest = .char c after) :
    b :: rest = String.utf8EncodeChar c ++ after := by
  match rest with
  | [] => cases h
  | [b1] => rw [stepThree] at h; split at h <;> cases h
  | b1 :: b2 :: rest =>
      rw [stepThree] at h
      split at h
      · cases h
      rename_i hsecond
      split at h
      · rename_i h2
        cases h
        have hfits : secondOfThree b b1 = true := by simpa using hsecond
        obtain ⟨h1, hleast, hgreatest⟩ :=
          isContinuation_of_second 0xe0 0xed 0xa0 0x9f (by decide) (by decide) hfits
        have hb1 := toNat_eq h1
        have := payload_lt b1
        have := payload_lt b2
        have hlow : b.toNat = 0xe0 → 32 ≤ payload b1 := fun hb => by
          have := hleast (UInt8.toNat_inj.mp hb)
          simp only [UInt8.reduceToNat] at this
          omega
        have hsurrogate : b.toNat = 0xed → payload b1 < 32 := fun hb => by
          have := hgreatest (UInt8.toNat_inj.mp hb) fun he => by rw [he] at hb; cases hb
          simp only [UInt8.reduceToNat] at this
          omega
        generalize hv : b.toNat % 16 * 4096 + payload b1 * 64 + payload b2 = v
        have hvalid : v.isValidChar := by
          by_cases hv' : v < 0xd800
          · exact .inl hv'
          · exact .inr (by omega)
        rw [encodeChar_ofNat hvalid, if_neg (by omega), if_neg (by omega), if_pos (by omega)]
        have hlead : UInt8.ofNat (v / 4096 % 16 + 224) = b := by
          rw [eq_ofNat (by omega)]
          omega
        have hmiddle : v / 64 % 64 = payload b1 := by omega
        have hlast : v % 64 = payload b2 := by omega
        rw [hlead, hmiddle, hlast, ofNat_payload h1, ofNat_payload h2]
        rfl
      · cases h

theorem encode_of_stepFour {b : UInt8} {rest after : List UInt8} {c : Char}
    (low : 0xf0 ≤ b.toNat) (high : b.toNat ≤ 0xf4) (h : stepFour b rest = .char c after) :
    b :: rest = String.utf8EncodeChar c ++ after := by
  match rest with
  | [] => cases h
  | [b1] => rw [stepFour] at h; split at h <;> cases h
  | [b1, b2] =>
      rw [stepFour] at h
      split at h
      · cases h
      · split at h <;> cases h
  | b1 :: b2 :: b3 :: rest =>
      rw [stepFour] at h
      split at h
      · cases h
      rename_i hsecond
      split at h
      · cases h
      rename_i h2
      split at h
      · rename_i h3
        cases h
        have hfits : secondOfFour b b1 = true := by simpa using hsecond
        obtain ⟨h1, hleast, hgreatest⟩ :=
          isContinuation_of_second 0xf0 0xf4 0x90 0x8f (by decide) (by decide) hfits
        rw [Bool.not_eq_true, Bool.not_eq_false'] at h2
        have hb1 := toNat_eq h1
        have := payload_lt b1
        have := payload_lt b2
        have := payload_lt b3
        have hlow : b.toNat = 0xf0 → 16 ≤ payload b1 := fun hb => by
          have := hleast (UInt8.toNat_inj.mp hb)
          simp only [UInt8.reduceToNat] at this
          omega
        have hlimit : b.toNat = 0xf4 → payload b1 < 16 := fun hb => by
          have := hgreatest (UInt8.toNat_inj.mp hb) fun he => by rw [he] at hb; cases hb
          simp only [UInt8.reduceToNat] at this
          omega
        generalize hv : b.toNat % 8 * 262144 + payload b1 * 4096 + payload b2 * 64 + payload b3 = v
        have hvalid : v.isValidChar := .inr (by omega)
        rw [encodeChar_ofNat hvalid, if_neg (by omega), if_neg (by omega), if_neg (by omega)]
        have hlead : UInt8.ofNat (v / 262144 % 8 + 240) = b := by
          rw [eq_ofNat (by omega)]
          omega
        have hfirst : v / 4096 % 64 = payload b1 := by omega
        have hmiddle : v / 64 % 64 = payload b2 := by omega
        have hlast : v % 64 = payload b3 := by omega
        rw [hlead, hfirst, hmiddle, hlast, ofNat_payload h1, ofNat_payload h2, ofNat_payload h3]
        rfl
      · cases h

/-- A character that is read was written as the bytes that are gone. -/
theorem encode_of_step {b : UInt8} {rest after : List UInt8} {c : Char}
    (h : step b rest = .char c after) : b :: rest = String.utf8EncodeChar c ++ after := by
  rw [step] at h
  split at h
  · rename_i hb
    cases h
    have hsmall : b.toNat < 128 := UInt8.lt_iff_toNat_lt.mp hb
    rw [encodeChar_ofNat (.inl (by omega)), if_pos (by omega), UInt8.ofNat_toNat]
    rfl
  split at h
  · have hrange := within_iff.mp ‹_›
    exact encode_of_stepTwo hrange.1 hrange.2 h
  split at h
  · have hrange := within_iff.mp ‹_›
    exact encode_of_stepThree hrange.1 hrange.2 h
  split at h
  · have hrange := within_iff.mp ‹_›
    exact encode_of_stepFour hrange.1 hrange.2 h
  · cases h

theorem encode_of_decodeFrom {total fuel : Nat} {seen text : List Char} {bytes : List UInt8}
    (room : bytes.length ≤ fuel) (h : decodeFrom total fuel seen bytes = .ok text) :
    encode text = encode seen.reverse ++ bytes := by
  induction fuel generalizing seen bytes with
  | zero =>
      obtain rfl := List.eq_nil_of_length_eq_zero (Nat.le_zero.mp room)
      cases h
      rw [List.append_nil]
  | succ fuel ih =>
      cases bytes with
      | nil =>
          cases h
          rw [List.append_nil]
      | cons b rest =>
          rw [decodeFrom] at h
          split at h
          · rename_i c after hstep
            have hbytes := encode_of_step hstep
            have hlength := congrArg List.length hbytes
            have hpos := List.length_pos_of_ne_nil (encodeChar_ne_nil c)
            simp only [List.length_cons, List.length_append] at hlength room
            rw [ih (by omega) h, hbytes]
            simp [encode]
          · cases h
          · cases h

/-- Bytes that are read as a text are those that the text is stored as. -/
theorem encode_of_decode? {bytes : List UInt8} {text : List Char}
    (h : decode? bytes = .ok text) : encode text = bytes :=
  encode_of_decodeFrom (Nat.le_refl _) h

end LibSurvey.Text.Utf8
