/-!
UTF-8 read from bytes: one character at a time, with the length of the bad part where bytes are no
character. A whole text is read either strictly, with the place of the first fault, or with one
replacement character for each bad part.
-/

namespace LibSurvey.Text.Utf8

/-- What stands at the front of some bytes. A malformed part covers the longest start of a character
that went wrong; a truncated one runs into the end. -/
inductive Step where
  | char (c : Char) (rest : List UInt8)
  | malformed (length : Nat) (rest : List UInt8)
  | truncated

def isContinuation (b : UInt8) : Bool :=
  0x80 ≤ b && b ≤ 0xbf

/-- Whether a second byte may follow the first one of a character of three bytes. -/
def secondOfThree (b0 b1 : UInt8) : Bool :=
  if b0 = 0xe0 then 0xa0 ≤ b1 && b1 ≤ 0xbf
  else if b0 = 0xed then 0x80 ≤ b1 && b1 ≤ 0x9f
  else isContinuation b1

/-- Whether a second byte may follow the first one of a character of four bytes. -/
def secondOfFour (b0 b1 : UInt8) : Bool :=
  if b0 = 0xf0 then 0x90 ≤ b1 && b1 ≤ 0xbf
  else if b0 = 0xf4 then 0x80 ≤ b1 && b1 ≤ 0x8f
  else isContinuation b1

/-- The low six bits of a continuation byte. -/
def payload (b : UInt8) : Nat :=
  b.toNat % 64

def stepTwo (b0 : UInt8) : List UInt8 → Step
  | [] => .truncated
  | b1 :: rest =>
    if isContinuation b1 then .char (Char.ofNat (b0.toNat % 32 * 64 + payload b1)) rest
    else .malformed 1 (b1 :: rest)

def stepThree (b0 : UInt8) : List UInt8 → Step
  | [] => .truncated
  | b1 :: rest =>
    if !secondOfThree b0 b1 then .malformed 1 (b1 :: rest)
    else match rest with
      | [] => .truncated
      | b2 :: rest =>
        if isContinuation b2 then
          .char (Char.ofNat (b0.toNat % 16 * 4096 + payload b1 * 64 + payload b2)) rest
        else .malformed 2 (b2 :: rest)

def stepFour (b0 : UInt8) : List UInt8 → Step
  | [] => .truncated
  | b1 :: rest =>
    if !secondOfFour b0 b1 then .malformed 1 (b1 :: rest)
    else match rest with
      | [] => .truncated
      | b2 :: rest =>
        if !isContinuation b2 then .malformed 2 (b2 :: rest)
        else match rest with
          | [] => .truncated
          | b3 :: rest =>
            if isContinuation b3 then
              .char (Char.ofNat (b0.toNat % 8 * 262144 + payload b1 * 4096 + payload b2 * 64 +
                payload b3)) rest
            else .malformed 3 (b3 :: rest)

/-- Reads what starts with a given byte. -/
def step (b0 : UInt8) (rest : List UInt8) : Step :=
  if b0 < 0x80 then .char (Char.ofNat b0.toNat) rest
  else if 0xc2 ≤ b0 && b0 ≤ 0xdf then stepTwo b0 rest
  else if 0xe0 ≤ b0 && b0 ≤ 0xef then stepThree b0 rest
  else if 0xf0 ≤ b0 && b0 ≤ 0xf4 then stepFour b0 rest
  else .malformed 1 rest

/-- A fault with the number of bytes before it. -/
inductive Fault where
  | malformed (length : Nat) (index : Nat)
  | truncated (index : Nat)
deriving DecidableEq, Repr

def Fault.message : Fault → String
  | .malformed length index => s!"invalid utf-8 sequence of {length} bytes from index {index}"
  | .truncated index => s!"incomplete utf-8 byte sequence from index {index}"

/-- Strict reading; `fuel` bounds the number of characters, `total` is the size of the whole. -/
def decodeFrom (total : Nat) : Nat → List Char → List UInt8 → Except Fault (List Char)
  | 0, seen, _ => .ok seen.reverse
  | _, seen, [] => .ok seen.reverse
  | fuel + 1, seen, b :: rest =>
    match step b rest with
    | .char c rest => decodeFrom total fuel (c :: seen) rest
    | .malformed length after => .error (.malformed length (total - after.length - length))
    | .truncated => .error (.truncated (total - rest.length - 1))

def decode? (bytes : List UInt8) : Except Fault (List Char) :=
  decodeFrom bytes.length bytes.length [] bytes

/-- Lenient reading; `fuel` bounds the number of characters. -/
def decodeLossyFrom : Nat → List Char → List UInt8 → List Char
  | 0, seen, _ => seen.reverse
  | _, seen, [] => seen.reverse
  | fuel + 1, seen, b :: rest =>
    match step b rest with
    | .char c rest => decodeLossyFrom fuel (c :: seen) rest
    | .malformed _ rest => decodeLossyFrom fuel ('\ufffd' :: seen) rest
    | .truncated => ('\ufffd' :: seen).reverse

/-- Every bad part becomes one replacement character. -/
def decodeLossy (bytes : List UInt8) : List Char :=
  decodeLossyFrom bytes.length [] bytes

def encode (cs : List Char) : List UInt8 :=
  cs.flatMap String.utf8EncodeChar

end LibSurvey.Text.Utf8
