import LibSurvey.Text.Utf8

/-!
Numbers, stretches and texts at places in a sequence of bytes. What does not lie inside the bytes is
not there.
-/

namespace LibSurvey.Bytes

inductive Endian where
  | little
  | big
deriving DecidableEq, Repr

/-- The bytes from a place on, so many of them, if they are all there. No bytes at all are
anywhere. -/
def slice? (bytes : ByteArray) (offset size : Nat) : Option ByteArray :=
  if size = 0 then some ByteArray.empty
  else if offset + size ≤ bytes.size then some (bytes.extract offset (offset + size))
  else none

/-- The value of bytes in the given order. -/
def value (endian : Endian) (bytes : List UInt8) : Nat :=
  let ordered := match endian with
    | .little => bytes.reverse
    | .big => bytes
  ordered.foldl (fun value b => value * 256 + b.toNat) 0

/-- The number in so many bytes at a place. -/
def uint? (bytes : ByteArray) (endian : Endian) (offset size : Nat) : Option Nat :=
  (slice? bytes offset size).map fun found => value endian found.toList

/-- The same, where the place is known to lie inside. -/
def uint (bytes : ByteArray) (endian : Endian) (offset size : Nat) : Nat :=
  (uint? bytes endian offset size).getD 0

/-- The bytes before the first zero. -/
def untilZero (bytes : List UInt8) : List UInt8 :=
  bytes.takeWhile (· != 0)

/-- The bytes from a place up to the next zero before `stop`; there has to be one. -/
def zeroTerminated? (bytes : ByteArray) (offset stop : Nat) : Option (List UInt8) :=
  if offset ≤ stop && stop ≤ bytes.size then
    let found := (bytes.extract offset stop).toList
    if found.contains 0 then some (untilZero found) else none
  else none

/-- The text that bytes are in UTF-8. -/
def text? (bytes : List UInt8) : Option String :=
  ((Text.Utf8.decode? bytes).toOption).map String.ofList

/-- The text that bytes are, with replacement characters for what is no UTF-8. -/
def lossyText (bytes : List UInt8) : String :=
  String.ofList (Text.Utf8.decodeLossy bytes)

/-- A table of texts that end in zero, within a file. -/
structure Strings where
  start : Nat
  stop : Nat
deriving DecidableEq, Repr

def Strings.get? (strings : Strings) (bytes : ByteArray) (offset : Nat) : Option (List UInt8) :=
  zeroTerminated? bytes (strings.start + offset) strings.stop

end LibSurvey.Bytes
