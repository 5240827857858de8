/-!
Compressed data in the zlib format: blocks that are stored as they are or coded with fixed or given
prefix codes, between a header of two bytes and a checksum. The size of the output is known from
elsewhere: nothing is read beyond what makes so much output.
-/

namespace LibSurvey.Inflate

/-- A place in compressed data, counted in bits from the least significant one of each byte. -/
structure Bits where
  data : ByteArray
  pos : Nat

/-- Why reading stops before the last block ends. -/
inductive Fault where
  /-- The data means nothing. -/
  | malformed
  /-- The data ends. -/
  | truncated
  /-- There is more output than is wanted. -/
  | full

namespace Bits

def next? (bits : Bits) : Except Fault (Nat × Bits) :=
  match bits.data[bits.pos / 8]? with
  | some b => .ok (b.toNat >>> (bits.pos % 8) % 2, { bits with pos := bits.pos + 1 })
  | none => .error .truncated

/-- A number of so many bits, the least significant first. -/
def take? (bits : Bits) : Nat → Except Fault (Nat × Bits)
  | 0 => .ok (0, bits)
  | count + 1 =>
    match bits.next? with
    | .error fault => .error fault
    | .ok (bit, rest) =>
      match rest.take? count with
      | .error fault => .error fault
      | .ok (value, rest) => .ok (bit + 2 * value, rest)

def alignToByte (bits : Bits) : Bits :=
  { bits with pos := (bits.pos + 7) / 8 * 8 }

end Bits

/-- A prefix code: how many codes there are of each length, and the symbols in the order of their
codes. -/
structure Code where
  counts : List Nat
  symbols : List Nat

/-- No code is longer. -/
def maxLength : Nat := 15

/-- The part of all words of the longest length that begin with a code of one of these lengths; zero
stands for a symbol without a code. -/
def kraft (lengths : List Nat) : Nat :=
  (lengths.filter (· ≠ 0)).foldl (fun words length => words + 1 <<< (maxLength - length)) 0

/-- Whether every word begins with just one code of these lengths. -/
def isComplete (lengths : List Nat) : Bool :=
  kraft lengths = 1 <<< maxLength

/-- Whether lengths may be given for the symbols of a block: a code of one symbol or none need not
be complete. -/
def isUsable (lengths : List Nat) : Bool :=
  isComplete lengths || (lengths.filter (· ≠ 0)).length < 2

def Code.ofLengths (lengths : List Nat) : Code :=
  let lengthsOf := List.range' 1 maxLength
  ⟨lengthsOf.map fun length => lengths.count length,
    lengthsOf.flatMap fun length =>
      (lengths.zipIdx.filter (·.1 = length)).map Prod.snd⟩

/-- Reads one symbol; `code` is the number read so far, `first` the first code of the length and
`index` the place of its symbol. -/
def Code.readFrom (symbols : List Nat) (code first index : Nat) (bits : Bits) :
    List Nat → Except Fault (Nat × Bits)
  | [] => .error .malformed
  | count :: counts =>
    match bits.next? with
    | .error fault => .error fault
    | .ok (bit, rest) =>
      let code := code + bit
      if code < first + count then
        match symbols[index + (code - first)]? with
        | some symbol => .ok (symbol, rest)
        | none => .error .malformed
      else readFrom symbols (2 * code) (2 * (first + count)) (index + count) rest counts

/-- Reads the only symbol of a code, whose word is so many zeros; no word begins otherwise. -/
def Code.readZeros (symbol : Nat) : Nat → Bits → Except Fault (Nat × Bits)
  | 0, bits => .ok (symbol, bits)
  | length + 1, bits =>
    match bits.next? with
    | .error fault => .error fault
    | .ok (0, rest) => readZeros symbol length rest
    | .ok _ => .error .malformed

def Code.read (code : Code) (bits : Bits) : Except Fault (Nat × Bits) :=
  match code.symbols with
  | [] => bits.next?.bind fun _ => .error .malformed
  | [symbol] => Code.readZeros symbol (code.counts.idxOf 1 + 1) bits
  | symbols => Code.readFrom symbols 0 0 0 bits code.counts

def lengthBase : List Nat :=
  [3, 4, 5, 6, 7, 8, 9, 10, 11, 13, 15, 17, 19, 23, 27, 31, 35, 43, 51, 59, 67, 83, 99, 115, 131,
    163, 195, 227, 258]

def lengthExtra : List Nat :=
  [0, 0, 0, 0, 0, 0, 0, 0, 1, 1, 1, 1, 2, 2, 2, 2, 3, 3, 3, 3, 4, 4, 4, 4, 5, 5, 5, 5, 0]

def distanceBase : List Nat :=
  [1, 2, 3, 4, 5, 7, 9, 13, 17, 25, 33, 49, 65, 97, 129, 193, 257, 385, 513, 769, 1025, 1537, 2049,
    3073, 4097, 6145, 8193, 12289, 16385, 24577]

def distanceExtra : List Nat :=
  [0, 0, 0, 0, 1, 1, 2, 2, 3, 3, 4, 4, 5, 5, 6, 6, 7, 7, 8, 8, 9, 9, 10, 10, 11, 11, 12, 12, 13, 13]

/-- A base with as many more bits as belong to it. -/
def based (bases extras : List Nat) (index : Nat) (bits : Bits) : Except Fault (Nat × Bits) :=
  match bases[index]?, extras[index]? with
  | some base, some extra => (bits.take? extra).map fun (more, rest) => (base + more, rest)
  | _, _ => .error .malformed

/-- Repeats bytes from so far back, so many times one byte. -/
def copyBack (distance : Nat) : Nat → ByteArray → ByteArray
  | 0, output => output
  | count + 1, output =>
    copyBack distance count (output.push ((output[output.size - distance]?).getD 0))

/-- The output so far together with what stopped it. -/
structure Partial where
  output : ByteArray
  fault : Option Fault
  bits : Bits

/-- The symbols of a coded block. -/
def codedBlock (wanted : Nat) (literals distances : Code) :
    Nat → ByteArray → Bits → Partial
  | 0, output, bits => ⟨output, some .malformed, bits⟩
  | fuel + 1, output, bits =>
    match literals.read bits with
    | .error fault => ⟨output, some fault, bits⟩
    | .ok (symbol, bits) =>
      if symbol < 256 then
        if wanted ≤ output.size then ⟨output, some .full, bits⟩
        else
          codedBlock wanted literals distances fuel (output.push (UInt8.ofNat symbol)) bits
      else if symbol = 256 then ⟨output, none, bits⟩
      else
        let reference := do
          let (length, bits) ← based lengthBase lengthExtra (symbol - 257) bits
          let (symbol, bits) ← distances.read bits
          let (distance, bits) ← based distanceBase distanceExtra symbol bits
          if output.size < distance then .error .malformed else .ok (length, distance, bits)
        match reference with
        | .error fault => ⟨output, some fault, bits⟩
        | .ok (length, distance, bits) =>
          let room := wanted - output.size
          if room < length then ⟨copyBack distance room output, some .full, bits⟩
          else
            codedBlock wanted literals distances fuel (copyBack distance length output) bits

def fixedLiterals : Code :=
  .ofLengths (List.replicate 144 8 ++ List.replicate 112 9 ++ List.replicate 24 7 ++
    List.replicate 8 8)

/-- Two of the codes stand for no distance. -/
def fixedDistances : Code :=
  .ofLengths (List.replicate 32 5)

/-- A stored block: its length twice, once complemented, and its bytes. -/
def storedBlock (wanted : Nat) (output : ByteArray) (bits : Bits) : Partial :=
  let bits := bits.alignToByte
  let sizes := do
    let (length, bits) ← bits.take? 16
    let (complement, bits) ← bits.take? 16
    if length + complement = 0xffff then .ok (length, bits) else .error Fault.malformed
  match sizes with
  | .error fault => ⟨output, some fault, bits⟩
  | .ok (length, bits) =>
    let start := bits.pos / 8
    let room := wanted - output.size
    let found := bits.data.extract start (start + min length room)
    let fault :=
      if found.size < min length room then some Fault.truncated
      else if room < length then some .full
      else none
    ⟨output ++ found, fault, { bits with pos := bits.pos + 8 * length }⟩

def codeLengthOrder : List Nat :=
  [16, 17, 18, 0, 8, 7, 9, 6, 10, 5, 11, 4, 12, 3, 13, 2, 14, 1, 15]

/-- The lengths of codes, themselves coded; `seen` holds those read, last first. -/
def codeLengths (code : Code) (total : Nat) :
    Nat → List Nat → Bits → Except Fault (List Nat × Bits)
  | 0, _, _ => .error .malformed
  | fuel + 1, seen, bits =>
    if total ≤ seen.length then
      if seen.length = total then .ok (seen.reverse, bits) else .error .malformed
    else do
      let (symbol, bits) ← code.read bits
      if symbol < 16 then codeLengths code total fuel (symbol :: seen) bits
      else if symbol = 16 then
        match seen with
        | last :: _ =>
          let (more, bits) ← bits.take? 2
          codeLengths code total fuel (List.replicate (3 + more) last ++ seen) bits
        | [] => .error .malformed
      else if symbol = 17 then
        let (more, bits) ← bits.take? 3
        codeLengths code total fuel (List.replicate (3 + more) 0 ++ seen) bits
      else
        let (more, bits) ← bits.take? 7
        codeLengths code total fuel (List.replicate (11 + more) 0 ++ seen) bits

/-- So many numbers of three bits. -/
def shortLengths (bits : Bits) : Nat → Except Fault (List Nat × Bits)
  | 0 => .ok ([], bits)
  | count + 1 => do
    let (length, bits) ← bits.take? 3
    let (rest, bits) ← shortLengths bits count
    .ok (length :: rest, bits)

/-- The codes that a block brings with it. -/
def givenCodes (bits : Bits) : Except Fault (Code × Code × Bits) := do
  let (literals, bits) ← bits.take? 5
  let (distances, bits) ← bits.take? 5
  let (lengths, bits) ← bits.take? 4
  let literals := literals + 257
  let distances := distances + 1
  if 286 < literals || 30 < distances then .error .malformed
  let (short, bits) ← shortLengths bits (lengths + 4)
  let placed := (List.range 19).map fun symbol =>
    ((codeLengthOrder.zip short).lookup symbol).getD 0
  if !isComplete placed then .error .malformed
  let total := literals + distances
  let (all, bits) ← codeLengths (.ofLengths placed) total (total + 1) [] bits
  let (ofLiterals, ofDistances) := all.splitAt literals
  if !isUsable ofLiterals || !isUsable ofDistances then .error .malformed
  .ok (.ofLengths ofLiterals, .ofLengths ofDistances, bits)

def block (wanted kind : Nat) (output : ByteArray) (bits : Bits) : Partial :=
  let fuel := 8 * bits.data.size + 1
  match kind with
  | 0 => storedBlock wanted output bits
  | 1 => codedBlock wanted fixedLiterals fixedDistances fuel output bits
  | 2 =>
    match givenCodes bits with
    | .error fault => ⟨output, some fault, bits⟩
    | .ok (literals, distances, bits) =>
      codedBlock wanted literals distances fuel output bits
  | _ => ⟨output, some .malformed, bits⟩

/-- Blocks up to the last one. -/
def blocks (wanted : Nat) : Nat → ByteArray → Bits → Partial
  | 0, output, bits => ⟨output, some .malformed, bits⟩
  | fuel + 1, output, bits =>
    match bits.take? 3 with
    | .error fault => ⟨output, some fault, bits⟩
    | .ok (head, bits) =>
      let found := block wanted (head / 2) output bits
      if found.fault.isSome || head % 2 = 1 then found
      else blocks wanted fuel found.output found.bits

/-- The checksum that ends the data. -/
def adler (output : ByteArray) : Nat :=
  let (a, b) := output.toList.foldl (fun (a, b) byte =>
    let a := (a + byte.toNat) % 65521
    (a, (b + a) % 65521)) (1, 0)
  b * 65536 + a

/-- Whether the four bytes after the last block are the checksum, or are not all there. -/
def checksumHolds (data : ByteArray) (found : Partial) : Bool :=
  let start := found.bits.alignToByte.pos / 8
  let stored := (data.extract start (start + 4)).toList
  stored.length < 4 || stored.foldl (fun value b => value * 256 + b.toNat) 0 = adler found.output

/-- Inflates data to just so many bytes. What follows them is not looked at, and the data may end
behind them. -/
def zlib? (data : ByteArray) (wanted : Nat) : Option ByteArray :=
  let method := (data[0]?).getD 0
  let flags := (data[1]?).getD 0
  if data.size < 2 then if wanted = 0 then some ByteArray.empty else none
  else if method.toNat % 16 ≠ 8 || 7 < method.toNat / 16 ||
      (method.toNat * 256 + flags.toNat) % 31 ≠ 0 || flags.toNat.testBit 5 then none
  else
    let found := blocks wanted (8 * data.size + 1) ByteArray.empty ⟨data, 16⟩
    let isSound := match found.fault with
      | some .malformed => false
      | some _ => true
      | none => checksumHolds data found
    if isSound && found.output.size = wanted then some found.output else none

end LibSurvey.Inflate
