import BuildFront.Text.Hex

/-!
SHA-256 of a byte string, its hexadecimal form, and the short form shown to people.
-/

namespace BuildFront.Digest

/-- The first 32 bits of the fractional parts of the cube roots of the first 64 primes. -/
def roundConstants : List UInt32 :=
  [0x428a2f98, 0x71374491, 0xb5c0fbcf, 0xe9b5dba5, 0x3956c25b, 0x59f111f1, 0x923f82a4, 0xab1c5ed5,
   0xd807aa98, 0x12835b01, 0x243185be, 0x550c7dc3, 0x72be5d74, 0x80deb1fe, 0x9bdc06a7, 0xc19bf174,
   0xe49b69c1, 0xefbe4786, 0x0fc19dc6, 0x240ca1cc, 0x2de92c6f, 0x4a7484aa, 0x5cb0a9dc, 0x76f988da,
   0x983e5152, 0xa831c66d, 0xb00327c8, 0xbf597fc7, 0xc6e00bf3, 0xd5a79147, 0x06ca6351, 0x14292967,
   0x27b70a85, 0x2e1b2138, 0x4d2c6dfc, 0x53380d13, 0x650a7354, 0x766a0abb, 0x81c2c92e, 0x92722c85,
   0xa2bfe8a1, 0xa81a664b, 0xc24b8b70, 0xc76c51a3, 0xd192e819, 0xd6990624, 0xf40e3585, 0x106aa070,
   0x19a4c116, 0x1e376c08, 0x2748774c, 0x34b0bcb5, 0x391c0cb3, 0x4ed8aa4a, 0x5b9cca4f, 0x682e6ff3,
   0x748f82ee, 0x78a5636f, 0x84c87814, 0x8cc70208, 0x90befffa, 0xa4506ceb, 0xbef9a3f7, 0xc67178f2]

structure State where
  a : UInt32
  b : UInt32
  c : UInt32
  d : UInt32
  e : UInt32
  f : UInt32
  g : UInt32
  h : UInt32

/-- The first 32 bits of the fractional parts of the square roots of the first eight primes. -/
def State.start : State :=
  ⟨0x6a09e667, 0xbb67ae85, 0x3c6ef372, 0xa54ff53a, 0x510e527f, 0x9b05688c, 0x1f83d9ab, 0x5be0cd19⟩

def State.add (s t : State) : State :=
  ⟨s.a + t.a, s.b + t.b, s.c + t.c, s.d + t.d, s.e + t.e, s.f + t.f, s.g + t.g, s.h + t.h⟩

def State.words (s : State) : List UInt32 :=
  [s.a, s.b, s.c, s.d, s.e, s.f, s.g, s.h]

def rotr (x n : UInt32) : UInt32 :=
  (x >>> n) ||| (x <<< (32 - n))

/-- One round with its message word and constant added together. -/
def State.round (s : State) (wk : UInt32) : State :=
  let s1 := rotr s.e 6 ^^^ rotr s.e 11 ^^^ rotr s.e 25
  let ch := (s.e &&& s.f) ^^^ ((~~~ s.e) &&& s.g)
  let t1 := s.h + s1 + ch + wk
  let s0 := rotr s.a 2 ^^^ rotr s.a 13 ^^^ rotr s.a 22
  let maj := (s.a &&& s.b) ^^^ (s.a &&& s.c) ^^^ (s.b &&& s.c)
  ⟨t1 + (s0 + maj), s.a, s.b, s.c, s.d + t1, s.e, s.f, s.g⟩

def bytesOfWord (w : UInt32) : Bytes :=
  [(w >>> 24).toUInt8, (w >>> 16).toUInt8, (w >>> 8).toUInt8, w.toUInt8]

def wordOfBytes (a b c d : UInt8) : UInt32 :=
  (a.toUInt32 <<< 24) ||| (b.toUInt32 <<< 16) ||| (c.toUInt32 <<< 8) ||| d.toUInt32

/-- Bytes four by four; a remainder of less than four is dropped. -/
def wordsOfBytes : Bytes → List UInt32
  | a :: b :: c :: d :: rest => wordOfBytes a b c d :: wordsOfBytes rest
  | _ => []

/-- The next word of the message schedule from the sixteen before it. -/
def nextWord (ws : Array UInt32) : UInt32 :=
  let n := ws.size
  let w15 := ws.getD (n - 15) 0
  let w2 := ws.getD (n - 2) 0
  let s0 := rotr w15 7 ^^^ rotr w15 18 ^^^ (w15 >>> 3)
  let s1 := rotr w2 17 ^^^ rotr w2 19 ^^^ (w2 >>> 10)
  ws.getD (n - 16) 0 + s0 + ws.getD (n - 7) 0 + s1

/-- The message schedule: the block's sixteen words followed by `more` further ones. -/
def schedule (ws : Array UInt32) : Nat → Array UInt32
  | 0 => ws
  | more + 1 => schedule (ws.push (nextWord ws)) more

def compress (s : State) (block : List UInt32) : State :=
  let ws := (schedule block.toArray 48).toList
  s.add ((ws.zipWith (· + ·) roundConstants).foldl State.round s)

/-- Sixteen words a block. `fuel` bounds the number of blocks. -/
def blocks (fuel : Nat) (ws : List UInt32) : List (List UInt32) :=
  match fuel, ws with
  | 0, _ => []
  | _, [] => []
  | fuel + 1, ws => ws.take 16 :: blocks fuel (ws.drop 16)

/-- The message, a one bit, zeros, and the length in bits as eight bytes. -/
def pad (msg : Bytes) : Bytes :=
  let n := msg.length
  let bits := UInt64.ofNat (8 * n)
  let zeros : Bytes := List.replicate ((119 - n % 64) % 64) 0
  msg ++ (0x80 :: zeros) ++ bytesOfWord (bits >>> 32).toUInt32 ++ bytesOfWord bits.toUInt32

def sha256 (msg : Bytes) : Bytes :=
  let ws := wordsOfBytes (pad msg)
  ((blocks (ws.length + 1) ws).foldl compress State.start).words.flatMap bytesOfWord

/-- The SHA-256 digest in lower-case hexadecimal, 64 digits. -/
def sha256Hex (msg : Bytes) : String :=
  String.ofList (Hex.ofBytes (sha256 msg))

example : sha256Hex (Utf8.ofString "hello") =
    "2cf24dba5fb0a30e26e83b2ac5b9e29e1b161e5c1fa7425e73043362938b9824" := by
  decide +kernel

-- A message whose padding takes a block of its own.
example : sha256Hex (Utf8.ofString "abcdbcdecdefdefgefghfghighijhijkijkljklmklmnlmnomnopnopq") =
    "248d6a61d20638b8e5c026930c3e6039a33ce45964ff2167f6ecedd419db06c1" := by
  decide +kernel

/-- The characters that take up exactly the first `n` bytes, unless a character straddles the cut
or the text ends before it. -/
def takeBytes? : Nat → List Char → Option (List Char)
  | 0, _ => some []
  | _ + 1, [] => none
  | n + 1, c :: cs =>
    if c.utf8Size ≤ n + 1 then (takeBytes? (n + 1 - c.utf8Size) cs).map (c :: ·) else none

/-- The first sixteen bytes of a digest's text, or all of it where it cannot be cut there. -/
def short (s : String) : String :=
  match takeBytes? 16 s.toList with
  | some cs => String.ofList cs
  | none => s

end BuildFront.Digest
