/-!
Bytes and their reading as UTF-8. The bytes of a character are read one at a time; where they break
off, what had been read of it counts as one broken piece, and the byte at hand is read afresh.
-/

namespace BuildFront

/-- Raw contents of a file, a stream or a path. -/
abbrev Bytes := List UInt8

namespace Utf8

def encode (cs : List Char) : Bytes :=
  cs.flatMap String.utf8EncodeChar

def ofString (s : String) : Bytes :=
  encode s.toList

/-- A character of several bytes that has begun: its bits so far, the number of bytes to come, and
the range of the next one. -/
structure Pending where
  bits : Nat
  missing : Nat
  low : UInt8
  high : UInt8

/-- What reading a byte gives: pieces completed, and the character that has begun. -/
abbrev Reading := List (Option Char) × Option Pending

/-- Read a byte between characters. The second byte has a narrower range after some first bytes: a
wider one would admit overlong forms, surrogates, and numbers beyond the last character. -/
def begin (b : UInt8) : Reading :=
  let n := b.toNat
  if n < 0x80 then ([some (Char.ofNat n)], none)
  else if n < 0xC2 then ([none], none)
  else if n < 0xE0 then ([], some ⟨n - 0xC0, 1, 0x80, 0xBF⟩)
  else if n = 0xE0 then ([], some ⟨0, 2, 0xA0, 0xBF⟩)
  else if n = 0xED then ([], some ⟨0xD, 2, 0x80, 0x9F⟩)
  else if n < 0xF0 then ([], some ⟨n - 0xE0, 2, 0x80, 0xBF⟩)
  else if n = 0xF0 then ([], some ⟨0, 3, 0x90, 0xBF⟩)
  else if n < 0xF4 then ([], some ⟨n - 0xF0, 3, 0x80, 0xBF⟩)
  else if n = 0xF4 then ([], some ⟨4, 3, 0x80, 0x8F⟩)
  else ([none], none)

/-- Read a byte after what has begun. -/
def feed : Option Pending → UInt8 → Reading
  | none, b => begin b
  | some p, b =>
    if p.low ≤ b ∧ b ≤ p.high then
      let bits := p.bits * 64 + (b.toNat - 0x80)
      if p.missing ≤ 1 then ([some (Char.ofNat bits)], none)
      else ([], some ⟨bits, p.missing - 1, 0x80, 0xBF⟩)
    else
      let fresh := begin b
      (none :: fresh.1, fresh.2)

/-- The characters of some bytes in order, `none` standing for a broken piece. -/
def piecesAfter : Option Pending → Bytes → List (Option Char)
  | none, [] => []
  | some _, [] => [none]
  | p, b :: rest => (feed p b).1 ++ piecesAfter (feed p b).2 rest

def pieces (bs : Bytes) : List (Option Char) :=
  piecesAfter none bs

/-- The text of some bytes, if they are UTF-8 throughout. -/
def decode? (bs : Bytes) : Option (List Char) :=
  (pieces bs).mapM id

/-- The text of some bytes, each broken piece shown as the replacement character. -/
def lossy (bs : Bytes) : String :=
  String.ofList ((pieces bs).map (·.getD '\uFFFD'))

def toString? (bs : Bytes) : Option String :=
  (decode? bs).map String.ofList

end Utf8
end BuildFront
