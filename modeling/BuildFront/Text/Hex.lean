import BuildFront.Text.Utf8

/-!
Bytes in lower-case hexadecimal, two digits a byte.
-/

namespace BuildFront.Hex

def digit (n : Nat) : Char :=
  if n < 10 then Char.ofNat (0x30 + n) else Char.ofNat (0x61 + (n - 10))

def ofByte (b : UInt8) : List Char :=
  [digit (b.toNat / 16), digit (b.toNat % 16)]

def ofBytes (bs : Bytes) : List Char :=
  bs.flatMap ofByte

end BuildFront.Hex
