import BuildFront.Path

/-!
Texts as programs hand them to each other: bytes, each of which stands as the character of its
number. What is no text in any encoding passes through them unchanged.
-/

namespace BuildFront

/-- A text of which every character stands for one byte. -/
abbrev Octets := String

namespace Octets

def ofBytes (bs : Bytes) : Octets :=
  String.ofList (bs.map (fun b => Char.ofNat b.toNat))

def toBytes (s : Octets) : Bytes :=
  s.toList.map (fun c => UInt8.ofNat c.toNat)

def ofString (s : String) : Octets :=
  ofBytes (Utf8.ofString s)

def toPath (s : Octets) : Path :=
  ⟨s.toBytes⟩

def ofPath (p : Path) : Octets :=
  ofBytes p.bytes

end Octets
end BuildFront
