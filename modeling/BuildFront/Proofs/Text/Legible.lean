import BuildFront.Proofs.Text.Pieces
import BuildFront.Proofs.Text.Utf8
import Mathlib.Data.Set.List

/-!
Bytes that are the bytes of a text. They are read as that text, and cutting them at an ASCII
character and joining them again keeps to texts.
-/

namespace BuildFront
namespace Utf8

theorem piecesAfter_last {p : Pending} {b : UInt8} (hrange : p.low ≤ b ∧ b ≤ p.high)
    (hlast : p.missing ≤ 1) (rest : Bytes) :
    piecesAfter (some p) (b :: rest) =
      some (Char.ofNat (p.bits * 64 + (b.toNat - 0x80))) :: piecesAfter none rest := by
  rw [piecesAfter, feed, if_pos hrange, if_pos hlast]
  rfl

theorem piecesAfter_more {p : Pending} {b : UInt8} (hrange : p.low ≤ b ∧ b ≤ p.high)
    (hmore : ¬p.missing ≤ 1) (rest : Bytes) :
    piecesAfter (some p) (b :: rest) =
      piecesAfter (some ⟨p.bits * 64 + (b.toNat - 0x80), p.missing - 1, 0x80, 0xBF⟩) rest := by
  rw [piecesAfter, feed, if_pos hrange, if_neg hmore]
  rfl

theorem piecesAfter_begin {a : UInt8} {p : Pending} (h : begin a = ([], some p)) (rest : Bytes) :
    piecesAfter none (a :: rest) = piecesAfter (some p) rest := by
  rw [piecesAfter, feed, h]
  rfl

theorem begin_one {a : UInt8} (h : a.toNat < 0x80) :
    begin a = ([some (Char.ofNat a.toNat)], none) := by
  rw [begin, if_pos h]

theorem begin_two {a : UInt8} (h : 0xC2 ≤ a.toNat) (h' : a.toNat < 0xE0) :
    begin a = ([], some ⟨a.toNat - 0xC0, 1, 0x80, 0xBF⟩) := by
  rw [begin, if_neg (by omega), if_neg (by omega), if_pos h']

/-- The first of three bytes admits the second ones that spell no number twice and no surrogate. -/
theorem begin_three {a b : UInt8} (h : 0xE0 ≤ a.toNat) (h' : a.toNat < 0xF0) (hb : Tail b)
    (long : a.toNat = 0xE0 → 0xA0 ≤ b.toNat) (valid : a.toNat = 0xED → b.toNat < 0xA0) :
    ∃ low high, begin a = ([], some ⟨a.toNat - 0xE0, 2, low, high⟩) ∧ low ≤ b ∧ b ≤ high := by
  obtain ⟨hlow, hhigh⟩ := hb
  simp only [begin, UInt8.le_iff_toNat_le]
  rw [if_neg (by omega), if_neg (by omega), if_neg (by omega)]
  split
  · next heq =>
      rw [heq]
      exact ⟨_, _, rfl, long heq, by change _ ≤ 0xBF; omega⟩
  · split
    · next heq =>
        rw [heq]
        exact ⟨_, _, rfl, hlow, by change _ ≤ 0x9F; have := valid heq; omega⟩
    · exact ⟨_, _, rfl, hlow, by change _ ≤ 0xBF; omega⟩

/-- The first of four bytes admits the second ones that spell no number twice and none too large. -/
theorem begin_four {a b : UInt8} (h : 0xF0 ≤ a.toNat) (h' : a.toNat < 0xF5) (hb : Tail b)
    (long : a.toNat = 0xF0 → 0x90 ≤ b.toNat) (valid : a.toNat = 0xF4 → b.toNat < 0x90) :
    ∃ low high, begin a = ([], some ⟨a.toNat - 0xF0, 3, low, high⟩) ∧ low ≤ b ∧ b ≤ high := by
  obtain ⟨hlow, hhigh⟩ := hb
  simp only [begin, UInt8.le_iff_toNat_le]
  rw [if_neg (by omega), if_neg (by omega), if_neg (by omega), if_neg (by omega),
    if_neg (by omega), if_neg (by omega)]
  split
  · next heq =>
      rw [heq]
      exact ⟨_, _, rfl, long heq, by change _ ≤ 0xBF; omega⟩
  · split
    · exact ⟨_, _, rfl, hlow, by change _ ≤ 0xBF; omega⟩
    · rw [if_pos (by omega)]
      have heq : a.toNat = 0xF4 := by omega
      rw [heq]
      exact ⟨_, _, rfl, hlow, by change _ ≤ 0x8F; have := valid heq; omega⟩

theorem piecesAfter_of_spells {bs : Bytes} {n : Nat} (h : Spells bs n) (hn : n.isValidChar)
    (rest : Bytes) :
    piecesAfter none (bs ++ rest) = some (Char.ofNat n) :: piecesAfter none rest := by
  have tail {b : UInt8} (hb : Tail b) : (0x80 : UInt8) ≤ b ∧ b ≤ 0xBF := by
    rw [UInt8.le_iff_toNat_le, UInt8.le_iff_toNat_le]
    exact ⟨hb.1, Nat.le_of_lt_succ hb.2⟩
  simp only [Nat.isValidChar] at hn
  cases h with
  | @one a n ha heq =>
      rw [heq, List.singleton_append, piecesAfter, feed, begin_one ha]
      rfl
  | @two a b n ha ha' hb hlong heq =>
      have first := begin_two (a := a) (by have := hb.2; omega) ha'
      rw [heq]
      exact (piecesAfter_begin first _).trans (piecesAfter_last (tail hb) (by simp) _)
  | @three a b c n ha ha' hb hc hlong heq =>
      have second := hb.2
      have third := hc.2
      obtain ⟨low, high, first, hrange⟩ :=
        begin_three ha ha' hb (fun _ => by omega) (fun _ => by omega)
      rw [heq]
      refine (piecesAfter_begin first _).trans ?_
      refine (piecesAfter_more hrange (by simp) _).trans ?_
      exact piecesAfter_last (tail hc) (by simp) _
  | @four a b c d n ha ha' hb hc hd hlong heq =>
      have second := hb.2
      have third := hc.2
      have fourth := hd.2
      obtain ⟨low, high, first, hrange⟩ :=
        begin_four ha (by omega) hb (fun _ => by omega) (fun _ => by omega)
      rw [heq]
      refine (piecesAfter_begin first _).trans ?_
      refine (piecesAfter_more hrange (by simp) _).trans ?_
      refine (piecesAfter_more (tail hc) (by simp) _).trans ?_
      exact piecesAfter_last (tail hd) (by simp) _

theorem pieces_encode (cs : List Char) : pieces (encode cs) = cs.map some := by
  induction cs with
  | nil => rfl
  | cons c cs ih =>
      have first := piecesAfter_of_spells (spells_utf8EncodeChar c) c.valid (encode cs)
      rw [pieces, encode_cons, first, Char.ofNat_toNat, List.map_cons]
      exact congrArg _ ih

theorem decode?_encode (cs : List Char) : decode? (encode cs) = some cs := by
  rw [decode?, pieces_encode]
  exact (mapM_id_eq_some_iff _ _).mpr rfl

theorem toString?_ofString (s : String) : toString? (ofString s) = some s := by
  rw [toString?, ofString, decode?_encode, Option.map_some, String.ofList_toList]

theorem encode_intercalate (sep : List Char) (l : List (List Char)) :
    encode (sep.intercalate l) = (encode sep).intercalate (l.map encode) := by
  induction l with
  | nil => rfl
  | cons cs l ih =>
      cases l with
      | nil => simp
      | cons ds l =>
          rw [List.map_cons, List.map_cons, List.intercalate_cons_cons,
            List.intercalate_cons_cons, encode, List.flatMap_append, List.flatMap_append]
          exact congrArg _ ih

/-- An ASCII byte is spelt by itself only, and is no part of a longer spelling. -/
theorem Spells.eq_toNat_of_mem {bs : Bytes} {n : Nat} (h : Spells bs n) {b : UInt8} (hb : b ∈ bs)
    (hascii : b.toNat < 0x80) : n = b.toNat := by
  cases h <;> simp only [Tail, List.mem_cons, List.not_mem_nil, or_false] at *
  case one =>
    rw [hb]
    assumption
  case two => rcases hb with rfl | rfl <;> omega
  case three => rcases hb with rfl | rfl | rfl <;> omega
  case four => rcases hb with rfl | rfl | rfl | rfl <;> omega

theorem mem_of_mem_encode {b : UInt8} (hascii : b.toNat < 0x80) {cs : List Char}
    (h : b ∈ encode cs) : Char.ofNat b.toNat ∈ cs := by
  obtain ⟨c, hc, hb⟩ := List.mem_flatMap.mp h
  rw [← (spells_utf8EncodeChar c).eq_toNat_of_mem hb hascii, Char.ofNat_toNat]
  exact hc

theorem encode_of_ascii {b : UInt8} (h : b.toNat < 0x80) : encode [Char.ofNat b.toNat] = [b] := by
  have valid : b.toNat.isValidChar := by
    simp only [Nat.isValidChar]
    omega
  rw [encode, List.flatMap_singleton, (Spells.one h rfl).eq_utf8EncodeChar valid]

/-- Cutting bytes at an ASCII byte is cutting the text at its character. -/
theorem splitOn_encode {b : UInt8} (h : b.toNat < 0x80) (cs : List Char) :
    (encode cs).splitOn b = (cs.splitOn (Char.ofNat b.toNat)).map encode := by
  have joined : encode cs = [b].intercalate ((cs.splitOn (Char.ofNat b.toNat)).map encode) := by
    rw [← encode_of_ascii h, ← encode_intercalate, List.intercalate_splitOn]
  rw [joined]
  refine List.splitOn_intercalate b ?_ (by simp)
  rw [List.forall_mem_map]
  intro piece hpiece hmem
  exact not_mem_of_mem_splitOn hpiece (mem_of_mem_encode h hmem)

def IsText (bs : Bytes) : Prop :=
  ∃ cs, encode cs = bs

/-- Bytes with an ASCII byte between pieces are a text exactly if all the pieces are. -/
theorem isText_iff_of_splitOn {b : UInt8} (h : b.toNat < 0x80) (bs : Bytes) :
    IsText bs ↔ ∀ piece ∈ bs.splitOn b, IsText piece := by
  constructor
  · rintro ⟨cs, rfl⟩
    rw [splitOn_encode h, List.forall_mem_map]
    exact fun piece _ => ⟨piece, rfl⟩
  · intro hall
    obtain ⟨texts, htexts⟩ : bs.splitOn b ∈ Set.range (List.map encode) := by
      rw [Set.range_list_map]
      exact hall
    refine ⟨[Char.ofNat b.toNat].intercalate texts, ?_⟩
    rw [encode_intercalate, encode_of_ascii h, htexts, List.intercalate_splitOn]

end Utf8
end BuildFront
