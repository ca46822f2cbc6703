import BuildFront.Path
import Mathlib.Data.List.Basic

/-!
How the parts of a path are counted. Whatever is before the first slash is one part, and behind it
empty pieces and lone dots are none; so a path can have slashes and still be of one part.
-/

namespace BuildFront
namespace Path

theorem partOf?_eq_none_iff (piece : Bytes) :
    partOf? piece = none ↔ piece = [] ∨ piece = [dot] := by
  rw [partOf?]
  split
  · next h => exact iff_of_true rfl h
  · next h =>
      refine iff_of_false ?_ h
      split <;> simp

theorem exists_parts_eq_cons {p : Path} (h : p.isEmpty = false) :
    ∃ part, p.parts = part :: p.pieces.tail.filterMap partOf? := by
  obtain ⟨bytes⟩ := p
  cases bytes with
  | nil => cases h
  | cons b bs =>
      obtain ⟨first, rest, hsplit⟩ := List.exists_cons_of_ne_nil (List.splitOn_ne_nil slash bs)
      by_cases hb : b = slash
      · have rooted : isRooted ⟨b :: bs⟩ = true := beq_iff_eq.mpr (congrArg some hb)
        have cut : pieces ⟨b :: bs⟩ = [] :: first :: rest := by
          rw [pieces, List.splitOn_cons_eq_if_modifyHead, if_pos (beq_iff_eq.mpr hb), hsplit]
        refine ⟨.root, ?_⟩
        rw [parts, if_pos rooted, cut]
        rfl
      · have unrooted : isRooted ⟨b :: bs⟩ = false := beq_eq_false_iff_ne.mpr (by simpa using hb)
        have cut : pieces ⟨b :: bs⟩ = (b :: first) :: rest := by
          rw [pieces, List.splitOn_cons_eq_if_modifyHead, if_neg (by simpa using hb), hsplit]
          rfl
        rw [parts, unrooted, cut]
        by_cases hdot : b :: first = [dot]
        · exact ⟨.here, by simp [hdot]⟩
        · obtain ⟨part, hpart⟩ : ∃ part, partOf? (b :: first) = some part := by
            rw [← Option.ne_none_iff_exists', ne_eq, partOf?_eq_none_iff]
            simpa using hdot
          exact ⟨part, by simp [hdot, hpart]⟩

theorem one_lt_length_parts_iff (p : Path) :
    1 < p.parts.length ↔ ∃ piece ∈ p.pieces.tail, piece ≠ [] ∧ piece ≠ [dot] := by
  cases he : p.isEmpty with
  | true =>
      obtain ⟨bytes⟩ := p
      cases List.isEmpty_iff.mp he
      exact iff_of_false (by decide) (by simp [pieces])
  | false =>
      have vacant : p.pieces.tail.filterMap partOf? = [] ↔
          ∀ piece ∈ p.pieces.tail, piece = [] ∨ piece = [dot] := by
        simp only [List.filterMap_eq_nil_iff, partOf?_eq_none_iff]
      obtain ⟨part, hp⟩ := exists_parts_eq_cons he
      rw [hp, List.length_cons, Nat.lt_add_left_iff_pos, List.length_pos_iff, ne_eq, vacant]
      push Not
      rfl

/-- What follows the last slash is a piece, and not the first. -/
theorem exists_last_slash {p : Path} (h : slash ∈ p.bytes) :
    ∃ front last, p.bytes = front ++ slash :: last ∧ last ∈ p.pieces.tail := by
  obtain ⟨back, front, hsplit, hback⟩ := List.eq_append_cons_of_mem (List.mem_reverse.mpr h)
  have bytes : p.bytes = front.reverse ++ slash :: back.reverse := by
    rw [← List.reverse_reverse p.bytes, hsplit]
    simp
  obtain ⟨first, rest, hfront⟩ :=
    List.exists_cons_of_ne_nil (List.splitOn_ne_nil slash front.reverse)
  have uncut : back.reverse.splitOn slash = [back.reverse] :=
    List.splitOn_eq_singleton (by simpa using hback)
  refine ⟨_, _, bytes, ?_⟩
  rw [pieces, bytes, List.splitOn_append_cons_self, hfront, uncut]
  exact List.mem_append_right rest (.head _)

theorem exists_bytes_join_eq (base p : Path) : ∃ front, (base.join p).bytes = front ++ p.bytes := by
  rw [join]
  split
  · exact ⟨[], rfl⟩
  · split
    · exact ⟨base.bytes, rfl⟩
    · exact ⟨base.bytes ++ [slash], by simp⟩

end Path
end BuildFront
