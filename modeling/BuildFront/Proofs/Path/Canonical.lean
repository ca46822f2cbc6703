import BuildFront.Proofs.Path.Folding

/-!
What a folded path with a root looks like byte by byte.
-/

namespace BuildFront
namespace Path

/-- A path with a root in its one spelling: nothing in it is left to fold. -/
structure Canonical (p : Path) : Prop where
  rooted : p.isRooted = true
  undotted : ∀ piece ∈ p.pieces, piece ≠ [dot] ∧ piece ≠ [dot, dot]
  slashesSingle : ¬[slash, slash] <:+: p.bytes
  slashNotLast : p.bytes.getLast? = some slash → p.bytes = [slash]
  folded : p.normalize = p

theorem pieces_ofParts_of_ne_nil {l : List Part} (hne : l ≠ [])
    (h : ∀ part ∈ l, slash ∉ part.bytes) :
    (ofParts true l).pieces = [] :: l.map Part.bytes := by
  change ([] ++ slash :: [slash].intercalate (l.map Part.bytes)).splitOn slash = _
  rw [List.splitOn_append_cons_self, splitOn_intercalate_bytes hne h]
  rfl

theorem nil_mem_tail_pieces {p : Path} {front back : Bytes}
    (h : p.bytes = front ++ slash :: back) (hback : [] ∈ back.splitOn slash) :
    [] ∈ p.pieces.tail := by
  rw [pieces, h, List.splitOn_append_cons_self]
  obtain ⟨first, rest, hfirst⟩ := List.exists_cons_of_ne_nil (List.splitOn_ne_nil slash front)
  rw [hfirst]
  exact List.mem_append_right rest hback

/-- Two slashes in a row have an empty piece between them. -/
theorem nil_mem_tail_of_doubled {p : Path} (h : [slash, slash] <:+: p.bytes) :
    [] ∈ p.pieces.tail := by
  obtain ⟨front, back, hsplit⟩ := h
  rw [List.append_assoc] at hsplit
  refine nil_mem_tail_pieces hsplit.symm ?_
  change [] ∈ ([] ++ slash :: back).splitOn slash
  rw [List.splitOn_append_cons_self]
  exact .head _

theorem nil_mem_tail_of_getLast? {p : Path} (h : p.bytes.getLast? = some slash) :
    [] ∈ p.pieces.tail := by
  obtain ⟨front, hfront⟩ := List.getLast?_eq_some_iff.mp h
  exact nil_mem_tail_pieces hfront (.head _)

theorem canonical_ofParts {stack : List Part} (h : Walked true stack) :
    (ofParts true stack.reverse).Canonical := by
  have rooted := isRooted_ofParts h
  have folded := normalize_ofParts h
  have plain : ∀ part ∈ stack.reverse, ∃ n, part = .name n ∧ Plain n :=
    fun part hpart => h.plain part (List.mem_reverse.mp hpart)
  by_cases hne : stack.reverse = []
  · rw [hne] at rooted folded ⊢
    exact ⟨rooted, by decide, by decide, fun _ => rfl, folded⟩
  · have unslashed : ∀ part ∈ stack.reverse, slash ∉ part.bytes := by
      intro part hpart
      obtain ⟨n, rfl, hn⟩ := plain part hpart
      exact hn.1
    have hpieces := pieces_ofParts_of_ne_nil hne unslashed
    have filled : [] ∉ (ofParts true stack.reverse).pieces.tail := by
      rw [hpieces, List.tail_cons, List.mem_map]
      rintro ⟨part, hpart, hempty⟩
      obtain ⟨n, rfl, hn⟩ := plain part hpart
      exact hn.2.1 hempty
    refine ⟨rooted, ?_, ?_, ?_, folded⟩
    · rw [hpieces, List.forall_mem_cons, List.forall_mem_map]
      refine ⟨by simp, ?_⟩
      intro part hpart
      obtain ⟨n, rfl, hn⟩ := plain part hpart
      exact hn.2.2
    · exact fun hdouble => filled (nil_mem_tail_of_doubled hdouble)
    · exact fun hlast => absurd (nil_mem_tail_of_getLast? hlast) filled

theorem canonical_normalize {p : Path} (h : p.isRooted = true) : p.normalize.Canonical := by
  obtain ⟨stack, hstack, hp⟩ := exists_walked_normalize p
  rw [h] at hstack hp
  rw [hp]
  exact canonical_ofParts hstack

theorem canonical_absolutize {cwd : Path} (h : cwd.isRooted = true) (p : Path) :
    (absolutize cwd p).Canonical := by
  rw [← absolutize_absolutize h cwd p, absolutize_of_rooted cwd (isRooted_absolutize h p)]
  exact canonical_normalize (isRooted_absolutize h p)

end Path
end BuildFront
