import BuildFront.Proofs.Path.Leading

/-!
How seeing a path from a directory goes together with joining and folding. A joined path leads to
where its second part leads from the end of the first, and folding keeps where a path leads: so it
does not matter when, how often and in which order the parts are folded.
-/

namespace BuildFront
namespace Path

theorem lead_eq_foldl_pieces (p : Path) (start : List Bytes) :
    p.lead start =
      (p.pieces.filterMap partOf?).foldl Part.enter (if p.isRooted then [] else start) := by
  rw [lead_eq_foldl_parts, foldl_parts (fun _ => rfl) (fun _ => rfl)]

theorem lead_join (base p : Path) (start : List Bytes) :
    (join base p).lead start = p.lead (base.lead start) := by
  rw [lead_eq_foldl_pieces p, lead_eq_foldl_pieces base]
  cases h : p.isRooted with
  | true => rw [join_of_rooted base h, lead_eq_foldl_pieces, h, if_pos rfl, if_pos rfl]
  | false =>
      rw [lead_eq_foldl_pieces, filterMap_pieces_join base h, List.foldl_append,
        isRooted_join base h, if_neg Bool.false_ne_true]

theorem absolutize_normalize (base p : Path) :
    absolutize base.normalize p.normalize = absolutize base p := by
  apply normalize_eq_of_lead_eq
  · simp only [isRooted_join_eq, isRooted_normalize]
  · intro start _
    simp only [lead_join, lead_normalize]

theorem absolutize_absolutize_join (base p q : Path) :
    absolutize (absolutize base p) q = absolutize base (join p q) := by
  apply normalize_eq_of_lead_eq
  · simp only [isRooted_join_eq, absolutize, isRooted_normalize, Bool.or_assoc]
  · intro start _
    simp only [lead_join, absolutize, lead_normalize]

/-- What is seen from a directory depends on the directory's folded form alone. -/
theorem absolutize_congr {base base' : Path} (h : base.normalize = base'.normalize) :
    absolutize base = absolutize base' := by
  funext p
  rw [← absolutize_normalize base, h, absolutize_normalize]

end Path
end BuildFront
