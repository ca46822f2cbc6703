import BuildFront.Proofs.Path.NormalForm

/-!
Folding as a walk: below a directory a path goes on from where the directory's own walk ended, and
what folding leaves is walked to itself. So folding again changes nothing, and a path with a root
is folded the same from everywhere.
-/

namespace BuildFront
namespace Path

/-- The walk along a path, on from the directories walked so far. -/
def walk (rooted : Bool) (stack : List Part) (p : Path) : List Part :=
  (p.pieces.filterMap partOf?).foldl (step rooted) stack

theorem normalize_eq_ofParts_walk (p : Path) :
    p.normalize = ofParts p.isRooted (walk p.isRooted [] p).reverse := by
  rw [normalize, foldl_step_parts, walk]

theorem walked_walk {rooted : Bool} {stack : List Part} (p : Path) (h : Walked rooted stack) :
    Walked rooted (walk rooted stack p) := by
  rw [walk, ← foldl_step_parts]
  exact walked_foldl (fun _ => given_of_mem_parts) h

theorem isRooted_join (base : Path) {p : Path} (h : p.isRooted = false) :
    (join base p).isRooted = base.isRooted := by
  rw [join, if_neg (by simp [h])]
  cases hb : base.bytes with
  | nil => simpa [isEmpty, isRooted, hb] using h
  | cons b rest => split <;> simp [isRooted, hb]

theorem join_of_rooted (base : Path) {p : Path} (h : p.isRooted = true) : join base p = p := by
  rw [join, if_pos h]

theorem isRooted_join_eq (base p : Path) :
    (join base p).isRooted = (base.isRooted || p.isRooted) := by
  cases h : p.isRooted with
  | true => rw [join_of_rooted base h, h, Bool.or_true]
  | false => rw [isRooted_join base h, Bool.or_false]

theorem filterMap_pieces_join (base : Path) {p : Path} (h : p.isRooted = false) :
    (join base p).pieces.filterMap partOf? =
      base.pieces.filterMap partOf? ++ p.pieces.filterMap partOf? := by
  rw [join, if_neg (by simp [h])]
  split
  · next hend =>
      rw [Bool.or_eq_true, beq_iff_eq, List.getLast?_eq_some_iff, isEmpty, List.isEmpty_iff] at hend
      rcases hend with hempty | ⟨front, hfront⟩
      · simp only [pieces, hempty]
        rfl
      · simp only [pieces, hfront, List.append_assoc, List.singleton_append]
        rw [List.splitOn_append_cons_self, List.splitOn_append_cons_self, List.filterMap_append,
          List.filterMap_append]
        exact congrArg (· ++ _) (List.append_nil _).symm
  · rw [pieces, List.splitOn_append_cons_self, List.filterMap_append]
    rfl

/-- Below a directory the walk goes on from where the directory's walk ended. -/
theorem walk_join (rooted : Bool) (stack : List Part) (base : Path) {p : Path}
    (h : p.isRooted = false) :
    walk rooted stack (join base p) = walk rooted (walk rooted stack base) p := by
  rw [walk, filterMap_pieces_join base h, List.foldl_append, walk, walk]

theorem foldl_step_reverse {rooted : Bool} {stack : List Part} (h : Walked rooted stack) :
    stack.reverse.foldl (step rooted) [] = stack := by
  -- Taken outermost first, each part meets the very stack that it was put on by the walk.
  induction h with
  | start => rfl
  | @up stack hrooted hall _ ih =>
      rw [List.reverse_cons, List.foldl_concat, ih]
      cases stack with
      | nil => simp [step, hrooted]
      | cons part rest =>
          rw [List.forall_mem_cons] at hall
          rw [hall.1, step]
  | name _ _ ih => rw [List.reverse_cons, List.foldl_concat, ih, step]

theorem normalize_ofParts {rooted : Bool} {stack : List Part} (h : Walked rooted stack) :
    (ofParts rooted stack.reverse).normalize = ofParts rooted stack.reverse := by
  rw [normalize, isRooted_ofParts h, parts_ofParts h, List.foldl_append]
  have start : (if rooted then [Part.root] else []).foldl (step rooted) [] = [] := by
    cases rooted <;> rfl
  rw [start, foldl_step_reverse h]

theorem normalize_normalize (p : Path) : p.normalize.normalize = p.normalize := by
  obtain ⟨stack, hstack, hp⟩ := exists_walked_normalize p
  rw [hp, normalize_ofParts hstack]

theorem isRooted_normalize (p : Path) : p.normalize.isRooted = p.isRooted := by
  obtain ⟨stack, hstack, hp⟩ := exists_walked_normalize p
  rw [hp, isRooted_ofParts hstack]

theorem absolutize_of_rooted (cwd : Path) {p : Path} (h : p.isRooted = true) :
    absolutize cwd p = p.normalize := by
  rw [absolutize, join_of_rooted cwd h]

theorem isRooted_absolutize_eq (cwd p : Path) :
    (absolutize cwd p).isRooted = (cwd.isRooted || p.isRooted) := by
  rw [absolutize, isRooted_normalize, isRooted_join_eq]

theorem isRooted_absolutize {cwd : Path} (h : cwd.isRooted = true) (p : Path) :
    (absolutize cwd p).isRooted = true := by
  rw [isRooted_absolutize_eq, h, Bool.true_or]

theorem absolutize_dot (cwd : Path) : absolutize cwd ⟨[dot]⟩ = cwd.normalize := by
  have unrooted : (⟨[dot]⟩ : Path).isRooted = false := rfl
  rw [absolutize, normalize_eq_ofParts_walk, isRooted_join cwd unrooted, walk_join _ _ cwd unrooted,
    normalize_eq_ofParts_walk]
  rfl

/-- Once absolute, a path means the same from everywhere. -/
theorem absolutize_absolutize {cwd : Path} (h : cwd.isRooted = true) (other p : Path) :
    absolutize other (absolutize cwd p) = absolutize cwd p := by
  rw [absolutize_of_rooted other (isRooted_absolutize h p), absolutize, normalize_normalize]

theorem Walked.plain {stack : List Part} (h : Walked true stack) :
    ∀ part ∈ stack, ∃ n, part = .name n ∧ Plain n := by
  induction stack with
  | nil => simp
  | cons part rest ih =>
      cases h with
      | up hrooted => cases hrooted
      | @name n _ hn hrest =>
          rw [List.forall_mem_cons]
          exact ⟨⟨n, rfl, hn⟩, ih hrest⟩

end Path
end BuildFront
