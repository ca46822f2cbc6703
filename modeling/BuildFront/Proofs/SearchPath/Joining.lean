import BuildFront.SearchPath
import BuildFront.Proofs.Text.Pieces

/-!
Lists of directories joined with colons, and cut again. What was joined is cut into the same
directories; an entry that has a colon cannot be joined, and none that comes from a cut has one.
-/

namespace BuildFront
namespace SearchPath

variable {dirs : SearchPath} {joined bs : Bytes}

theorem joinedFrom_eq_some_iff :
    joinedFrom joined false dirs = some bs ↔
      (∀ dir ∈ dirs, colon ∉ dir.bytes) ∧
        bs = joined ++ dirs.flatMap (fun dir => colon :: dir.bytes) := by
  induction dirs generalizing joined with
  | nil => simp [joinedFrom, eq_comm]
  | cons dir dirs ih =>
      rw [joinedFrom, List.forall_mem_cons, List.flatMap_cons]
      by_cases h : colon ∈ dir.bytes
      · simp [h]
      · simp [h, ih]

theorem joined?_eq_some_iff :
    joined? dirs = some bs ↔
      (∀ dir ∈ dirs, colon ∉ dir.bytes) ∧ bs = [colon].intercalate (dirs.map Path.bytes) := by
  have onward (dir : Path) (rest : SearchPath) :
      [colon].intercalate ((dir :: rest).map Path.bytes) =
        dir.bytes ++ rest.flatMap (fun dir => colon :: dir.bytes) := by
    induction rest generalizing dir with
    | nil => simp
    | cons next rest ih => simp_all [List.intercalate_cons_cons]
  cases dirs with
  | nil => simp [joined?, joinedFrom, eq_comm]
  | cons dir dirs =>
      rw [joined?, joinedFrom, List.forall_mem_cons, onward]
      by_cases h : colon ∈ dir.bytes
      · simp [h]
      · simp [h, joinedFrom_eq_some_iff]

theorem joined?_isSome_iff :
    (joined? dirs).isSome = true ↔ ∀ dir ∈ dirs, colon ∉ dir.bytes := by
  rw [Option.isSome_iff_exists]
  simp only [joined?_eq_some_iff, exists_and_left, exists_eq, and_true]

theorem map_bytes_ofBytes (bs : Bytes) : (ofBytes bs).map Path.bytes = bs.splitOn colon := by
  simp [ofBytes, Function.comp_def]

theorem not_mem_of_mem_ofBytes {dir : Path} (h : dir ∈ ofBytes bs) : colon ∉ dir.bytes := by
  have piece := List.mem_map_of_mem (f := Path.bytes) h
  rw [map_bytes_ofBytes] at piece
  exact BuildFront.not_mem_of_mem_splitOn piece

/-- An entry in front of others that come from a cut is joined to them as they were. -/
theorem joined?_cons_ofBytes {dir : Path} (hdir : colon ∉ dir.bytes) (bs : Bytes) :
    joined? (dir :: ofBytes bs) = some (dir.bytes ++ colon :: bs) := by
  rw [joined?_eq_some_iff, List.forall_mem_cons, List.map_cons, map_bytes_ofBytes,
    List.intercalate_cons_of_ne_nil (List.splitOn_ne_nil _ _), List.intercalate_splitOn]
  exact ⟨⟨hdir, fun _ => not_mem_of_mem_ofBytes⟩, by simp⟩

/-- What was joined is cut into what it was. -/
theorem ofBytes_of_joined? (h : joined? dirs = some bs) (hne : dirs ≠ []) : ofBytes bs = dirs := by
  obtain ⟨hcolon, rfl⟩ := joined?_eq_some_iff.mp h
  have cut : ([colon].intercalate (dirs.map Path.bytes)).splitOn colon = dirs.map Path.bytes :=
    List.splitOn_intercalate colon (by simpa using hcolon) (by simpa using hne)
  rw [ofBytes, cut, List.map_map]
  exact List.map_id _

end SearchPath
end BuildFront
