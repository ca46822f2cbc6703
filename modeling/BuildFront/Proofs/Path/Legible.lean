import BuildFront.Proofs.Path.Folding
import BuildFront.Proofs.Text.Legible

/-!
Paths that are texts. Every part that folding leaves stood as a piece in the path, so a path seen
from a directory is a text if the folded directory and the path are, whatever else was folded away.
-/

namespace BuildFront
namespace Path

def IsText (p : Path) : Prop :=
  ∃ s, p = .ofString s

theorem isText_iff (p : Path) : p.IsText ↔ Utf8.IsText p.bytes := by
  constructor
  · rintro ⟨s, rfl⟩
    exact ⟨s.toList, rfl⟩
  · rintro ⟨cs, h⟩
    refine ⟨String.ofList cs, ?_⟩
    rw [ofString, Utf8.ofString, String.toList_ofList, h]

theorem text?_eq_some_iff (p : Path) (s : String) : p.text? = some s ↔ p = .ofString s := by
  constructor
  · intro h
    rw [ofString, Utf8.ofString_of_toString? h]
  · rintro rfl
    exact Utf8.toString?_ofString s

theorem isText_iff_of_pieces (p : Path) : p.IsText ↔ ∀ piece ∈ p.pieces, Utf8.IsText piece := by
  rw [isText_iff]
  exact Utf8.isText_iff_of_splitOn (by decide) p.bytes

theorem isText_ofParts_iff {rooted : Bool} {l : List Part} (h : ∀ part ∈ l, slash ∉ part.bytes) :
    (ofParts rooted l).IsText ↔ ∀ part ∈ l, Utf8.IsText part.bytes := by
  have body : Utf8.IsText ([slash].intercalate (l.map Part.bytes)) ↔
      ∀ part ∈ l, Utf8.IsText part.bytes := by
    by_cases hne : l = []
    · subst hne
      exact ⟨by simp, fun _ => ⟨[], rfl⟩⟩
    · rw [Utf8.isText_iff_of_splitOn (b := slash) (by decide), splitOn_intercalate_bytes hne h,
        List.forall_mem_map]
  cases rooted with
  | false =>
      rw [isText_iff, ← body]
      rfl
  | true =>
      have split : (ofParts true l).pieces =
          [] :: ([slash].intercalate (l.map Part.bytes)).splitOn slash :=
        List.splitOn_append_cons_self [] _
      rw [isText_iff_of_pieces, split, List.forall_mem_cons, ← body,
        ← Utf8.isText_iff_of_splitOn (by decide)]
      exact and_iff_right ⟨[], rfl⟩

theorem mem_of_mem_step {rooted : Bool} {stack : List Part} {part taken : Part}
    (h : part ∈ step rooted stack taken) : part = taken ∨ part ∈ stack := by
  cases taken with
  | root | here => exact .inr h
  | name n => exact List.mem_cons.mp h
  | up =>
      rcases stack with _ | ⟨top, outer⟩
      · cases rooted with
        | true => exact .inr h
        | false => exact List.mem_cons.mp h
      · cases top with
        | name n => exact .inr (.tail _ h)
        | up => exact List.mem_cons.mp h
        | root | here =>
            cases rooted with
            | true => exact .inr h
            | false => exact List.mem_cons.mp h

theorem mem_of_mem_foldl_step {rooted : Bool} {parts stack : List Part} {part : Part}
    (h : part ∈ parts.foldl (step rooted) stack) : part ∈ parts ∨ part ∈ stack := by
  induction parts generalizing stack with
  | nil => exact .inr h
  | cons taken rest ih =>
      rcases ih h with hrest | hstep
      · exact .inl (.tail _ hrest)
      · rcases mem_of_mem_step hstep with rfl | hstack
        · exact .inl (.head _)
        · exact .inr hstack

theorem bytes_of_partOf? {piece : Bytes} {part : Part} (h : partOf? piece = some part) :
    part.bytes = piece := by
  rw [partOf?] at h
  split at h
  · cases h
  · split at h
    · next hup =>
        cases h
        exact hup.symm
    · cases h
      rfl

/-- A part that a walk leaves was there before, or stood as a piece in the path. -/
theorem mem_of_mem_walk {rooted : Bool} {stack : List Part} {p : Path} {part : Part}
    (h : part ∈ walk rooted stack p) : part ∈ stack ∨ part.bytes ∈ p.pieces := by
  rcases mem_of_mem_foldl_step h with hparts | hstack
  · obtain ⟨piece, hpiece, hpart⟩ := List.mem_filterMap.mp hparts
    rw [bytes_of_partOf? hpart]
    exact .inr hpiece
  · exact .inl hstack

theorem isText_normalize_iff (p : Path) :
    p.normalize.IsText ↔ ∀ part ∈ walk p.isRooted [] p, Utf8.IsText part.bytes := by
  have walked : Walked p.isRooted (walk p.isRooted [] p) := walked_walk p .start
  rw [normalize_eq_ofParts_walk, isText_ofParts_iff]
  · simp only [List.mem_reverse]
  · exact fun part hpart => (walked.plain_bytes part (List.mem_reverse.mp hpart)).1

theorem IsText.normalize {p : Path} (h : p.IsText) : p.normalize.IsText := by
  rw [isText_normalize_iff]
  intro part hpart
  rcases mem_of_mem_walk hpart with hnil | hpiece
  · cases hnil
  · exact (isText_iff_of_pieces p).mp h _ hpiece

/-- What is no text in a directory's spelling does no harm once it is folded away. -/
theorem isText_absolutize {cwd p : Path} (hcwd : cwd.normalize.IsText) (hp : p.IsText) :
    (absolutize cwd p).IsText := by
  cases hrooted : p.isRooted with
  | true =>
      rw [absolutize_of_rooted cwd hrooted]
      exact hp.normalize
  | false =>
      rw [absolutize, isText_normalize_iff, isRooted_join cwd hrooted, walk_join _ _ cwd hrooted]
      intro part hpart
      rcases mem_of_mem_walk hpart with hbase | hpiece
      · exact (isText_normalize_iff cwd).mp hcwd part hbase
      · exact (isText_iff_of_pieces p).mp hp _ hpiece

end Path
end BuildFront
