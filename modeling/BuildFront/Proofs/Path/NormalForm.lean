import BuildFront.Path
import BuildFront.Proofs.Text.Pieces
import Mathlib.Data.List.Basic

/-!
The folded form of a path: names, after the steps up that had nothing to leave if there is no root.
A folded path is written in one way only, so two of them with the same parts are the same bytes.
-/

namespace BuildFront
namespace Path

/-- A name that stands for itself between slashes. -/
def Plain (n : Bytes) : Prop :=
  slash ∉ n ∧ n ≠ [] ∧ n ≠ [dot] ∧ n ≠ [dot, dot]

/-- A part as it comes from a piece of a path. -/
def Part.Given : Part → Prop
  | .name n => Plain n
  | _ => True

/-- What is left of a walk, the innermost part first: names, and below them the steps up that had
nothing to leave. -/
inductive Walked (rooted : Bool) : List Part → Prop where
  | start : Walked rooted []
  | up {stack} : rooted = false → (∀ part ∈ stack, part = .up) → Walked rooted stack →
      Walked rooted (.up :: stack)
  | name {n stack} : Plain n → Walked rooted stack → Walked rooted (.name n :: stack)

theorem given_of_partOf? {piece : Bytes} {part : Part} (hs : slash ∉ piece)
    (h : partOf? piece = some part) : part.Given := by
  rw [partOf?] at h
  split at h
  · cases h
  · next hne =>
      split at h
      · cases h
        trivial
      · next hup =>
          cases h
          rw [not_or] at hne
          exact ⟨hs, hne.1, hne.2, hup⟩

theorem slash_not_mem_of_mem_pieces {p : Path} {piece : Bytes} (h : piece ∈ p.pieces) :
    slash ∉ piece :=
  not_mem_of_mem_splitOn h

theorem given_of_mem_parts {p : Path} {part : Part} (h : part ∈ p.parts) : part.Given := by
  have pieces {ps : List Bytes} (hps : ∀ piece ∈ ps, slash ∉ piece)
      (h : part ∈ ps.filterMap partOf?) : part.Given := by
    obtain ⟨piece, hmem, hpart⟩ := List.mem_filterMap.mp h
    exact given_of_partOf? (hps piece hmem) hpart
  have plain : ∀ piece ∈ p.pieces, slash ∉ piece := fun _ => slash_not_mem_of_mem_pieces
  rw [parts] at h
  split at h
  · rcases List.mem_cons.mp h with rfl | h
    · trivial
    · exact pieces plain h
  · split at h
    · next hsplit =>
        rw [hsplit] at plain
        split at h
        · rcases List.mem_cons.mp h with rfl | h
          · trivial
          · exact pieces (fun piece hp => plain piece (.tail _ hp)) h
        · exact pieces plain h
    · cases h

theorem walked_step {rooted : Bool} {stack : List Part} {part : Part} (hpart : part.Given)
    (h : Walked rooted stack) : Walked rooted (step rooted stack part) := by
  cases part with
  | root | here => exact h
  | name n => exact .name hpart h
  | up =>
      cases h with
      | start =>
          cases rooted with
          | true => exact .start
          | false => exact .up rfl (by simp) .start
      | up hr hall hs => exact .up hr (by simpa using hall) (.up hr hall hs)
      | name _ hs => exact hs

theorem walked_foldl {rooted : Bool} {parts stack : List Part} (hparts : ∀ part ∈ parts, part.Given)
    (h : Walked rooted stack) : Walked rooted (parts.foldl (step rooted) stack) := by
  induction parts generalizing stack with
  | nil => exact h
  | cons part rest ih =>
      rw [List.forall_mem_cons] at hparts
      exact ih hparts.2 (walked_step hparts.1 h)

theorem Walked.plain_bytes {rooted : Bool} {stack : List Part} (h : Walked rooted stack) :
    ∀ part ∈ stack, slash ∉ part.bytes ∧ part.bytes ≠ [] ∧ part.bytes ≠ [dot] ∧
      partOf? part.bytes = some part := by
  induction h with
  | start => simp
  | up _ _ _ ih =>
      rw [List.forall_mem_cons]
      exact ⟨by simp [Part.bytes, partOf?, slash, dot], ih⟩
  | name hn _ ih =>
      rw [List.forall_mem_cons]
      obtain ⟨hs, hne, hdot, hdots⟩ := hn
      exact ⟨⟨hs, hne, hdot, by simp [Part.bytes, partOf?, hne, hdot, hdots]⟩, ih⟩

theorem splitOn_intercalate_bytes {l : List Part} (hne : l ≠ [])
    (h : ∀ part ∈ l, slash ∉ part.bytes) :
    ([slash].intercalate (l.map Part.bytes)).splitOn slash = l.map Part.bytes := by
  refine List.splitOn_intercalate slash ?_ (by simpa using hne)
  rw [List.forall_mem_map]
  exact h

theorem filterMap_splitOn_intercalate {l : List Part}
    (h : ∀ part ∈ l, slash ∉ part.bytes ∧ partOf? part.bytes = some part) :
    (([slash].intercalate (l.map Part.bytes)).splitOn slash).filterMap partOf? = l := by
  by_cases hne : l = []
  · subst hne
    rfl
  · rw [splitOn_intercalate_bytes hne fun part hpart => (h part hpart).1, List.filterMap_map]
    have back : l.filterMap (partOf? ∘ Part.bytes) = l.filterMap some :=
      List.filterMap_congr fun part hpart => (h part hpart).2
    rw [back, List.filterMap_some]

theorem isRooted_ofParts {rooted : Bool} {stack : List Part} (h : Walked rooted stack) :
    (ofParts rooted stack.reverse).isRooted = rooted := by
  cases rooted with
  | true => rfl
  | false =>
      have plain := h.plain_bytes
      cases hl : stack.reverse with
      | nil => rfl
      | cons part rest =>
          obtain ⟨hs, hne, -⟩ := plain part (by rw [← List.mem_reverse, hl]; simp)
          obtain ⟨b, bs, hb⟩ := List.exists_cons_of_ne_nil hne
          have hslash : b ≠ slash := by
            rintro rfl
            exact hs (by rw [hb]; simp)
          cases rest <;> simp [isRooted, ofParts, hb, hslash]

theorem parts_of_unrooted {p : Path} (h : p.isRooted = false) (hdot : p.pieces.head? ≠ some [dot]) :
    p.parts = p.pieces.filterMap partOf? := by
  rw [parts, h]
  cases hp : p.pieces with
  | nil => rfl
  | cons first rest =>
      rw [hp] at hdot
      have : first ≠ [dot] := by simpa using hdot
      simp [this]

theorem parts_ofParts {rooted : Bool} {stack : List Part} (h : Walked rooted stack) :
    (ofParts rooted stack.reverse).parts =
      (if rooted then [.root] else []) ++ stack.reverse := by
  have plain : ∀ part ∈ stack.reverse, slash ∉ part.bytes ∧ partOf? part.bytes = some part := by
    intro part hpart
    obtain ⟨hs, -, -, hpart⟩ := h.plain_bytes part (List.mem_reverse.mp hpart)
    exact ⟨hs, hpart⟩
  have back := filterMap_splitOn_intercalate plain
  have hrooted := isRooted_ofParts h
  cases rooted with
  | true =>
      rw [parts, hrooted, if_pos rfl, pieces]
      change .root :: (([] ++ slash :: [slash].intercalate _).splitOn slash).filterMap partOf? = _
      rw [List.splitOn_append_cons_self, List.filterMap_append, back]
      rfl
  | false =>
      rw [parts_of_unrooted hrooted]
      · exact back
      · by_cases hne : stack.reverse = []
        · rw [hne]
          exact by simp [pieces, ofParts]
        · change (([slash].intercalate _).splitOn slash).head? ≠ _
          rw [splitOn_intercalate_bytes hne fun part hpart => (plain part hpart).1]
          obtain ⟨part, rest, hl⟩ := List.exists_cons_of_ne_nil hne
          have hpart := h.plain_bytes part (by rw [← List.mem_reverse, hl]; simp)
          rw [hl]
          simpa using hpart.2.2.1

theorem exists_walked_normalize (p : Path) :
    ∃ stack, Walked p.isRooted stack ∧ p.normalize = ofParts p.isRooted stack.reverse :=
  ⟨_, walked_foldl (fun _ => given_of_mem_parts) .start, rfl⟩

theorem Walked.root_not_mem {rooted : Bool} {stack : List Part} (h : Walked rooted stack) :
    .root ∉ stack := by
  induction h with
  | start => simp
  | up _ _ _ ih | name _ _ ih => simpa using ih

/-- Folded paths with the same parts are the same path. -/
theorem normalize_eq_of_parts_eq {p q : Path} (h : p.normalize.parts = q.normalize.parts) :
    p.normalize = q.normalize := by
  obtain ⟨s, hs, hp⟩ := exists_walked_normalize p
  obtain ⟨t, ht, hq⟩ := exists_walked_normalize q
  rw [hp, hq, parts_ofParts hs, parts_ofParts ht] at h
  rw [hp, hq]
  generalize p.isRooted = a at *
  generalize q.isRooted = b at *
  cases a <;> cases b
  case false.false | true.true =>
    have same : s.reverse = t.reverse := by simpa using h
    rw [same]
  case true.false =>
    have same : .root :: s.reverse = t.reverse := h
    exact absurd (List.mem_reverse.mp (same ▸ .head _)) ht.root_not_mem
  case false.true =>
    have same : s.reverse = .root :: t.reverse := h
    exact absurd (List.mem_reverse.mp (same ▸ .head _)) hs.root_not_mem

/-- A fold that takes no notice of a root or a dot in front goes over the pieces. -/
theorem foldl_parts {α : Type u} {f : α → Part → α} (hroot : ∀ a, f a .root = a)
    (hhere : ∀ a, f a .here = a) (p : Path) (a : α) :
    p.parts.foldl f a = (p.pieces.filterMap partOf?).foldl f a := by
  rw [parts]
  split
  · rw [List.foldl_cons, hroot]
  · split
    · next first rest hp =>
        rw [hp]
        split
        · next hdot =>
            rw [hdot, List.foldl_cons, hhere]
            rfl
        · rfl
    · next hp =>
        rw [hp]
        rfl

/-- A root and a dot in front are no steps of a walk. -/
theorem foldl_step_parts (p : Path) (rooted : Bool) (stack : List Part) :
    p.parts.foldl (step rooted) stack =
      (p.pieces.filterMap partOf?).foldl (step rooted) stack :=
  foldl_parts (fun _ => rfl) (fun _ => rfl) p stack

end Path
end BuildFront
