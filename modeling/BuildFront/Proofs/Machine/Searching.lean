import BuildFront.Machine
import BuildFront.Proofs.Machine.Links
import BuildFront.Proofs.Path.Parts

/-!
The search for a program by a bare name: it finds what the first directory of the search path has
that has a program there, and nothing else. A name of one part that ends in a slash, or in a slash
and a dot, asks for a directory, and so no program is found by it.
-/

namespace BuildFront
namespace FileTree

/-- The last of some steps, if there is one, stays in the directory that the others lead to. -/
def AsksDirectory (steps : List Bytes) : Prop :=
  ∀ last, steps.getLast? = some last → last = [Path.dot]

namespace AsksDirectory

variable {name : Bytes} {steps : List Bytes}

theorem tail (h : AsksDirectory (name :: steps)) : AsksDirectory steps := by
  intro last hlast
  apply h
  rw [List.getLast?_cons, hlast]
  rfl

theorem tail_ne_nil (h : AsksDirectory (name :: steps)) (hname : name ≠ [Path.dot]) :
    steps ≠ [] := by
  rintro rfl
  exact hname (h name rfl)

theorem append (front : List Bytes) (h : AsksDirectory steps) (hne : steps ≠ []) :
    AsksDirectory (front ++ steps) := by
  intro last hlast
  rw [List.getLast?_append_of_ne_nil _ hne] at hlast
  exact h last hlast

end AsksDirectory

variable {t : FileTree} {cwd : Place} {p : Path}

/-- Links on the way put their own steps in front, and the last step stays what it is. -/
theorem walk_of_asksDirectory {follow : Bool} {links : Nat} {here : Place} {steps : List Bytes}
    {spot : Spot} (hsteps : AsksDirectory steps)
    (h : t.walk follow links here steps = .ok spot) : spot.entry = some .directory := by
  fun_induction walk t follow links here steps with
  | case1 =>
      cases h
      rfl
  | case3 _ _ _ _ ih | case4 _ _ _ _ _ ih | case7 _ _ _ _ _ _ _ _ _ ih => exact ih hsteps.tail h
  | case11 _ _ _ _ hdot _ _ _ _ _ _ _ ih =>
      exact ih (hsteps.tail.append _ (hsteps.tail_ne_nil hdot)) h
  | case2 | case6 | case9 | case10 | case13 => cases h
  | case5 _ _ _ _ _ hdot _ _ _ hlast =>
      exact absurd (List.isEmpty_iff.mp hlast) (hsteps.tail_ne_nil hdot)
  | case8 _ _ _ _ _ hdot _ _ _ _ hlast =>
      have last := (Bool.and_eq_true_iff.mp hlast).1
      exact absurd (List.isEmpty_iff.mp last) (hsteps.tail_ne_nil hdot)
  | case12 _ _ _ _ _ hdot _ _ _ _ _ _ hlast =>
      exact absurd (List.isEmpty_iff.mp hlast) (hsteps.tail_ne_nil hdot)

theorem find_of_asksDirectory {follow : Bool} {spot : Spot} (hsteps : AsksDirectory (stepsOf p))
    (h : t.find cwd p follow = .ok spot) : spot.entry = some .directory := by
  rw [find] at h
  split at h
  · cases h
  · split at h
    · cases h
    · split at h
      · cases h
      · cases hwalk : t.walk follow maxLinks (if p.isRooted then [] else cwd) (stepsOf p) with
        | error fault =>
            rw [hwalk] at h
            cases h
        | ok there =>
            rw [hwalk] at h
            cases h
            exact walk_of_asksDirectory hsteps hwalk

theorem isProgram_of_asksDirectory (h : AsksDirectory (stepsOf p)) : t.isProgram cwd p = false := by
  cases hfind : t.find cwd p true with
  | error fault =>
      rw [isProgram, lookup, hfind]
      rfl
  | ok spot =>
      obtain ⟨place, entry⟩ := spot
      cases find_of_asksDirectory h hfind
      rw [isProgram, lookup_of_find hfind]

theorem asksDirectory_stepsOf {front last : Bytes} (hp : p.bytes = front ++ Path.slash :: last)
    (hlast : last = [] ∨ last = [Path.dot]) : AsksDirectory (stepsOf p) := by
  intro step hstep
  rcases hlast with rfl | rfl
  · have slashed : (p.bytes.getLast? == some Path.slash) = true := by
      rw [hp, List.getLast?_concat]
      rfl
    rw [stepsOf, slashed, Bool.true_and] at hstep
    split at hstep
    · rw [List.getLast?_concat] at hstep
      exact (Option.some.inj hstep).symm
    · next hnone =>
        have unnamed : p.pieces.filter (fun piece => !piece.isEmpty) = [] := by simpa using hnone
        rw [unnamed] at hstep
        cases hstep
  · have unslashed : (p.bytes.getLast? == some Path.slash) = false := by
      have dotted : p.bytes = (front ++ [Path.slash]) ++ [Path.dot] := by simpa using hp
      rw [dotted, List.getLast?_concat]
      rfl
    have steps : stepsOf p =
        (front.splitOn Path.slash).filter (fun piece => !piece.isEmpty) ++ [[Path.dot]] := by
      rw [stepsOf, unslashed, Path.pieces, hp, List.splitOn_append_cons_self, List.filter_append]
      rfl
    rw [steps, List.getLast?_concat] at hstep
    exact (Option.some.inj hstep).symm

end FileTree

namespace Machine

/-- The directories in which a machine searches; there are none if the variable is not set. -/
def searchPath (m : Machine) : SearchPath :=
  (m.env.get? SearchPath.variableName).elim [] (fun s => SearchPath.ofBytes (Utf8.ofString s))

/-- Where a directory would have the program of a name. -/
def candidate (m : Machine) (name : String) (dir : Path) : Path :=
  SearchPath.candidate (Place.toPath m.cwd) m.home dir (.ofString name)

/-- The first directory of the search path that has a program of a name has it at a path. -/
def FirstHas (m : Machine) (name : String) (path : Path) : Prop :=
  ∃ before dir after, m.searchPath = before ++ dir :: after ∧ path = m.candidate name dir ∧
    m.files.isProgram m.cwd path = true ∧
    ∀ d ∈ before, m.files.isProgram m.cwd (m.candidate name d) = false

variable {m : Machine} {name : String}

theorem search_of_one_part (h : ¬1 < (Path.ofString name).parts.length) :
    m.search name = m.searchPath.findSome? fun dir =>
      if m.files.isProgram m.cwd (m.candidate name dir) then some (m.candidate name dir)
      else none := by
  rw [search, SearchPath.search, if_neg h, searchPath]
  cases m.env.get? SearchPath.variableName <;> rfl

theorem search_eq_some_iff (h : ¬1 < (Path.ofString name).parts.length) (path : Path) :
    m.search name = some path ↔ m.FirstHas name path := by
  have has (dir : Path) : (if m.files.isProgram m.cwd (m.candidate name dir) then
      some (m.candidate name dir) else none) = some path ↔
      path = m.candidate name dir ∧ m.files.isProgram m.cwd path = true := by
    split <;> grind
  rw [search_of_one_part h, List.findSome?_eq_some_iff, FirstHas]
  simp only [has, ite_eq_right_iff, reduceCtorEq, imp_false, Bool.not_eq_true, and_assoc]

theorem isProgram_candidate (h : ¬1 < (Path.ofString name).parts.length)
    (hslash : Path.slash ∈ (Path.ofString name).bytes) (dir : Path) :
    m.files.isProgram m.cwd (m.candidate name dir) = false := by
  obtain ⟨base, joined⟩ : ∃ base : Path, m.candidate name dir = base.join (.ofString name) := by
    rw [candidate, SearchPath.candidate]
    split <;> exact ⟨_, rfl⟩
  obtain ⟨front, last, bytes, hlast⟩ := Path.exists_last_slash hslash
  obtain ⟨more, hmore⟩ := base.exists_bytes_join_eq (.ofString name)
  rw [bytes, ← List.append_assoc] at hmore
  rw [Path.one_lt_length_parts_iff] at h
  push Not at h
  rw [joined]
  refine FileTree.isProgram_of_asksDirectory (FileTree.asksDirectory_stepsOf hmore ?_)
  by_cases hempty : last = []
  · exact .inl hempty
  · exact .inr (h last hlast hempty)

theorem search_of_slash (h : ¬1 < (Path.ofString name).parts.length)
    (hslash : Path.slash ∈ (Path.ofString name).bytes) : m.search name = none := by
  rw [search_of_one_part h, List.findSome?_eq_none_iff]
  intro dir _
  rw [isProgram_candidate h hslash dir]
  rfl

end Machine
end BuildFront
