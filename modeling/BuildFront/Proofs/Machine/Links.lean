import BuildFront.Machine.FileTree

/-!
What stands at a path itself, and what it leads to once a link there is followed. The two differ for
links only, so a path at which something stands leads nowhere exactly if it is a link that cannot be
followed to its end.
-/

namespace BuildFront
namespace FileTree

/-- The entry that a directory has under the last name of a path, be it a link or not. -/
def StandsAs (t : FileTree) (cwd : Place) (p : Path) (entry : Entry) : Prop :=
  ∃ place, t.find cwd p false = .ok ⟨place, some entry⟩

def Stands (t : FileTree) (cwd : Place) (p : Path) : Prop :=
  ∃ entry, t.StandsAs cwd p entry

/-- A link that is there though nothing is where it leads, or that cannot be followed so far. -/
def Dangles (t : FileTree) (cwd : Place) (p : Path) : Prop :=
  ∃ target, t.StandsAs cwd p (.link target) ∧ ∃ fault, t.lookup cwd p = .error fault

variable {t : FileTree} {cwd : Place} {p : Path}

theorem walk_follow {links : Nat} {here : Place} {steps : List Bytes}
    (h : ∀ place target, t.walk false links here steps ≠ .ok ⟨place, some (.link target)⟩) :
    t.walk true links here steps = t.walk false links here steps := by
  fun_induction walk t false links here steps with
  | case1 => rw [walk]
  | case2 links here name rest hlong => rw [walk, if_pos hlong]
  | case3 links here rest hshort ih => rw [walk, if_neg hshort, if_pos rfl, ih h]
  | case4 links here rest hshort hdot ih =>
      rw [walk, if_neg hshort, if_neg hdot, if_pos rfl, ih h]
  | case5 links here name rest hshort hdot hup there hentry hlast
  | case6 links here name rest hshort hdot hup there hentry hlast =>
      rw [walk, if_neg hshort, if_neg hdot, if_neg hup]
      simp only [there, hentry, hlast]
      rfl
  | case7 links here name rest hshort hdot hup there hentry ih =>
      rw [walk, if_neg hshort, if_neg hdot, if_neg hup]
      simp only [there, hentry]
      exact ih h
  | case8 links here name rest hshort hdot hup there target hentry hlast =>
      exact absurd rfl (h there target)
  | case9 here name rest hshort hdot hup there target hentry hlast
  | case10 here name rest hshort hdot hup there target hentry hlast links hempty =>
      rw [walk, if_neg hshort, if_neg hdot, if_neg hup]
      simp_all [there]
  | case11 here name rest hshort hdot hup there target hentry hlast links hempty ih =>
      rw [walk, if_neg hshort, if_neg hdot, if_neg hup]
      simp_all [there]
  | case12 links here name rest hshort hdot hup there entry hdir hlink hentry hlast
  | case13 links here name rest hshort hdot hup there entry hdir hlink hentry hlast =>
      rw [walk, if_neg hshort, if_neg hdot, if_neg hup]
      simp_all [there]

theorem find_follow (h : ∀ target, ¬t.StandsAs cwd p (.link target)) :
    t.find cwd p true = t.find cwd p false := by
  simp only [StandsAs, not_exists, find] at h
  rw [find, find]
  split
  · rfl
  · next hnul =>
      split
      · rfl
      · next hempty =>
          split
          · rfl
          · next hlong =>
              rw [walk_follow]
              intro place target hwalk
              refine h target place ?_
              rw [if_neg hnul, if_neg hempty, if_neg hlong, hwalk]
              rfl

theorem lookup_of_find {place : Place} {entry : Entry}
    (h : t.find cwd p true = .ok ⟨place, some entry⟩) : t.lookup cwd p = .ok entry := by
  rw [lookup, h]
  rfl

/-- Where a path leads to something, something stands at it. -/
theorem stands_of_lookup {entry : Entry} (h : t.lookup cwd p = .ok entry) : t.Stands cwd p := by
  by_cases hlink : ∃ target, t.StandsAs cwd p (.link target)
  · obtain ⟨target, hlink⟩ := hlink
    exact ⟨_, hlink⟩
  · have same := find_follow (not_exists.mp hlink)
    rw [lookup, same] at h
    cases hfind : t.find cwd p false with
    | error fault =>
        rw [hfind] at h
        cases h
    | ok spot =>
        obtain ⟨place, found⟩ := spot
        cases found with
        | none =>
            rw [hfind] at h
            cases h
        | some entry' => exact ⟨entry', place, hfind⟩

/-- Only a link can stand at a path that leads nowhere. -/
theorem dangles_of_stands {fault : FileFault} (hstands : t.Stands cwd p)
    (hlookup : t.lookup cwd p = .error fault) : t.Dangles cwd p := by
  obtain ⟨entry, place, hfind⟩ := hstands
  by_cases hlink : ∃ target, t.StandsAs cwd p (.link target)
  · obtain ⟨target, hlink⟩ := hlink
    exact ⟨target, hlink, fault, hlookup⟩
  · rw [← find_follow (not_exists.mp hlink)] at hfind
    rw [lookup_of_find hfind] at hlookup
    cases hlookup

theorem present_eq_true_iff :
    t.present cwd p = true ↔ t.Stands cwd p ∧ ¬t.Dangles cwd p := by
  rw [present]
  cases hlookup : t.lookup cwd p with
  | error fault =>
      refine ⟨nofun, ?_⟩
      rintro ⟨hstands, hleads⟩
      exact absurd (dangles_of_stands hstands hlookup) hleads
  | ok entry =>
      refine ⟨fun _ => ⟨stands_of_lookup hlookup, ?_⟩, fun _ => rfl⟩
      rintro ⟨target, -, fault, hfault⟩
      cases hlookup.symm.trans hfault

theorem Dangles.stands (h : t.Dangles cwd p) : t.Stands cwd p := by
  obtain ⟨target, hlink, -⟩ := h
  exact ⟨_, hlink⟩

/-- There is nothing to read where a link leads nowhere. -/
theorem Dangles.exists_read_error (h : t.Dangles cwd p) :
    ∃ fault, t.read cwd p = .error fault := by
  obtain ⟨-, -, fault, hfault⟩ := h
  exact ⟨fault, by rw [read, hfault]; rfl⟩

/-- A name that leads from a directory to an entry of it. -/
def Plain (name : Bytes) : Prop :=
  ¬maxName < name.length ∧ ¬name = [Path.dot] ∧ ¬name = [Path.dot, Path.dot]

instance (name : Bytes) : Decidable (Plain name) :=
  inferInstanceAs (Decidable (_ ∧ _))

section Steps

variable {follow : Bool} {links : Nat} {here : Place} {name : Bytes} {target : Path}

theorem walk_into (hname : Plain name) (h : t.entryAt? (here ++ [name]) = some .directory)
    (rest : List Bytes) :
    t.walk follow links here (name :: rest) = t.walk follow links (here ++ [name]) rest := by
  rw [walk, if_neg hname.1, if_neg hname.2.1, if_neg hname.2.2]
  simp only [h]

theorem walk_to_link (hname : Plain name)
    (h : t.entryAt? (here ++ [name]) = some (.link target)) :
    t.walk false links here [name] = .ok ⟨here ++ [name], some (.link target)⟩ := by
  rw [walk, if_neg hname.1, if_neg hname.2.1, if_neg hname.2.2]
  simp [h]

/-- A link to itself is followed until there have been too many. -/
theorem walk_own_link (hname : Plain name)
    (h : t.entryAt? (here ++ [name]) = some (.link target)) (hne : target.isEmpty = false)
    (hrooted : target.isRooted = false) (hsteps : stepsOf target = [name]) :
    t.walk true links here [name] = .error .tooManyLinks := by
  induction links with
  | zero =>
      rw [walk, if_neg hname.1, if_neg hname.2.1, if_neg hname.2.2]
      simp [h]
  | succ links ih =>
      rw [walk, if_neg hname.1, if_neg hname.2.1, if_neg hname.2.2]
      simp [h, hne, hrooted, hsteps, ih]

end Steps

end FileTree
end BuildFront
