import BuildFront.NameMap
import BuildFront.Registry

/-!
A registry as it is filled. The options stand in the order of their registration, and an index
beside them has the place of every name, so that a name is looked up without a search. What is
filled this way is a registry, for the two are kept in step by every call.
-/

namespace BuildFront

/-- Options in the order in which they were registered, and the place of each name among them. -/
structure Roster where
  specs : List OptionSpec
  index : NameMap Nat
  deriving DecidableEq

namespace Roster

def empty : Roster :=
  ⟨[], .empty⟩

def contains (r : Roster) (name : String) : Bool :=
  r.index.contains name

def get? (r : Roster) (name : String) : Option OptionSpec :=
  (r.index.get? name).bind (fun place => r.specs[place]?)

def size (r : Roster) : Nat :=
  r.specs.length

def isEmpty (r : Roster) : Bool :=
  r.specs.isEmpty

/-- Add an option at the end, unless its name is taken. The roster is what the call leaves, also
where it fails. -/
def register (r : Roster) (s : OptionSpec) : Roster × Except DuplicateOption Unit :=
  if r.contains s.name then (r, .error ⟨s.name⟩)
  else
    let indexed := { r with index := r.index.insert s.name r.specs.length }
    ({ indexed with specs := indexed.specs ++ [s] }, .ok ())

/-- Add options one after another, up to the first name that is taken. -/
def registerAll (r : Roster) : List OptionSpec → Except DuplicateOption Roster
  | [] => .ok r
  | s :: rest =>
    match r.register s with
    | (_, .error e) => .error e
    | (added, .ok ()) => added.registerAll rest

def standard : Except DuplicateOption Roster :=
  empty.registerAll Registry.standardSpecs

/-- The index has the place of every option's name, and no other. -/
def Sound (r : Roster) : Prop :=
  ∀ name place, r.index.get? name = some place ↔
    ∃ spec, r.specs[place]? = some spec ∧ spec.name = name

variable {r r' : Roster} {s : OptionSpec} {name : String}

theorem sound_empty : empty.Sound := by
  intro name place
  simp [empty]

theorem Sound.contains_eq_true_iff (h : r.Sound) :
    r.contains name = true ↔ ∃ spec ∈ r.specs, spec.name = name := by
  rw [contains, NameMap.contains, Option.isSome_iff_exists]
  constructor
  · rintro ⟨place, hplace⟩
    obtain ⟨spec, hspec, hname⟩ := (h name place).mp hplace
    exact ⟨spec, List.mem_of_getElem? hspec, hname⟩
  · rintro ⟨spec, hspec, hname⟩
    obtain ⟨place, hplace⟩ := List.mem_iff_getElem?.mp hspec
    exact ⟨place, (h name place).mpr ⟨spec, hplace, hname⟩⟩

theorem Sound.distinct (h : r.Sound) : (r.specs.map (·.name)).Nodup := by
  rw [List.Nodup, List.pairwise_map, List.pairwise_iff_getElem]
  intro i j hi hj hlt heq
  have first := (h _ i).mpr ⟨r.specs[i], List.getElem?_eq_getElem hi, rfl⟩
  have second := (h _ j).mpr ⟨r.specs[j], List.getElem?_eq_getElem hj, rfl⟩
  rw [heq, second] at first
  exact Nat.ne_of_gt hlt (Option.some.inj first)

theorem register_of_taken (h : r.contains s.name = true) :
    r.register s = (r, .error ⟨s.name⟩) := by
  rw [register, if_pos h]

theorem register_of_free (h : r.contains s.name = false) :
    r.register s = (⟨r.specs ++ [s], r.index.insert s.name r.specs.length⟩, .ok ()) := by
  rw [register, if_neg (by simp [h])]

theorem exists_getElem?_concat_iff {specs : List OptionSpec} {place : Nat} :
    (∃ spec, (specs ++ [s])[place]? = some spec ∧ spec.name = name) ↔
      (∃ spec, specs[place]? = some spec ∧ spec.name = name) ∨
        place = specs.length ∧ s.name = name := by
  rcases Nat.lt_trichotomy place specs.length with hlt | rfl | hgt
  · simp [List.getElem?_append_left hlt, Nat.ne_of_lt hlt]
  · simp
  · have past : (specs ++ [s]).length ≤ place := by
      rw [List.length_append]
      exact hgt
    simp [List.getElem?_eq_none past, List.getElem?_eq_none (Nat.le_of_lt hgt), Nat.ne_of_gt hgt]

/-- Every call keeps the index in step with the options. -/
theorem Sound.register (h : r.Sound) (s : OptionSpec) : (r.register s).1.Sound := by
  cases hs : r.contains s.name with
  | true =>
      rw [register_of_taken hs]
      exact h
  | false =>
      rw [register_of_free hs]
      intro name place
      have free : r.index.get? s.name = none := by
        simpa [contains, NameMap.contains] using hs
      rw [NameMap.get?_insert, exists_getElem?_concat_iff, ← h name place]
      by_cases hname : s.name = name
      · subst hname
        simp [free, eq_comm]
      · simp [hname]

theorem Sound.registerAll (h : r.Sound) {specs : List OptionSpec}
    (hall : r.registerAll specs = .ok r') : r'.Sound := by
  induction specs generalizing r with
  | nil =>
      cases hall
      exact h
  | cons s rest ih =>
      rw [Roster.registerAll] at hall
      have step := h.register s
      split at hall
      · cases hall
      · next added heq =>
          rw [heq] at step
          exact ih step hall

theorem sound_standard (h : standard = .ok r) : r.Sound :=
  sound_empty.registerAll h

def registry (r : Roster) (h : r.Sound) : Registry :=
  ⟨r.specs, h.distinct⟩

end Roster
end BuildFront
