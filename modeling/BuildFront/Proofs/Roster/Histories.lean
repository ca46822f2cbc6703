import BuildFront.Proofs.Resolver.Order
import BuildFront.Roster
import Mathlib.Data.List.Induction

/-!
What a roster has come to after any number of calls, whichever of them failed: the options whose
name was new when they came, each found under its name at the place that the index gives.
-/

namespace BuildFront
namespace Roster

/-- Calls one after another, whatever becomes of each, and their answers. -/
def registerEach (r : Roster) : List OptionSpec → Roster × List (Except DuplicateOption Unit)
  | [] => (r, [])
  | s :: rest =>
    let step := r.register s
    let later := step.1.registerEach rest
    (later.1, step.2 :: later.2)

/-- The options of a history whose name none before them has. -/
def firstUses (history : List OptionSpec) : List OptionSpec :=
  (history.zipIdx.filter (fun e => e.1.name ∉ (history.take e.2).map (·.name))).map (·.1)

variable {r r' : Roster} {calls : List OptionSpec} {name : String}

theorem firstUses_concat (history : List OptionSpec) (s : OptionSpec) :
    firstUses (history ++ [s]) =
      if s.name ∈ history.map (·.name) then firstUses history else firstUses history ++ [s] := by
  have earlier : (history.zipIdx.filter
      (fun e => e.1.name ∉ ((history ++ [s]).take e.2).map (·.name))) =
      history.zipIdx.filter (fun e => e.1.name ∉ (history.take e.2).map (·.name)) := by
    refine List.filter_congr fun e he => ?_
    rw [List.take_append_of_le_length (Nat.le_of_lt (List.snd_lt_of_mem_zipIdx he))]
  rw [firstUses, List.zipIdx_append, List.filter_append, List.map_append, earlier]
  by_cases h : s.name ∈ history.map (·.name)
  · simp [h, firstUses]
  · simp [h, firstUses]

theorem exists_mem_firstUses (history : List OptionSpec) :
    (∃ s ∈ firstUses history, s.name = name) ↔ ∃ s ∈ history, s.name = name := by
  induction history using List.reverseRecOn with
  | nil => rfl
  | append_singleton history s ih =>
      rw [firstUses_concat]
      split
      · next h =>
          rw [ih]
          refine ⟨fun ⟨t, ht, hname⟩ => ⟨t, List.mem_append_left _ ht, hname⟩, ?_⟩
          rintro ⟨t, ht, rfl⟩
          rcases List.mem_append.mp ht with ht | ht
          · exact ⟨t, ht, rfl⟩
          · exact List.mem_map.mp (List.mem_singleton.mp ht ▸ h)
      · simp only [List.mem_append, or_and_right, exists_or, ih]

theorem registerEach_append (r : Roster) (calls more : List OptionSpec) :
    r.registerEach (calls ++ more) =
      (((r.registerEach calls).1.registerEach more).1,
        (r.registerEach calls).2 ++ ((r.registerEach calls).1.registerEach more).2) := by
  induction calls generalizing r with
  | nil => rfl
  | cons s rest ih =>
      rw [List.cons_append, registerEach, ih]
      rfl

theorem length_registerEach (r : Roster) (calls : List OptionSpec) :
    (r.registerEach calls).2.length = calls.length := by
  induction calls generalizing r with
  | nil => rfl
  | cons s rest ih => rw [registerEach, List.length_cons, List.length_cons, ih]

theorem registerEach_of_registerAll (h : r.registerAll calls = .ok r') :
    (r.registerEach calls).1 = r' := by
  induction calls generalizing r with
  | nil => exact Except.ok.inj h
  | cons s rest ih =>
      rw [registerAll] at h
      split at h
      · cases h
      · next added heq =>
          rw [registerEach, heq]
          exact ih h

theorem Sound.registerEach (h : r.Sound) (calls : List OptionSpec) :
    (r.registerEach calls).1.Sound := by
  induction calls generalizing r with
  | nil => exact h
  | cons s rest ih => exact ih (h.register s)

/-- From nothing, a roster comes to the options whose name was new. -/
theorem specs_registerEach (history : List OptionSpec) :
    (empty.registerEach history).1.specs = firstUses history := by
  -- on the last call: whether it succeeds is decided by the names of all calls before it
  induction history using List.reverseRecOn with
  | nil => rfl
  | append_singleton history s ih =>
      have sound := sound_empty.registerEach history
      have taken : (empty.registerEach history).1.contains s.name = true ↔
          s.name ∈ history.map (·.name) := by
        rw [sound.contains_eq_true_iff, ih, exists_mem_firstUses, List.mem_map]
      rw [registerEach_append, firstUses_concat]
      change ((empty.registerEach history).1.register s).1.specs = _
      by_cases hs : s.name ∈ history.map (·.name)
      · rw [register_of_taken (taken.mpr hs), if_pos hs, ih]
      · rw [register_of_free (Bool.eq_false_iff.mpr (mt taken.mp hs)), if_neg hs, ih]

theorem contains_register (r : Roster) (s : OptionSpec) (name : String) :
    (r.register s).1.contains name = true ↔
      r.contains name = true ∨ (r.register s).2 = .ok () ∧ s.name = name := by
  cases hs : r.contains s.name with
  | true => simp [register_of_taken hs]
  | false =>
      rw [register_of_free hs, contains, NameMap.contains, NameMap.get?_insert]
      by_cases hname : s.name = name <;> simp [hname, contains, NameMap.contains]

/-- A name is taken by the call that was the first to succeed with it. -/
theorem contains_registerEach (r : Roster) (calls : List OptionSpec) (name : String) :
    (r.registerEach calls).1.contains name = true ↔
      r.contains name = true ∨
        ∃ s, (s, .ok ()) ∈ calls.zip (r.registerEach calls).2 ∧ s.name = name := by
  induction calls generalizing r with
  | nil => simp [registerEach]
  | cons s rest ih =>
      rw [registerEach, ih, contains_register, or_assoc]
      refine or_congr_right ?_
      simp only [List.zip_cons_cons, List.mem_cons, Prod.mk.injEq, or_and_right, exists_or,
        and_assoc, exists_eq_left, eq_comm (a := Except.ok ())]

theorem Sound.get?_eq_some_iff (h : r.Sound) (name : String) (spec : OptionSpec) :
    r.get? name = some spec ↔ spec ∈ r.specs ∧ spec.name = name := by
  rw [get?, Option.bind_eq_some_iff]
  constructor
  · rintro ⟨place, hplace, hspec⟩
    obtain ⟨spec', hspec', hname⟩ := (h name place).mp hplace
    rw [hspec] at hspec'
    cases hspec'
    exact ⟨List.mem_of_getElem? hspec, hname⟩
  · rintro ⟨hspec, hname⟩
    obtain ⟨place, hplace⟩ := List.mem_iff_getElem?.mp hspec
    exact ⟨place, (h name place).mpr ⟨spec, hplace, hname⟩, hplace⟩

theorem Sound.contains_eq (h : r.Sound) (name : String) :
    r.contains name = (r.get? name).isSome := by
  rw [Bool.eq_iff_iff, h.contains_eq_true_iff, Option.isSome_iff_exists]
  simp only [h.get?_eq_some_iff]

theorem specs_registerAll (h : r.registerAll calls = .ok r') : r'.specs = r.specs ++ calls := by
  induction calls generalizing r with
  | nil =>
      cases h
      exact (List.append_nil _).symm
  | cons s rest ih =>
      rw [registerAll] at h
      cases hs : r.contains s.name with
      | true =>
          rw [register_of_taken hs] at h
          cases h
      | false =>
          rw [register_of_free hs] at h
          rw [ih h, List.append_assoc, List.singleton_append]

/-- The roster of a plugin build comes to its registry. -/
theorem registry_of_standard (h : standard = .ok r) :
    r.registry (sound_standard h) = .standard := by
  simp only [registry, Registry.standard, specs_registerAll h, empty, List.nil_append]

theorem Sound.get?_registry (h : r.Sound) (name : String) :
    (r.registry h).get? name = r.get? name := by
  ext spec
  rw [Registry.get?_eq_some_iff, h.get?_eq_some_iff, registry]

theorem Sound.contains_registry (h : r.Sound) (name : String) :
    (r.registry h).contains name = r.contains name := by
  rw [Bool.eq_iff_iff, Registry.contains_eq_true_iff, h.contains_eq_true_iff, registry]

/-- A call to a roster does to its registry what it would do there. -/
theorem Sound.register_registry (h : r.Sound) (s : OptionSpec) :
    (r.registry h).register s =
      (r.register s).2.map (fun _ => (r.register s).1.registry (h.register s)) := by
  have taken : s.name ∈ (r.registry h).specs.map (·.name) ↔ r.contains s.name = true := by
    rw [h.contains_eq_true_iff, List.mem_map]
    rfl
  cases hs : r.contains s.name with
  | true =>
      rw [Registry.register, dif_pos (taken.mpr hs)]
      simp only [register_of_taken hs, Except.map]
  | false =>
      rw [Registry.register, dif_neg (by simp [taken, hs])]
      simp only [register_of_free hs, Except.map, registry]

/-- Index and options are in step after every history of calls, whichever of them failed, from a
start that came about without a failure, such as the empty roster or that of a plugin build. The
options are those whose name was new when they came; a call fails for a name that an earlier call
took, says so, and leaves everything as it is. -/
theorem index_in_step {start : Roster} {made : List OptionSpec}
    (hstart : empty.registerAll made = .ok start) (calls : List OptionSpec) :
    let now := (start.registerEach calls).1
    let answers := (start.registerEach calls).2
    (∀ name place, now.index.get? name = some place ↔
      ∃ h : place < now.specs.length, now.specs[place].name = name) ∧
    (now.specs.map (·.name)).Nodup ∧
    (∀ name spec, now.get? name = some spec ↔ spec ∈ now.specs ∧ spec.name = name) ∧
    (∀ name, now.contains name = (now.get? name).isSome) ∧
    now.specs = firstUses (made ++ calls) ∧ answers.length = calls.length ∧
    ∀ call,
      ((∃ e, (now.register call).2 = .error e) ↔
        (∃ s ∈ made, s.name = call.name) ∨
          ∃ s, (s, .ok ()) ∈ calls.zip answers ∧ s.name = call.name) ∧
      ∀ e, (now.register call).2 = .error e → e.name = call.name ∧ (now.register call).1 = now := by
  intro now answers
  have sound : now.Sound := (sound_empty.registerAll hstart).registerEach calls
  refine ⟨?_, sound.distinct, sound.get?_eq_some_iff, sound.contains_eq, ?_,
    length_registerEach start calls, ?_⟩
  · intro name place
    rw [sound name place]
    simp [List.getElem?_eq_some_iff]
  · have whole := registerEach_append empty made calls
    rw [registerEach_of_registerAll hstart] at whole
    rw [← specs_registerEach, whole]
  · intro call
    have taken : start.contains call.name = true ↔ ∃ s ∈ made, s.name = call.name := by
      rw [(sound_empty.registerAll hstart).contains_eq_true_iff, specs_registerAll hstart]
      rfl
    rw [← taken, ← contains_registerEach]
    change (_ ↔ now.contains call.name = true) ∧ _
    cases h : now.contains call.name with
    | true => simp [register_of_taken h]
    | false => simp [register_of_free h]

/-- After the options of a plugin build, a name of theirs is refused, and so is a name given
twice. -/
theorem taken_names_are_refused :
    let again := OptionSpec.list "targets" "again"
    let mods := OptionSpec.list "mods" "Mods to build"
    let calls := [again, mods, OptionSpec.flag "mods" true ""]
    ∃ start, empty.registerAll Registry.standardSpecs = .ok start ∧
      (start.registerEach calls).2 = [.error ⟨"targets"⟩, .ok (), .error ⟨"mods"⟩] ∧
      (start.registerEach calls).1.specs = Registry.standardSpecs ++ [mods] ∧
      (start.registerEach calls).1.index.get? "mods" = some 7 ∧
      (start.registerEach calls).1.get? "targets" = some Registry.standardSpecs[4] ∧
      ((start.registerEach calls).1.register again).1 = (start.registerEach calls).1 := by
  intro again mods calls
  have run : standard.toOption.map (fun start => (start.registerEach calls).2) =
      some [.error ⟨"targets"⟩, .ok (), .error ⟨"mods"⟩] := by decide
  obtain ⟨start, hstart, answers⟩ := Option.map_eq_some_iff.mp run
  have made : empty.registerAll Registry.standardSpecs = .ok start := by
    change standard = .ok start
    cases h : standard with
    | error e => simp [h, Except.toOption] at hstart
    | ok r => simpa [h, Except.toOption] using hstart
  obtain ⟨place, -, found, -, specs, -, next⟩ := index_in_step made calls
  have specs := specs.trans (show _ = Registry.standardSpecs ++ [mods] by decide)
  refine ⟨start, made, answers, specs, ?_, ?_, ?_⟩
  · refine (place "mods" 7).mpr ?_
    simp only [specs]
    exact ⟨by decide, rfl⟩
  · refine (found "targets" _).mpr ?_
    rw [specs]
    decide
  · obtain ⟨e, he⟩ := (next again).1.mpr (.inl ⟨Registry.standardSpecs[4], by decide⟩)
    exact ((next again).2 e he).2

end Roster
end BuildFront
