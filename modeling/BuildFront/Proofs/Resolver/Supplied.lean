import BuildFront.Proofs.Resolver.Meaning

/-!
What an option of each kind takes from a supplied value and from none: which values suit it, and
what it resolves to.
-/

namespace BuildFront

/-- A supplied value suits an option of a kind. A path that is read while resolving has to be
there. -/
def RawValue.Fits (cwd : Path) (present : Path → Bool) : OptionKind → RawValue → Prop
  | .flag, .flag => True
  | .list, .text s => ∃ c ∈ s.toList, c ≠ ',' ∧ Text.isBlank c = false
  | .path check, .text s => (∃ c ∈ s.toList, Text.isBlank c = false) ∧
      (check = .eager → present (Path.absolutize cwd (.ofString s)) = true)
  | _, _ => False

theorem OptionKind.meaning?_list_text {cwd : Path} {present : Path → Bool} (s : String) :
    list.meaning? cwd present (.text s) ≠ none ↔
      ∃ c ∈ s.toList, c ≠ ',' ∧ Text.isBlank c = false := by
  rw [← IdList.not_vacant_iff, meaning?]
  by_cases hs : IdList.Vacant s
  · simp [IdList.parse_of_vacant hs, Except.toOption, hs]
  · obtain ⟨l, hl⟩ := IdList.parse_of_not_vacant hs
    simp [hl, Except.toOption, hs]

theorem OptionKind.meaning?_path_text {cwd : Path} {present : Path → Bool} (check : PathCheck)
    (s : String) :
    (path check).meaning? cwd present (.text s) ≠ none ↔
      (∃ c ∈ s.toList, Text.isBlank c = false) ∧
        (check = .eager → present (Path.absolutize cwd (.ofString s)) = true) := by
  have blank : (∃ c ∈ s.toList, Text.isBlank c = false) ↔ ¬Text.allBlank s = true := by
    simp [Text.allBlank_iff]
  rw [blank, meaning?, ResolvedPath.find?]
  simp only [ne_eq, Option.map_eq_none_iff, ite_eq_left_iff, reduceCtorEq, imp_false, not_not]
  rw [not_or, not_and, Bool.not_eq_false]

namespace OptionSpec

variable {cwd : Path} {present : Path → Bool} {spec : OptionSpec} {v : Option RawValue}

/-- Where the default makes sense, an option is accepted if nothing or something that fits is
supplied for it. -/
theorem meaning?_value_ne_none_iff (hpreset : spec.kind.meaning? cwd present spec.preset ≠ none) :
    spec.kind.meaning? cwd present (spec.value v) ≠ none ↔
      ∀ x, v = some x → x.Fits cwd present spec.kind := by
  cases v with
  | none => simpa [OptionSpec.value] using hpreset
  | some x =>
      simp only [Option.some.injEq, forall_eq']
      cases spec.kind with
      | flag => cases x <;> simp [RawValue.Fits, OptionSpec.value, OptionKind.meaning?]
      | list =>
          cases x with
          | flag => simp [RawValue.Fits, OptionSpec.value, OptionKind.meaning?]
          | text s => exact OptionKind.meaning?_list_text s
      | path check =>
          cases x with
          | flag => simp [RawValue.Fits, OptionSpec.value, OptionKind.meaning?]
          | text s => exact OptionKind.meaning?_path_text check s

end OptionSpec

/-- A path of a plan is missing if its option is, and otherwise the supplied one seen from `cwd`. -/
def PathTaken (cwd : Path) (present : Path → Bool) (check : PathCheck) (v : Option RawValue)
    (field : Option ResolvedPath) : Prop :=
  (field = none ↔ v = none) ∧
    ∀ s, v = some (.text s) →
      field = some ⟨Path.absolutize cwd (.ofString s), check,
        present (Path.absolutize cwd (.ofString s))⟩

variable {cwd : Path} {present : Path → Bool} {spec : OptionSpec} {v : Option RawValue}

theorem OptionKind.meaning?_eq_list_iff {kind : OptionKind} {value : Preset}
    {l : Option IdList} :
    kind.meaning? cwd present value = some (.list l) ↔
      kind = .list ∧ ((value = .unset ∧ l = none) ∨
        ∃ s items, value = .text s ∧ IdList.parse s = .ok items ∧ l = some items) := by
  cases kind with
  | flag => cases value <;> simp [meaning?]
  | path check => cases value <;> simp [meaning?]
  | list =>
      cases value with
      | unset => simp [meaning?, eq_comm]
      | switch on => simp [meaning?]
      | text s =>
          rw [meaning?]
          cases hparse : IdList.parse s with
          | error e => simp [hparse, Except.toOption]
          | ok items => simp [hparse, Except.toOption, eq_comm]

theorem parse_supplied_of_meaning {preset : String} {items : IdList}
    (hpreset : spec.preset = .text preset)
    (h : OptionKind.list.meaning? cwd present (spec.value v) = some (.list (some items))) :
    IdList.parse ((v.bind RawValue.text?).getD preset) = .ok items := by
  obtain ⟨-, ⟨-, hnone⟩ | ⟨s, items', hvalue, hparse, heq⟩⟩ :=
    OptionKind.meaning?_eq_list_iff.mp h
  · cases hnone
  · cases heq
    have supplied : (v.bind RawValue.text?).getD preset = s := by
      rcases OptionSpec.value_eq_text hvalue with rfl | ⟨rfl, hp⟩
      · rfl
      · rw [hpreset] at hp
        cases hp
        rfl
    rw [supplied, hparse]

theorem archs_of_meaning {targets : TargetSelection} (hpreset : spec.preset = .unset)
    (h : OptionKind.list.meaning? cwd present (spec.value v) = some (.list targets.archs?)) :
    (targets = .engineDefault ↔ v = none) ∧
      ∀ s, v = some (.text s) →
        ∃ archs, IdList.parse s = .ok archs ∧ targets = .explicit archs := by
  cases v with
  | none =>
      rw [OptionSpec.value, hpreset] at h
      cases targets with
      | engineDefault => simp
      | explicit archs => cases h
  | some x =>
      cases x with
      | flag => cases h
      | text s =>
          obtain ⟨-, ⟨hvalue, -⟩ | ⟨t, items, hvalue, hparse, heq⟩⟩ :=
            OptionKind.meaning?_eq_list_iff.mp h
          · cases hvalue
          · cases hvalue
            cases targets with
            | engineDefault => cases heq
            | explicit archs =>
                cases heq
                refine ⟨by simp, ?_⟩
                intro t ht
                cases ht
                exact ⟨_, hparse, rfl⟩

theorem flag_of_meaning {preset on : Bool} (hpreset : spec.preset = .switch preset)
    (h : OptionKind.flag.meaning? cwd present (spec.value v) = some (.flag on)) :
    on = (preset || v.isSome) := by
  cases v with
  | none =>
      rw [OptionSpec.value, hpreset] at h
      cases h
      simp
  | some x =>
      cases x with
      | flag =>
          cases h
          simp
      | text s => cases h

theorem pathTaken_of_meaning {check : PathCheck} {field : Option ResolvedPath}
    (hpreset : spec.preset = .unset)
    (h : (OptionKind.path check).meaning? cwd present (spec.value v) = some (.path field)) :
    PathTaken cwd present check v field := by
  cases v with
  | none =>
      rw [OptionSpec.value, hpreset] at h
      cases h
      exact ⟨by simp, by simp⟩
  | some x =>
      cases x with
      | flag => cases h
      | text s =>
          rw [OptionSpec.value, OptionKind.meaning?, ResolvedPath.find?] at h
          split at h
          · cases h
          · cases h
            refine ⟨by simp, ?_⟩
            intro t ht
            cases ht
            rfl

end BuildFront
