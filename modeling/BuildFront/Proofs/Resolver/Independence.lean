import BuildFront.Proofs.Resolver.PathOptions

/-!
Two runs with one registry. What an option resolves to depends on what is supplied for it and, if it
is a path, on whether that one path is there: nothing supplied for another option and nothing else
in a file system shows in it, or in the field of the plan that it stands for.
-/

namespace BuildFront

/-- Two inputs, each with its file system, are alike for an option: they supply the same for it, or
nothing, and if it goes by a path, that path is there in both or in neither. -/
structure AlikeFor (g : Registry) (cwd : Path) (present present' : Path → Bool)
    (raw raw' : RawInput) (name : String) : Prop where
  supplied : raw.get? name = raw'.get? name
  there : ∀ spec ∈ g.specs, spec.name = name → ∀ check s, spec.kind = .path check →
    spec.value (raw.get? name) = .text s →
    present (Path.absolutize cwd (.ofString s)) = present' (Path.absolutize cwd (.ofString s))

theorem OptionKind.meaning?_congr {cwd : Path} {present present' : Path → Bool} {kind : OptionKind}
    {value : Preset}
    (h : ∀ check s, kind = .path check → value = .text s →
      present (Path.absolutize cwd (.ofString s)) = present' (Path.absolutize cwd (.ofString s))) :
    kind.meaning? cwd present value = kind.meaning? cwd present' value := by
  cases kind with
  | flag => cases value <;> rfl
  | list => cases value <;> rfl
  | path check =>
      cases value with
      | unset | switch on => rfl
      | text s => simp only [meaning?, ResolvedPath.find?, h check s rfl rfl]

theorem TargetSelection.archs?_injective {t t' : TargetSelection} (h : t.archs? = t'.archs?) :
    t = t' := by
  cases t with
  | engineDefault =>
      cases t' with
      | engineDefault => rfl
      | explicit archs => cases h
  | explicit archs =>
      cases t' with
      | engineDefault => cases h
      | explicit archs' =>
          cases h
          rfl

namespace Resolver

variable {g : Registry} {cwd : Path} {dir dir' : Option Path} {present present' : Path → Bool}
  {raw raw' : RawInput} {o o' : ResolvedOptions} {plan plan' : BuildPlan} {name : String}

theorem get?_resolveOptions_of_alike
    (ho : ((make g cwd dir).resolveOptions present raw).2 = .ok o)
    (ho' : ((make g cwd dir').resolveOptions present' raw').2 = .ok o')
    (alike : AlikeFor g cwd present present' raw raw' name) : o.get? name = o'.get? name := by
  rw [resolveOptions_get? name ho, resolveOptions_get? name ho', make_registry, make_registry]
  cases hspec : g.get? name with
  | none => rfl
  | some spec =>
      obtain ⟨hmem, hname⟩ := (g.get?_eq_some_iff name spec).mp hspec
      rw [Option.bind_some, Option.bind_some, meaningOf?, meaningOf?, make_cwd, make_cwd, hname,
        ← alike.supplied]
      exact OptionKind.meaning?_congr (alike.there spec hmem hname)

/-- A registered option has a value in what its registry resolves. -/
theorem exists_get?_of_contains (ho : ((make g cwd dir).resolveOptions present raw).2 = .ok o)
    (hname : g.contains name = true) : ∃ v, o.get? name = some v := by
  obtain ⟨spec, hspec, rfl⟩ := (g.contains_eq_true_iff name).mp hname
  have registered : spec ∈ (make g cwd dir).registry.specs := by rwa [make_registry]
  obtain ⟨v, hv, -⟩ := exists_get?_of_mem registered ho
  exact ⟨v, hv⟩

/-- Two runs that both succeed resolve an option to the same value if they are alike for it,
whatever else differs between their inputs and file systems, and their plans differ only in what
belongs to the options for which they are not alike. -/
theorem options_do_not_interfere (g : Registry) (cwd : Path) (dir dir' : Option Path)
    (present present' : Path → Bool) (raw raw' : RawInput) :
    let r := make g cwd dir
    let r' := make g cwd dir'
    let alike := AlikeFor g cwd present present' raw raw'
    (∀ o o', (r.resolveOptions present raw).2 = .ok o →
      (r'.resolveOptions present' raw').2 = .ok o' →
      ∀ name, g.contains name = true → alike name →
        ∃ v, o.get? name = some v ∧ o'.get? name = some v) ∧
    ∀ plan plan', (r.resolve present raw).2 = .ok plan →
      (r'.resolve present' raw').2 = .ok plan' →
      plan.buildDir = plan'.buildDir ∧ (dir = dir' → plan.sourceDir = plan'.sourceDir) ∧
      (alike "sdks" → plan.sdks = plan'.sdks) ∧
      (alike "targets" → plan.targets = plan'.targets) ∧
      (alike "hl2sdk-root" → plan.sdkRoot = plan'.sdkRoot) ∧
      (alike "hl2sdk-manifests" → plan.sdkManifests = plan'.sdkManifests) ∧
      (alike "mms-path" → plan.hostFramework = plan'.hostFramework) ∧
      (alike "enable-debug" → plan.debug = plan'.debug) ∧
      (alike "enable-optimize" → plan.optimize = plan'.optimize) := by
  intro r r' alike
  refine ⟨?_, ?_⟩
  · intro o o' ho ho' name hname halike
    obtain ⟨v, hv⟩ := exists_get?_of_contains ho hname
    exact ⟨v, hv, get?_resolveOptions_of_alike ho ho' halike ▸ hv⟩
  · intro plan plan' hplan hplan'
    obtain ⟨o, ho, plan_of⟩ := exists_composes_of_resolve hplan
    obtain ⟨o', ho', plan_of'⟩ := exists_composes_of_resolve hplan'
    have same {name : String} {v v' : Resolved} (hv : o.get? name = some v)
        (hv' : o'.get? name = some v') (h : alike name) : v = v' := by
      rw [get?_resolveOptions_of_alike ho ho' h, hv'] at hv
      exact (Option.some.inj hv).symm
    have build : plan.buildDir = plan'.buildDir := by
      rw [buildDir_of_resolve hplan, buildDir_of_resolve hplan']
    refine ⟨build, ?_, ?_, ?_, ?_, ?_, ?_, ?_, ?_⟩
    · rintro rfl
      rw [sourceDir_of_resolve hplan, sourceDir_of_resolve hplan', build]
    · intro h
      simpa using same plan_of.sdks plan_of'.sdks h
    · intro h
      have archs := same plan_of.targets plan_of'.targets h
      exact TargetSelection.archs?_injective (Resolved.list.inj archs)
    · exact fun h => Resolved.path.inj (same plan_of.sdkRoot plan_of'.sdkRoot h)
    · exact fun h => Resolved.path.inj (same plan_of.sdkManifests plan_of'.sdkManifests h)
    · exact fun h => Resolved.path.inj (same plan_of.hostFramework plan_of'.hostFramework h)
    · exact fun h => Resolved.flag.inj (same plan_of.debug plan_of'.debug h)
    · exact fun h => Resolved.flag.inj (same plan_of.optimize plan_of'.optimize h)

/-- A path stays as it was when other options come and go and other paths with them. -/
theorem path_stays_among_changes :
    let cwd := Path.ofString "/work"
    let mms : RawInput := NameMap.empty.insert "mms-path" (.text "./mms")
    let raw := mms.insert "sdks" (.text "hl2")
    let raw' := (mms.insert "targets" (.text "x86")).insert "hl2sdk-manifests" (.text "list")
    let present : Path → Bool := fun path => path == .ofString "/work/mms"
    ∃ plan plan', ((make .standard cwd none).resolve present raw).2 = .ok plan ∧
      ((make .standard cwd none).resolve (fun _ => true) raw').2 = .ok plan' ∧
      AlikeFor .standard cwd present (fun _ => true) raw raw' "mms-path" ∧
      plan.sdks ≠ plan'.sdks ∧ plan.hostFramework = plan'.hostFramework ∧
      plan.hostFramework = some ⟨.ofString "/work/mms", .lazy, true⟩ := by
  intro cwd mms raw raw' present
  have alike : AlikeFor .standard cwd present (fun _ => true) raw raw' "mms-path" := by
    refine ⟨rfl, fun spec _ _ check s _ hs => ?_⟩
    change Preset.text "./mms" = .text s at hs
    cases hs
    decide
  have interfere :=
    options_do_not_interfere .standard cwd none none present (fun _ => true) raw raw'
  have h : ((make .standard cwd none).resolve present raw).2 = .ok _ := rfl
  have h' : ((make .standard cwd none).resolve (fun _ => true) raw').2 = .ok _ := rfl
  refine ⟨_, _, h, h', alike, by decide, ?_, rfl⟩
  exact (interfere.2 _ _ h h').2.2.2.2.2.2.1 alike

end Resolver
end BuildFront
