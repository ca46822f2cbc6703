import BuildFront.Proofs.Path.Folding
import BuildFront.Proofs.Resolver.FailFast
import BuildFront.Proofs.Resolver.Supplied

/-!
Resolution with the registry of a plugin build, said in full: which inputs are accepted, and what
each field of the plan is.
-/

namespace BuildFront

/-- The inputs that the registry of a plugin build accepts. -/
structure Admissible (cwd : Path) (present : Path → Bool) (raw : RawInput) : Prop where
  known : ∀ name, raw.contains name = true →
    name ∈ ["hl2sdk-root", "hl2sdk-manifests", "mms-path", "sdks", "targets", "enable-debug",
      "enable-optimize"]
  sdkRoot : ∀ v, raw.get? "hl2sdk-root" = some v → v.Fits cwd present (.path .lazy)
  sdkManifests : ∀ v, raw.get? "hl2sdk-manifests" = some v → v.Fits cwd present (.path .eager)
  hostFramework : ∀ v, raw.get? "mms-path" = some v → v.Fits cwd present (.path .lazy)
  sdks : ∀ v, raw.get? "sdks" = some v → v.Fits cwd present .list
  targets : ∀ v, raw.get? "targets" = some v → v.Fits cwd present .list
  debug : ∀ v, raw.get? "enable-debug" = some v → v.Fits cwd present .flag
  optimize : ∀ v, raw.get? "enable-optimize" = some v → v.Fits cwd present .flag

/-- The plan of an accepted input. -/
structure Describes (cwd : Path) (dir : Option Path) (present : Path → Bool) (raw : RawInput)
    (plan : BuildPlan) : Prop where
  sdks : IdList.parse (((raw.get? "sdks").bind RawValue.text?).getD "cs2") = .ok plan.sdks
  engineDefault : plan.targets = .engineDefault ↔ raw.get? "targets" = none
  explicit : ∀ s, raw.get? "targets" = some (.text s) →
    ∃ archs, IdList.parse s = .ok archs ∧ plan.targets = .explicit archs
  sdkRoot : PathTaken cwd present .lazy (raw.get? "hl2sdk-root") plan.sdkRoot
  sdkManifests : PathTaken cwd present .eager (raw.get? "hl2sdk-manifests") plan.sdkManifests
  hostFramework : PathTaken cwd present .lazy (raw.get? "mms-path") plan.hostFramework
  debug : plan.debug = raw.contains "enable-debug"
  optimize : plan.optimize = true
  buildDir : plan.buildDir = cwd.normalize
  sourceDir : plan.sourceDir = (dir.map (Path.absolutize cwd)).getD plan.buildDir

namespace Resolver

/-- A resolver for a build in `cwd`, with the build scripts in `dir` if it is given. -/
def make (registry : Registry) (cwd : Path) : Option Path → Resolver
  | none => new registry cwd
  | some dir => (new registry cwd).withSourceDir dir

variable {cwd : Path} {dir : Option Path} {present : Path → Bool} {raw : RawInput}

/-- The registry of a plugin build comes about by registering its options one after another. -/
theorem registerAll_standardSpecs :
    Registry.empty.registerAll Registry.standardSpecs = .ok .standard := by
  rfl

theorem make_registry (registry : Registry) (cwd : Path) (dir : Option Path) :
    (make registry cwd dir).registry = registry := by
  cases dir <;> rfl

theorem make_cwd (registry : Registry) (cwd : Path) (dir : Option Path) :
    (make registry cwd dir).cwd = cwd := by
  cases dir <;> rfl

theorem make_sourceDir (registry : Registry) (cwd : Path) (dir : Option Path) :
    (make registry cwd dir).sourceDir = dir.map (Path.absolutize cwd) := by
  cases dir <;> rfl

theorem standard_meets (raw : RawInput) : ∀ d ∈ Demand.all, d.Met .standard raw := by
  simp only [Demand.all, List.forall_mem_cons, List.not_mem_nil, false_imp_iff, implies_true,
    and_true, Demand.Met]
  refine ⟨by decide, by decide, ?_, by decide, by decide, by decide, by decide, by decide⟩
  have preset : ∀ spec ∈ Registry.standard.specs,
      spec.name = "sdks" → spec.preset = .text "cs2" := by decide
  intro spec hspec hname _
  cases raw.get? spec.name with
  | none => simp [OptionSpec.value, preset spec hspec hname]
  | some v => cases v <;> simp [OptionSpec.value]

/-- Every default of the registry passes its own check. -/
theorem standard_presets : ∀ spec ∈ Registry.standard.specs,
    spec.kind.meaning? cwd present spec.preset ≠ none := by
  have cs2 : OptionKind.list.meaning? cwd present (.text "cs2") ≠ none :=
    (OptionKind.meaning?_list_text "cs2").mpr ⟨'c', by decide⟩
  change ∀ spec ∈ Registry.standardSpecs, _
  simp only [Registry.standardSpecs, List.forall_mem_cons, List.not_mem_nil, false_imp_iff,
    implies_true, and_true]
  exact ⟨nofun, nofun, nofun, cs2, nofun, nofun, nofun⟩

theorem accepts_standard_iff :
    ((∀ name, raw.contains name = true → Registry.standard.contains name = true) ∧
      ∀ spec ∈ Registry.standard.specs, (make .standard cwd dir).Accepts present raw spec) ↔
      Admissible cwd present raw := by
  have fits :
      (∀ spec ∈ Registry.standard.specs, (make .standard cwd dir).Accepts present raw spec) ↔
      ∀ spec ∈ Registry.standardSpecs, ∀ v, raw.get? spec.name = some v →
        v.Fits cwd present spec.kind := by
    refine forall₂_congr fun spec hspec => ?_
    rw [accepts_iff, meaningOf?, make_cwd]
    exact OptionSpec.meaning?_value_ne_none_iff (standard_presets spec hspec)
  have names (name : String) : Registry.standard.contains name = true ↔
      name ∈ ["hl2sdk-root", "hl2sdk-manifests", "mms-path", "sdks", "targets", "enable-debug",
        "enable-optimize"] :=
    List.contains_iff_mem
  rw [fits]
  simp only [names, Registry.standardSpecs, List.forall_mem_cons, List.not_mem_nil,
    false_imp_iff, implies_true, and_true]
  constructor
  · rintro ⟨known, sdkRoot, sdkManifests, hostFramework, sdks, targets, debug, optimize⟩
    exact ⟨known, sdkRoot, sdkManifests, hostFramework, sdks, targets, debug, optimize⟩
  · rintro ⟨known, sdkRoot, sdkManifests, hostFramework, sdks, targets, debug, optimize⟩
    exact ⟨known, sdkRoot, sdkManifests, hostFramework, sdks, targets, debug, optimize⟩

theorem describes_of_resolve {plan : BuildPlan}
    (h : ((make .standard cwd dir).resolve present raw).2 = .ok plan) :
    Describes cwd dir present raw plan := by
  obtain ⟨o, ho, plan_of⟩ := exists_composes_of_resolve h
  have meaning (i : Nat) (hi : i < Registry.standardSpecs.length) {v : Resolved}
      (hv : o.get? Registry.standardSpecs[i].name = some v) :
      Registry.standardSpecs[i].kind.meaning? cwd present
        (Registry.standardSpecs[i].value (raw.get? Registry.standardSpecs[i].name)) = some v := by
    have hspec : Registry.standardSpecs[i] ∈ (make .standard cwd dir).registry.specs := by
      rw [make_registry]
      exact List.getElem_mem hi
    rwa [resolveOptions_get?_of_mem hspec ho, meaningOf?, make_cwd] at hv
  have root := pathTaken_of_meaning rfl (meaning 0 (by decide) plan_of.sdkRoot)
  have manifests := pathTaken_of_meaning rfl (meaning 1 (by decide) plan_of.sdkManifests)
  have framework := pathTaken_of_meaning rfl (meaning 2 (by decide) plan_of.hostFramework)
  have sdks := parse_supplied_of_meaning rfl (meaning 3 (by decide) plan_of.sdks)
  have targets := archs_of_meaning rfl (meaning 4 (by decide) plan_of.targets)
  have debug : plan.debug = (false || raw.contains "enable-debug") :=
    flag_of_meaning rfl (meaning 5 (by decide) plan_of.debug)
  have optimize : plan.optimize = (true || raw.contains "enable-optimize") :=
    flag_of_meaning rfl (meaning 6 (by decide) plan_of.optimize)
  have buildDir : plan.buildDir = cwd.normalize := by
    rw [plan_of.buildDir, make_cwd]
    exact Path.absolutize_dot cwd
  exact {
    sdks
    engineDefault := targets.1
    explicit := targets.2
    sdkRoot := root
    sdkManifests := manifests
    hostFramework := framework
    debug
    optimize
    buildDir
    sourceDir := by rw [plan_of.sourceDir, make_sourceDir] }

/-- The registry of a plugin build accepts the admissible inputs and no others; what the plan says
of an accepted one is settled field by field, and of one that is not accepted, an option is always
to blame. -/
theorem resolve_standard (cwd : Path) (dir : Option Path) (present : Path → Bool) (raw : RawInput) :
    ((∃ plan, ((make .standard cwd dir).resolve present raw).2 = .ok plan) ↔
      Admissible cwd present raw) ∧
    (∀ plan, ((make .standard cwd dir).resolve present raw).2 = .ok plan →
      Describes cwd dir present raw plan) ∧
    ∀ e, ((make .standard cwd dir).resolve present raw).2 = .error e →
      OptionsRejected (make .standard cwd dir) present raw e := by
  refine ⟨?_, fun plan => describes_of_resolve, ?_⟩
  · rw [exists_resolve_ok_iff, make_registry, ← and_assoc, ← @accepts_standard_iff cwd dir]
    exact and_iff_left (standard_meets raw)
  · intro e he
    cases (resolve_error_iff e).mp he with
    | options h => exact h
    | @lacking _ d _ _ _ hsplit _ unmet =>
        rw [make_registry] at unmet
        exact absurd (standard_meets raw d (by rw [hsplit]; simp)) unmet

/-- A list is read, a lazy path may be missing, and what is not supplied is left to its default. -/
theorem resolve_standard_sample :
    let lists : RawInput := NameMap.empty.insert "sdks" (.text " hl2, cs2,hl2")
    let raw := (lists.insert "mms-path" (.text "../mms")).insert "enable-debug" .flag
    ∃ plan, ((make .standard (.ofString "/work/./plugin") none).resolve (fun _ => false) raw).2 =
        .ok plan ∧
      IdList.parse " hl2, cs2,hl2" = .ok plan.sdks ∧ plan.targets = .engineDefault ∧
      plan.hostFramework = some ⟨.ofString "/work/mms", .lazy, false⟩ ∧ plan.sdkRoot = none ∧
      plan.debug = true ∧ plan.buildDir = .ofString "/work/plugin" := by
  intro lists raw
  have spec := resolve_standard (.ofString "/work/./plugin") none (fun _ => false) raw
  have absent {p : RawValue → Prop} {name : String} (h : raw.get? name = none) :
      ∀ v, raw.get? name = some v → p v := by simp [h]
  have there {p : RawValue → Prop} {name : String} {v : RawValue} (h : raw.get? name = some v)
      (hv : p v) : ∀ v, raw.get? name = some v → p v := by simpa [h] using hv
  have admissible : Admissible (.ofString "/work/./plugin") (fun _ => false) raw := {
    known := by
      intro name h
      have : name = "enable-debug" ∨ name = "mms-path" ∨ name = "sdks" := by
        by_contra hne
        simp only [not_or] at hne
        simp [raw, lists, NameMap.contains, Ne.symm hne.1, Ne.symm hne.2.1, Ne.symm hne.2.2] at h
      rcases this with rfl | rfl | rfl <;> decide
    sdkRoot := absent rfl
    sdkManifests := absent rfl
    hostFramework := there rfl ⟨⟨'m', by decide⟩, nofun⟩
    sdks := there rfl ⟨'h', by decide⟩
    targets := absent rfl
    debug := there rfl trivial
    optimize := absent rfl }
  obtain ⟨plan, h⟩ := spec.1.mpr admissible
  have described := spec.2.1 plan h
  have folded : Path.absolutize (.ofString "/work/./plugin") (.ofString "../mms") =
      .ofString "/work/mms" := by decide
  refine ⟨plan, h, described.sdks, described.engineDefault.mpr rfl, ?_, described.sdkRoot.1.mpr rfl,
    described.debug, described.buildDir.trans (by decide)⟩
  rw [described.hostFramework.2 "../mms" rfl, folded]

end Resolver
end BuildFront
