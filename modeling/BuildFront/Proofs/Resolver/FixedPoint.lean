import BuildFront.Proofs.BuildPlan.RawInput
import BuildFront.Proofs.IdList.Display
import BuildFront.Proofs.Resolver.Legible
import BuildFront.Proofs.Resolver.ListOptions

/-!
What comes of asking for a plan again. A resolved plan is settled, and a settled plan is what its
own raw input resolves to, from wherever it is asked for.
-/

namespace BuildFront

/-- A recorded path that is written the same wherever it is seen from, and whose record is true. -/
structure ResolvedPath.Settled (present : Path → Bool) (check : PathCheck) (x : ResolvedPath) :
    Prop where
  rooted : x.path.isRooted = true
  folded : x.path.normalize = x.path
  legible : x.path.IsText
  checked : x.check = check
  recorded : x.present = present x.path
  there : check = .eager → x.present = true

/-- A plan in which nothing is left to resolve. -/
structure BuildPlan.Settled (present : Path → Bool) (p : BuildPlan) : Prop where
  sdks : p.sdks.Tidy
  targets : ∀ archs, p.targets = .explicit archs → archs.Tidy
  sdkRoot : ∀ x, p.sdkRoot = some x → x.Settled present .lazy
  sdkManifests : ∀ x, p.sdkManifests = some x → x.Settled present .eager
  hostFramework : ∀ x, p.hostFramework = some x → x.Settled present .lazy
  optimize : p.optimize = true

theorem IdList.Tidy.fits {l : IdList} (h : l.Tidy) (cwd : Path) (present : Path → Bool) :
    (RawValue.text l.display).Fits cwd present .list := by
  rw [RawValue.Fits, ← IdList.not_vacant_iff]
  intro hvacant
  have hparse := IdList.parse_of_vacant hvacant
  rw [IdList.parse_display h] at hparse
  cases hparse

theorem Path.exists_not_blank_of_isRooted {s : String} (h : (Path.ofString s).isRooted = true) :
    ∃ c ∈ s.toList, Text.isBlank c = false := by
  refine ⟨'/', ?_, by decide⟩
  apply Utf8.mem_of_mem_encode (b := slash) (by decide)
  exact List.mem_of_mem_head? (by simpa [isRooted, ofString, Utf8.ofString] using h)

namespace ResolvedPath

variable {present : Path → Bool} {check : PathCheck} {field field' : Option ResolvedPath}

theorem Settled.absolutize {x : ResolvedPath} (h : x.Settled present check) (cwd : Path) :
    Path.absolutize cwd x.path = x.path := by
  rw [Path.absolutize_of_rooted cwd h.rooted, h.folded]

theorem exists_pathValue?_eq (h : ∀ x, field = some x → x.Settled present check) {x : ResolvedPath}
    (hx : field = some x) :
    ∃ s, x.path = .ofString s ∧ BuildPlan.pathValue? field = some (.text s) := by
  obtain ⟨s, hs⟩ := (h x hx).legible
  refine ⟨s, hs, ?_⟩
  rw [hx, BuildPlan.pathValue?, Option.bind_some, (Path.text?_eq_some_iff _ s).mpr hs]
  rfl

theorem fits_pathValue? (h : ∀ x, field = some x → x.Settled present check) (cwd : Path) :
    ∀ v, BuildPlan.pathValue? field = some v → v.Fits cwd present (.path check) := by
  intro v hv
  cases hfield : field with
  | none =>
      rw [hfield] at hv
      cases hv
  | some x =>
      have hx := h x hfield
      obtain ⟨s, hs, hvalue⟩ := exists_pathValue?_eq h hfield
      rw [hvalue] at hv
      cases hv
      refine ⟨Path.exists_not_blank_of_isRooted (hs ▸ hx.rooted), ?_⟩
      intro heager
      rw [← hs, hx.absolutize, ← hx.recorded]
      exact hx.there heager

theorem eq_of_pathTaken (h : ∀ x, field = some x → x.Settled present check) {cwd : Path}
    (taken : PathTaken cwd present check (BuildPlan.pathValue? field) field') : field' = field := by
  cases hfield : field with
  | none =>
      rw [hfield] at taken
      exact taken.1.mpr rfl
  | some x =>
      have hx := h x hfield
      obtain ⟨s, hs, hvalue⟩ := exists_pathValue?_eq h hfield
      rw [taken.2 s hvalue, ← hs, hx.absolutize, ← hx.recorded, ← hx.checked]

end ResolvedPath

namespace Resolver

variable {cwd : Path} {dir : Option Path} {present : Path → Bool} {raw : RawInput}
  {plan : BuildPlan}

theorem settled_path_of_resolve (hcwd : cwd.isRooted = true)
    (h : ((make .standard cwd dir).resolve present raw).2 = .ok plan)
    (hjson : plan.toJson? ≠ none) {name : String} {check : PathCheck} {x : ResolvedPath}
    (hcheck : ∀ spec ∈ Registry.standard.specs, spec.name = name → spec.kind = .path check)
    (hx : (name, some x) ∈ plan.pathOptions) : x.Settled present check := by
  obtain ⟨spec, hspec, hname, hkind, s, -, hfind⟩ := find?_of_resolve h hx
  obtain ⟨-, hpath, -, hpresent, heager⟩ := ResolvedPath.find?_eq_some_iff.mp hfind
  have hkind' := hcheck spec hspec hname
  rw [hkind, OptionKind.path.injEq] at hkind'
  have canonical : x.path.Canonical := hpath ▸ Path.canonical_absolutize hcwd _
  exact {
    rooted := canonical.rooted
    folded := canonical.folded
    legible := ((BuildPlan.toJson?_ne_none_iff plan).mp hjson).2.2 name x hx
    checked := hkind'
    recorded := hpresent
    there := hkind' ▸ heager }

theorem exists_resolve_of_admissible (h : Admissible cwd present raw) (dir : Option Path) :
    ∃ plan, ((make .standard cwd dir).resolve present raw).2 = .ok plan := by
  obtain ⟨known, accepted⟩ := (@accepts_standard_iff cwd dir present raw).mpr h
  rw [exists_resolve_ok_iff, make_registry]
  exact ⟨known, accepted, standard_meets raw⟩

theorem settled_of_resolve (hcwd : cwd.isRooted = true)
    (h : ((make .standard cwd dir).resolve present raw).2 = .ok plan)
    (hjson : plan.toJson? ≠ none) : plan.Settled present := by
  have described := describes_of_resolve h
  have path (name : String) {check : PathCheck} {x : ResolvedPath}
      (hcheck : ∀ spec ∈ Registry.standard.specs, spec.name = name → spec.kind = .path check)
      (hx : (name, some x) ∈ plan.pathOptions) : x.Settled present check :=
    settled_path_of_resolve hcwd h hjson hcheck hx
  exact {
    sdks := IdList.tidy_of_parse described.sdks
    targets := fun archs harchs => tidy_of_resolve h (BuildPlan.targets_listed harchs)
    sdkRoot := fun x hx =>
      path "hl2sdk-root" (by decide) (by simp [BuildPlan.pathOptions, hx])
    sdkManifests := fun x hx =>
      path "hl2sdk-manifests" (by decide) (by simp [BuildPlan.pathOptions, hx])
    hostFramework := fun x hx =>
      path "mms-path" (by decide) (by simp [BuildPlan.pathOptions, hx])
    optimize := described.optimize }

theorem admissible_rawInput (h : plan.Settled present) (cwd : Path) :
    Admissible cwd present plan.rawInput := by
  obtain ⟨root, manifests, framework, sdks, targets, debug, optimize⟩ := plan.get?_rawInput
  have flag {on : Bool} : ∀ v, BuildPlan.flagValue? on = some v → v.Fits cwd present .flag := by
    intro v hv
    cases on <;> cases hv
    trivial
  have archs : ∀ v, plan.targets.archs?.map (fun archs => RawValue.text archs.display) = some v →
      v.Fits cwd present .list := by
    intro v hv
    cases ht : plan.targets with
    | engineDefault =>
        rw [ht] at hv
        cases hv
    | explicit archs =>
        rw [ht] at hv
        cases hv
        exact (h.targets archs ht).fits cwd present
  exact {
    known := by
      intro name hname
      rw [← plan.names_supply]
      exact BuildPlan.mem_supply_of_contains hname
    sdkRoot := by
      rw [root]
      exact ResolvedPath.fits_pathValue? h.sdkRoot cwd
    sdkManifests := by
      rw [manifests]
      exact ResolvedPath.fits_pathValue? h.sdkManifests cwd
    hostFramework := by
      rw [framework]
      exact ResolvedPath.fits_pathValue? h.hostFramework cwd
    sdks := by
      intro v hv
      rw [sdks] at hv
      cases hv
      exact h.sdks.fits cwd present
    targets := by
      rw [targets]
      exact archs
    debug := by
      rw [debug]
      exact flag
    optimize := by
      rw [optimize]
      exact flag }

theorem eq_of_describes (h : plan.Settled present) {plan' : BuildPlan}
    (described : Describes cwd dir present plan.rawInput plan') :
    plan' = { plan with buildDir := plan'.buildDir, sourceDir := plan'.sourceDir } := by
  obtain ⟨givenRoot, givenManifests, givenFramework, givenSdks, givenTargets, givenDebug, -⟩ :=
    plan.get?_rawInput
  have sdks : plan'.sdks = plan.sdks := by
    have hparse := described.sdks
    rw [givenSdks] at hparse
    change IdList.parse plan.sdks.display = _ at hparse
    rw [IdList.parse_display h.sdks] at hparse
    exact (Except.ok.inj hparse).symm
  have targets : plan'.targets = plan.targets := by
    cases ht : plan.targets with
    | engineDefault =>
        rw [described.engineDefault, givenTargets, ht]
        rfl
    | explicit archs =>
        rw [ht] at givenTargets
        obtain ⟨archs', hparse, htargets⟩ := described.explicit archs.display givenTargets
        rw [IdList.parse_display (h.targets archs ht)] at hparse
        cases hparse
        exact htargets
  have root : plan'.sdkRoot = plan.sdkRoot :=
    ResolvedPath.eq_of_pathTaken h.sdkRoot (givenRoot ▸ described.sdkRoot)
  have manifests : plan'.sdkManifests = plan.sdkManifests :=
    ResolvedPath.eq_of_pathTaken h.sdkManifests (givenManifests ▸ described.sdkManifests)
  have framework : plan'.hostFramework = plan.hostFramework :=
    ResolvedPath.eq_of_pathTaken h.hostFramework (givenFramework ▸ described.hostFramework)
  have debug : plan'.debug = plan.debug := by
    rw [described.debug, NameMap.contains, givenDebug]
    cases plan.debug <;> rfl
  -- This switch is on by default, and there is no raw input that turns it off.
  have optimize : plan'.optimize = plan.optimize := by
    rw [described.optimize, h.optimize]
  cases plan'
  cases plan
  simp only [BuildPlan.mk.injEq]
  exact ⟨trivial, trivial, sdks, targets, root, manifests, framework, debug, optimize⟩

theorem exists_resolve_rawInput (h : plan.Settled present) (cwd : Path) (dir : Option Path) :
    ∃ plan', ((make .standard cwd dir).resolve present plan.rawInput).2 = .ok plan' ∧
      plan' = { plan with buildDir := plan'.buildDir, sourceDir := plan'.sourceDir } := by
  obtain ⟨plan', hplan'⟩ := exists_resolve_of_admissible (admissible_rawInput h cwd) dir
  exact ⟨plan', hplan', eq_of_describes h (describes_of_resolve hplan')⟩

theorem getLast?_events_of_resolve {r : Resolver} (h : (r.resolve present raw).2 = .ok plan) :
    (r.resolve present raw).1.getLast? = some (summary plan) := by
  rw [events_of_resolve h, List.getLast?_concat]

/-- Resolving what a plan with a JSON form says of itself gives that plan again, with the same
fingerprint in the summary. From another directory only the two directories of the plan may differ,
and a source directory with a root does not. -/
theorem own_output_resolves_alike (hcwd : cwd.isRooted = true)
    (h : ((make .standard cwd dir).resolve present raw).2 = .ok plan)
    (hjson : plan.toJson? ≠ none) :
    ((make .standard cwd dir).resolve present plan.rawInput).2 = .ok plan ∧
    ((make .standard cwd dir).resolve present plan.rawInput).1.getLast? =
      ((make .standard cwd dir).resolve present raw).1.getLast? ∧
    ∀ other : Path, ∃ plan',
      ((make .standard other dir).resolve present plan.rawInput).2 = .ok plan' ∧
      plan' = { plan with buildDir := plan'.buildDir, sourceDir := plan'.sourceDir } ∧
      ∀ d, dir = some d → d.isRooted = true → plan'.sourceDir = plan.sourceDir := by
  have settled := settled_of_resolve hcwd h hjson
  have again : ((make .standard cwd dir).resolve present plan.rawInput).2 = .ok plan := by
    obtain ⟨plan', hplan', heq⟩ := exists_resolve_rawInput settled cwd dir
    have build : plan'.buildDir = plan.buildDir := by
      rw [buildDir_of_resolve hplan', buildDir_of_resolve h]
    have source : plan'.sourceDir = plan.sourceDir := by
      rw [sourceDir_of_resolve hplan', sourceDir_of_resolve h, build]
    rw [build, source] at heq
    rw [hplan', heq]
  refine ⟨again, ?_, ?_⟩
  · rw [getLast?_events_of_resolve again, getLast?_events_of_resolve h]
  · intro other
    obtain ⟨plan', hplan', heq⟩ := exists_resolve_rawInput settled other dir
    refine ⟨plan', hplan', heq, ?_⟩
    intro d hdir hd
    rw [sourceDir_of_resolve hplan', sourceDir_of_resolve h, hdir]
    simp only [Option.map_some, Option.getD_some]
    rw [Path.absolutize_of_rooted other hd, Path.absolutize_of_rooted cwd hd]

/-- Detours, repeated identifiers and a relative path are gone from what the plan says of itself. -/
theorem detours_resolve_alike :
    let cwd := Path.ofString "/work/./mod//"
    let dir := Path.ofString "/gen//x/.."
    let present : Path → Bool := fun path => path == .ofString "/work/m n"
    let lists : RawInput := (NameMap.empty.insert "sdks" (.text " hl2, cs2,,hl2")).insert "targets"
      (.text "x86_64 ,x86_64")
    let raw := ((lists.insert "hl2sdk-manifests" (.text "../m n/./")).insert "mms-path"
      (.text "mms")).insert "enable-debug" .flag
    let plan : BuildPlan := ⟨.ofString "/gen", .ofString "/work/mod", ⟨["hl2", "cs2"]⟩,
      .explicit ⟨["x86_64"]⟩, none, some ⟨.ofString "/work/m n", .eager, true⟩,
      some ⟨.ofString "/work/mod/mms", .lazy, false⟩, true, true⟩
    cwd.isRooted = true ∧ ((make .standard cwd (some dir)).resolve present raw).2 = .ok plan ∧
      plan.toJson? ≠ none ∧
      plan.rawInput.get? "mms-path" = some (.text "/work/mod/mms") ∧
      ((make .standard cwd (some dir)).resolve present plan.rawInput).2 = .ok plan ∧
      ∃ plan', ((make .standard (.ofString "/else/where") (some dir)).resolve present
          plan.rawInput).2 = .ok plan' ∧
        plan' = { plan with buildDir := plan'.buildDir, sourceDir := plan'.sourceDir } ∧
        plan'.sourceDir = .ofString "/gen" ∧ plan'.buildDir = .ofString "/else/where" := by
  intro cwd dir present lists raw plan
  have h : ((make .standard cwd (some dir)).resolve present raw).2 = .ok plan := by rfl
  have hjson : plan.toJson? ≠ none := by
    rw [BuildPlan.toJson?_ne_none_iff, BuildPlan.forall_pathOptions_iff]
    refine ⟨⟨_, rfl⟩, ⟨_, rfl⟩, nofun, ?_, ?_⟩ <;> rintro x ⟨⟩ <;> exact ⟨_, rfl⟩
  obtain ⟨again, -, elsewhere⟩ := own_output_resolves_alike rfl h hjson
  obtain ⟨plan', hplan', heq, source⟩ := elsewhere (.ofString "/else/where")
  refine ⟨rfl, h, hjson, by decide, again, plan', hplan', heq, source dir rfl rfl, ?_⟩
  rw [buildDir_of_resolve hplan']
  decide

end Resolver
end BuildFront
