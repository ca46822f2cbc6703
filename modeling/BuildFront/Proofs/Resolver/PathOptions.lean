import BuildFront.Proofs.Path.Canonical
import BuildFront.Proofs.Resolver.Standard

/-!
The paths of a resolved plan: where each comes from, how it is written, and what is recorded with
it.
-/

namespace BuildFront

theorem ResolvedPath.find?_eq_some_iff {cwd : Path} {present : Path → Bool} {check : PathCheck}
    {s : String} {x : ResolvedPath} :
    find? cwd present check s = some x ↔
      Text.allBlank s = false ∧ x.path = Path.absolutize cwd (.ofString s) ∧ x.check = check ∧
        x.present = present x.path ∧ (check = .eager → x.present = true) := by
  obtain ⟨path, check', there⟩ := x
  simp only [find?, Option.ite_none_left_eq_some, not_or, not_and, Bool.not_eq_true,
    Bool.not_eq_false, Option.some.injEq, ResolvedPath.mk.injEq]
  constructor
  · rintro ⟨⟨hs, heager⟩, rfl, rfl, rfl⟩
    exact ⟨hs, rfl, rfl, rfl, heager⟩
  · rintro ⟨hs, rfl, rfl, rfl, heager⟩
    exact ⟨⟨hs, heager⟩, rfl, rfl, rfl⟩

theorem OptionKind.meaning?_eq_path_iff {cwd : Path} {present : Path → Bool} {kind : OptionKind}
    {value : Preset} {x : ResolvedPath} :
    kind.meaning? cwd present value = some (.path (some x)) ↔
      ∃ s, kind = .path x.check ∧ value = .text s ∧
        ResolvedPath.find? cwd present x.check s = some x := by
  cases kind with
  | flag => cases value <;> simp [meaning?]
  | list => cases value <;> simp [meaning?]
  | path check =>
      cases value with
      | unset | switch on => simp [meaning?]
      | text s =>
          rw [meaning?]
          constructor
          · intro h
            have hfind : ResolvedPath.find? cwd present check s = some x := by simpa using h
            have hcheck : x.check = check := (ResolvedPath.find?_eq_some_iff.mp hfind).2.2.1
            exact ⟨s, by rw [hcheck], rfl, by rw [hcheck, hfind]⟩
          · rintro ⟨t, hkind, hvalue, hfind⟩
            cases hkind
            cases hvalue
            rw [hfind]
            rfl

/-- The path options of a plan under their names. -/
def BuildPlan.pathOptions (p : BuildPlan) : List (String × Option ResolvedPath) :=
  [("hl2sdk-root", p.sdkRoot), ("hl2sdk-manifests", p.sdkManifests), ("mms-path", p.hostFramework)]

theorem BuildPlan.forall_pathOptions_iff {p : BuildPlan} {holds : ResolvedPath → Prop} :
    (∀ name x, (name, some x) ∈ p.pathOptions → holds x) ↔
      (∀ x, p.sdkRoot = some x → holds x) ∧ (∀ x, p.sdkManifests = some x → holds x) ∧
        ∀ x, p.hostFramework = some x → holds x := by
  constructor
  · intro h
    refine ⟨fun x hx => h "hl2sdk-root" x ?_, fun x hx => h "hl2sdk-manifests" x ?_,
      fun x hx => h "mms-path" x ?_⟩ <;> simp [pathOptions, hx]
  · rintro ⟨root, manifests, framework⟩ name x hx
    simp only [pathOptions, List.mem_cons, Prod.mk.injEq, List.not_mem_nil, or_false] at hx
    rcases hx with ⟨-, hx⟩ | ⟨-, hx⟩ | ⟨-, hx⟩
    · exact root x hx.symm
    · exact manifests x hx.symm
    · exact framework x hx.symm

namespace Resolver

variable {g : Registry} {cwd : Path} {dir : Option Path} {present : Path → Bool} {raw : RawInput}
  {plan : BuildPlan}

theorem Composes.pathOptions {r : Resolver} {o : ResolvedOptions} (h : r.Composes o plan) :
    ∀ e ∈ plan.pathOptions, o.get? e.1 = some (.path e.2) := by
  simp only [BuildPlan.pathOptions, List.forall_mem_cons, List.not_mem_nil, false_imp_iff,
    implies_true, and_true]
  exact ⟨h.sdkRoot, h.sdkManifests, h.hostFramework⟩

/-- A path of a plan is what the value of its own option names. -/
theorem find?_of_resolve (h : ((make g cwd dir).resolve present raw).2 = .ok plan) {name : String}
    {x : ResolvedPath} (hx : (name, some x) ∈ plan.pathOptions) :
    ∃ spec ∈ g.specs, spec.name = name ∧ spec.kind = .path x.check ∧
      ∃ s, spec.value (raw.get? name) = .text s ∧
        ResolvedPath.find? cwd present x.check s = some x := by
  obtain ⟨o, ho, plan_of⟩ := exists_composes_of_resolve h
  have hname := plan_of.pathOptions _ hx
  rw [resolveOptions_get? name ho, make_registry] at hname
  obtain ⟨spec, hspec, hm⟩ := Option.bind_eq_some_iff.mp hname
  obtain ⟨hmem, rfl⟩ := (g.get?_eq_some_iff _ _).mp hspec
  rw [meaningOf?, make_cwd] at hm
  obtain ⟨s, hkind, hvalue, hfind⟩ := OptionKind.meaning?_eq_path_iff.mp hm
  exact ⟨spec, hmem, rfl, hkind, s, hvalue, hfind⟩

theorem buildDir_of_resolve (h : ((make g cwd dir).resolve present raw).2 = .ok plan) :
    plan.buildDir = cwd.normalize := by
  obtain ⟨o, -, plan_of⟩ := exists_composes_of_resolve h
  rw [plan_of.buildDir, make_cwd]
  exact Path.absolutize_dot cwd

theorem sourceDir_of_resolve (h : ((make g cwd dir).resolve present raw).2 = .ok plan) :
    plan.sourceDir = (dir.map (Path.absolutize cwd)).getD plan.buildDir := by
  obtain ⟨o, -, plan_of⟩ := exists_composes_of_resolve h
  rw [plan_of.sourceDir, make_sourceDir]

/-- Seen from a directory with a root, every path of a plan is written in its one spelling, whoever
supplied it, and its record says how its option was registered and whether this very path was
there. -/
theorem plan_paths_canonical (hcwd : cwd.isRooted = true)
    (h : ((make g cwd dir).resolve present raw).2 = .ok plan) :
    plan.sourceDir.Canonical ∧ plan.buildDir.Canonical ∧
    ∀ name x, (name, some x) ∈ plan.pathOptions →
      x.path.Canonical ∧ (∃ spec ∈ g.specs, spec.name = name ∧ spec.kind = .path x.check) ∧
      x.present = present x.path ∧ (x.check = .eager → x.present = true) := by
  have build : plan.buildDir.Canonical := by
    rw [buildDir_of_resolve h]
    exact Path.canonical_normalize hcwd
  refine ⟨?_, build, ?_⟩
  · rw [sourceDir_of_resolve h]
    cases dir with
    | none => exact build
    | some dir => exact Path.canonical_absolutize hcwd dir
  · intro name x hx
    obtain ⟨spec, hmem, hname, hkind, s, -, hfind⟩ := find?_of_resolve h hx
    obtain ⟨-, hpath, -, hpresent, heager⟩ := ResolvedPath.find?_eq_some_iff.mp hfind
    refine ⟨?_, ⟨spec, hmem, hname, hkind⟩, hpresent, heager⟩
    rw [hpath]
    exact Path.canonical_absolutize hcwd _

/-- A default with detours is written like a supplied path. -/
theorem default_path_canonical :
    let specs : List OptionSpec :=
      (OptionSpec.path "hl2sdk-root" .lazy "").withPreset (.text "../sdk//./x/..") ::
        Registry.standardSpecs.tail
    let registry : Registry := ⟨specs, by decide⟩
    let cwd := Path.ofString "/work//mod/"
    let present : Path → Bool := fun path => path == .ofString "/work/manifests"
    let raw : RawInput := NameMap.empty.insert "hl2sdk-manifests" (.text "/../work/manifests/")
    ∃ plan, ((make registry cwd (some (.ofString "x/../.."))).resolve present raw).2 = .ok plan ∧
      plan.sourceDir = .ofString "/work" ∧ plan.sourceDir.Canonical ∧ plan.buildDir.Canonical ∧
      plan.sdkRoot = some ⟨.ofString "/work/sdk", .lazy, false⟩ ∧
      (Path.ofString "/work/sdk").Canonical ∧
      plan.sdkManifests = some ⟨.ofString "/work/manifests", .eager, true⟩ ∧
      (Path.ofString "/work/manifests").Canonical := by
  intro specs registry cwd present raw
  refine ⟨⟨.ofString "/work", .ofString "/work/mod", ⟨["cs2"]⟩, .engineDefault,
    some ⟨.ofString "/work/sdk", .lazy, false⟩, some ⟨.ofString "/work/manifests", .eager, true⟩,
    none, false, true⟩, ?_⟩
  generalize hplan : (⟨_, _, _, _, _, _, _, _, _⟩ : BuildPlan) = plan
  have h : ((make registry cwd (some (.ofString "x/../.."))).resolve present raw).2 =
      .ok plan := by
    rw [← hplan]
    rfl
  obtain ⟨source, build, options⟩ := plan_paths_canonical (by rfl) h
  refine ⟨h, ?_, source, build, ?_, ?_, ?_, ?_⟩
  · rw [← hplan]
  · rw [← hplan]
  · exact (options "hl2sdk-root" _ (by rw [← hplan]; exact .head _)).1
  · rw [← hplan]
  · exact (options "hl2sdk-manifests" _ (by rw [← hplan]; exact .tail _ (.head _))).1

end Resolver
end BuildFront
