import BuildFront.Proofs.Application.Stages
import BuildFront.Proofs.Path.Composition
import BuildFront.Proofs.Resolver.Registries

/-!
The two directories of a run. Only the folded form of a working directory counts, and the source
directory is the same whether it is seen from the working directory once or twice: so what is
configured for a project is looked for where its plan says that the sources are.
-/

namespace BuildFront

namespace Resolver

variable {r r' : Resolver} {present : Path → Bool} {raw : RawInput}

theorem resolve_congr (hg : r.registry = r'.registry)
    (hcwd : Path.absolutize r.cwd = Path.absolutize r'.cwd) (hdir : r.sourceDir = r'.sourceDir) :
    r.resolve present raw = r'.resolve present raw := by
  have each (specs : List OptionSpec) :
      r.resolveEach present raw specs = r'.resolveEach present raw specs :=
    resolveEach_congr hcwd specs
  have composed (o : ResolvedOptions) : r.compose o = r'.compose o :=
    compose_congr hcwd hdir fun _ _ => rfl
  simp only [resolve, resolveOptions, firstUnknown, hg, each, composed]

theorem resolve_make_congr {cwd cwd' : Path} (h : cwd.normalize = cwd'.normalize) (g : Registry)
    (dir : Option Path) :
    (make g cwd dir).resolve present raw = (make g cwd' dir).resolve present raw := by
  have seen := Path.absolutize_congr h
  apply resolve_congr
  · rw [make_registry, make_registry]
  · rw [make_cwd, make_cwd, seen]
  · rw [make_sourceDir, make_sourceDir, seen]

end Resolver

namespace Application

open CommandLine

variable {host : Host} {g : Registry} {m : Matches} {cwd : Path} {config : Config}
  {plan : BuildPlan}

theorem resolver_eq (hcwd : cwd.isRooted = true) (g : Registry) (request : Request) :
    resolver cwd g request =
      Resolver.make g cwd (some (request.sourceDir.getD (.ofString "."))) := by
  have once := Path.absolutize_absolutize hcwd cwd (request.sourceDir.getD (.ofString "."))
  exact congrArg (fun dir => (⟨g, cwd, some dir⟩ : Resolver)) once

theorem sourceDir_of_planned (hcwd : cwd.isRooted = true)
    (h : Planned host g m cwd config plan) :
    plan.sourceDir = sourceDir cwd (Request.ofMatches m) := by
  have resolved := h.resolved
  rw [resolution, resolver_eq hcwd] at resolved
  rw [Resolver.sourceDir_of_resolve resolved]
  rfl

/-- A path seen from a directory is the two joined and folded. Folding them before, or seeing one
part after the other, comes to the same. So a run may make its source directory absolute twice, and
the project's configuration is looked for in the very directory that the plan names. Working
directories that are folded alike give the same plan, or the same refusal, for every input. -/
theorem absolutize_composes :
    (∀ base p : Path,
      Path.absolutize base p = (base.join p).normalize ∧
      (p.isRooted = true → Path.absolutize base p = p.normalize) ∧
      Path.absolutize base p = Path.absolutize base.normalize p.normalize ∧
      (Path.absolutize base p).isRooted = (base.isRooted || p.isRooted) ∧
      (∀ q, Path.absolutize (Path.absolutize base p) q = Path.absolutize base (p.join q)) ∧
      (base.isRooted = true →
        Path.absolutize base (Path.absolutize base p) = Path.absolutize base p)) ∧
    (∀ (host : Host) (g : Registry) (m : Matches) (cwd : Path), cwd.isRooted = true →
      let request := Request.ofMatches m
      let dir := request.sourceDir.getD (.ofString ".")
      resolver cwd g request = Resolver.make g cwd (some dir) ∧
      ∀ config plan, Planned host g m cwd config plan →
        plan.sourceDir = Path.absolutize cwd dir ∧
        (request.config = none →
          configuration host cwd request =
            Config.loadLayers host.files (host.home.map Config.globalFile)
              (Config.projectFile plan.sourceDir))) ∧
    ∀ (g : Registry) (cwd cwd' : Path) (dir : Option Path) (present : Path → Bool)
      (raw : RawInput), cwd.normalize = cwd'.normalize →
      (Resolver.make g cwd dir).resolve present raw =
        (Resolver.make g cwd' dir).resolve present raw := by
  refine ⟨fun base p => ⟨rfl, ?_, ?_, ?_, ?_, ?_⟩, ?_, ?_⟩
  · exact Path.absolutize_of_rooted base
  · exact (Path.absolutize_normalize base p).symm
  · exact Path.isRooted_absolutize_eq base p
  · exact Path.absolutize_absolutize_join base p
  · exact fun h => Path.absolutize_absolutize h base p
  · intro host g m cwd hcwd request dir
    refine ⟨resolver_eq hcwd g request, ?_⟩
    intro config plan planned
    have source := sourceDir_of_planned hcwd planned
    refine ⟨source, ?_⟩
    intro hconfig
    rw [source, configuration, hconfig]
  · exact fun g cwd cwd' dir present raw h => Resolver.resolve_make_congr h g dir

/-- A source directory given with detours is looked for, and named by the plan, in its one
spelling. -/
theorem detour_to_source_dir :
    let files : FileAccess := ⟨fun _ => false, fun _ => .error .notUtf8⟩
    let cwd := Path.ofString "/work/./mod//"
    let host : Host := ⟨.ok cwd, none, .empty, files, fun _ => false, fun _ => none,
      fun _ => .refused .nulByte, .unbounded, fun _ _ => []⟩
    let m : Matches := NameMap.empty.insert "source-dir" (.value "x/../../src/")
    let config := Config.empty.merge .empty
    let plan : BuildPlan := ⟨.ofString "/work/src", .ofString "/work/mod", ⟨["cs2"]⟩,
      .engineDefault, none, none, none, false, true⟩
    cwd.isRooted = true ∧ Planned host .standard m cwd config plan ∧
      (Request.ofMatches m).config = none ∧
      plan.sourceDir = Path.absolutize cwd (.ofString "x/../../src/") ∧
      configuration host cwd (Request.ofMatches m) =
        Config.loadLayers files none (Config.projectFile plan.sourceDir) ∧
      Path.normalize (.ofString "a/../../b") = Path.normalize (.ofString "./..//b/") ∧
      ((Resolver.make .standard (.ofString "a/../../b") none).resolve files.present .empty).2 =
        ((Resolver.make .standard (.ofString "./..//b/") none).resolve files.present .empty).2 := by
  intro files cwd host m config plan
  have hcwd : cwd.isRooted = true := by rfl
  have planned : Planned host .standard m cwd config plan := ⟨rfl, by decide, by decide⟩
  have folded : Path.normalize (.ofString "a/../../b") = Path.normalize (.ofString "./..//b/") := by
    decide
  obtain ⟨source, configured⟩ :=
    (absolutize_composes.2.1 host .standard m cwd hcwd).2 config plan planned
  have alike := absolutize_composes.2.2 .standard _ _ none files.present .empty folded
  exact ⟨hcwd, planned, rfl, source, configured rfl, folded, congrArg Prod.snd alike⟩

end Application
end BuildFront
