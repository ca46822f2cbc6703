import BuildFront.Proofs.BuildPlan.JsonForm
import BuildFront.Proofs.Path.Legible
import BuildFront.Proofs.Resolver.PathOptions

/-!
Which resolved plans have a JSON form: those whose two directories are texts. The path options need
no asking.
-/

namespace BuildFront
namespace BuildPlan

theorem pathJson?_ne_none_iff (field : Option ResolvedPath) :
    pathJson? field ≠ none ↔ ∀ x, field = some x → x.path.IsText := by
  cases field with
  | none => simp [pathJson?]
  | some x =>
      rw [pathJson?, Option.ne_none_iff_exists']
      simp [ResolvedPath.toJson?_eq_some_iff, Path.text?_eq_some_iff, Path.IsText]

theorem toJson?_ne_none_iff (p : BuildPlan) :
    p.toJson? ≠ none ↔ p.sourceDir.IsText ∧ p.buildDir.IsText ∧
      ∀ name x, (name, some x) ∈ p.pathOptions → x.path.IsText := by
  rw [forall_pathOptions_iff, ← pathJson?_ne_none_iff, ← pathJson?_ne_none_iff,
    ← pathJson?_ne_none_iff]
  simp only [Option.ne_none_iff_exists', toJson?_eq_some_iff, Path.text?_eq_some_iff, Path.IsText]
  constructor
  · rintro ⟨j, source, build, root, manifests, framework, hs, hb, hr, hm, hf, -⟩
    exact ⟨⟨source, hs⟩, ⟨build, hb⟩, ⟨root, hr⟩, ⟨manifests, hm⟩, ⟨framework, hf⟩⟩
  · rintro ⟨⟨source, hs⟩, ⟨build, hb⟩, ⟨root, hr⟩, ⟨manifests, hm⟩, ⟨framework, hf⟩⟩
    exact ⟨_, source, build, root, manifests, framework, hs, hb, hr, hm, hf, rfl⟩

end BuildPlan

namespace Resolver

variable {g : Registry} {cwd : Path} {dir : Option Path} {present : Path → Bool} {raw : RawInput}
  {plan : BuildPlan}

theorem isText_of_buildDir (h : ((make g cwd dir).resolve present raw).2 = .ok plan)
    (hbuild : plan.buildDir.IsText) {name : String} {x : ResolvedPath}
    (hx : (name, some x) ∈ plan.pathOptions) : x.path.IsText := by
  obtain ⟨spec, -, -, -, s, -, hfind⟩ := find?_of_resolve h hx
  rw [(ResolvedPath.find?_eq_some_iff.mp hfind).2.1]
  rw [buildDir_of_resolve h] at hbuild
  exact Path.isText_absolutize hbuild ⟨s, rfl⟩

/-- Of a resolved plan either both the JSON text and the fingerprint can be had or neither, and they
can if and only if its two directories are texts. A path option is never to blame alone: where the
build directory is a text, so are all of them. -/
theorem json_form_iff_directories (h : ((make g cwd dir).resolve present raw).2 = .ok plan) :
    (plan.text? ≠ none ↔ plan.fingerprint? ≠ none) ∧
    (plan.text? ≠ none ↔ plan.buildDir.IsText ∧ plan.sourceDir.IsText) ∧
    (plan.buildDir.IsText → ∀ name x, (name, some x) ∈ plan.pathOptions → x.path.IsText) := by
  have text : plan.text? ≠ none ↔ plan.toJson? ≠ none := by simp [BuildPlan.text?]
  have fingerprint : plan.fingerprint? ≠ none ↔ plan.toJson? ≠ none := by
    simp [BuildPlan.fingerprint?]
  refine ⟨text.trans fingerprint.symm, ?_, fun hbuild _ _ hx => isText_of_buildDir h hbuild hx⟩
  rw [text, BuildPlan.toJson?_ne_none_iff]
  constructor
  · rintro ⟨source, build, -⟩
    exact ⟨build, source⟩
  · rintro ⟨build, source⟩
    exact ⟨source, build, fun _ _ hx => isText_of_buildDir h build hx⟩

/-- A byte of no text in the working directory does no harm where `..` takes it away again; in the
source directory it costs the plan its JSON form. -/
theorem broken_source_dir_costs_json :
    let cwd : Path := ⟨Utf8.ofString "/work/" ++ 0xFF :: Utf8.ofString "/../mod"⟩
    let broken : Path := ⟨Utf8.ofString "gen" ++ [0xFF]⟩
    let raw : RawInput := NameMap.empty.insert "mms-path" (.text "../mms")
    let plan : BuildPlan := ⟨.ofString "/work/mod", .ofString "/work/mod", ⟨["cs2"]⟩,
      .engineDefault, none, none, some ⟨.ofString "/work/mms", .lazy, false⟩, false, true⟩
    let other : BuildPlan :=
      { plan with sourceDir := ⟨Utf8.ofString "/work/mod/gen" ++ [0xFF]⟩ }
    ((make .standard cwd none).resolve (fun _ => false) raw).2 = .ok plan ∧
    plan.text? ≠ none ∧ plan.fingerprint? ≠ none ∧
    ((make .standard cwd (some broken)).resolve (fun _ => false) raw).2 = .ok other ∧
    other.text? = none ∧ other.fingerprint? = none ∧ (Path.ofString "/work/mms").IsText := by
  intro cwd broken raw plan other
  have hplan : ((make .standard cwd none).resolve (fun _ => false) raw).2 = .ok plan := by rfl
  have hother : ((make .standard cwd (some broken)).resolve (fun _ => false) raw).2 =
      .ok other := by rfl
  obtain ⟨both, texts, options⟩ := json_form_iff_directories hplan
  have build : plan.buildDir.IsText := ⟨_, rfl⟩
  have text := texts.mpr ⟨build, ⟨_, rfl⟩⟩
  obtain ⟨both', texts', -⟩ := json_form_iff_directories hother
  have illegible : ¬other.sourceDir.IsText := by
    rintro ⟨s, hs⟩
    have hread := (Path.text?_eq_some_iff _ s).mpr hs
    have hnone : other.sourceDir.text? = none := by decide
    rw [hnone] at hread
    cases hread
  have lost : other.text? = none := by
    by_contra h
    exact illegible (texts'.mp h).2
  have framework : ("mms-path", plan.hostFramework) ∈ plan.pathOptions := by decide
  refine ⟨hplan, text, both.mp text, hother, lost, ?_, options build _ _ framework⟩
  by_contra h
  exact absurd lost (both'.mpr h)

end Resolver
end BuildFront
