import BuildFront.Engine
import BuildFront.Proofs.BuildPlan.JsonForm
import BuildFront.Proofs.Json.Reader
import BuildFront.Proofs.Resolver.Legible

/-!
What an engine is handed: the plan as indented JSON on its input, and in a variable the digest of
that text without its blanks. A receiver that reads JSON finds the fields of the plan and the
digest's text in what it reads.
-/

namespace BuildFront

def ResolvedPath.ReadsAs : Option ResolvedPath → Json → Prop
  | none, j => j = .null
  | some x, j => ∃ s, x.path = .ofString s ∧
      j = .obj [("path", .str s), ("check", .str x.check.label), ("exists", .bool x.present)]

def TargetSelection.ReadsAs : TargetSelection → Json → Prop
  | .engineDefault, j => j = .obj [("mode", .str "engine_default")]
  | .explicit archs, j =>
      j = .obj [("mode", .str "explicit"), ("archs", .arr (archs.items.map .str))]

/-- A plan as a receiver finds it: its fields under their names, in their order, with every text as
it is in the plan. -/
def BuildPlan.ReadsAs (p : BuildPlan) (j : Json) : Prop :=
  ∃ source build targets root manifests framework,
    p.sourceDir = .ofString source ∧ p.buildDir = .ofString build ∧ p.targets.ReadsAs targets ∧
    ResolvedPath.ReadsAs p.sdkRoot root ∧ ResolvedPath.ReadsAs p.sdkManifests manifests ∧
    ResolvedPath.ReadsAs p.hostFramework framework ∧
    j = .obj
      [("engine_api", .str BuildPlan.engineApi),
       ("source_dir", .str source),
       ("build_dir", .str build),
       ("sdk_list", .arr (p.sdks.items.map .str)),
       ("target_list", targets),
       ("sdk_root_path", root),
       ("sdk_manifest_path", manifests),
       ("host_framework_path", framework),
       ("debug_enabled", .bool p.debug),
       ("optimize_enabled", .bool p.optimize)]

theorem TargetSelection.readsAs_toJson (targets : TargetSelection) :
    targets.ReadsAs targets.toJson := by
  cases targets <;> rfl

namespace BuildPlan

theorem readsAs_of_pathJson? {field : Option ResolvedPath} {j : Json}
    (h : pathJson? field = some j) : ResolvedPath.ReadsAs field j := by
  cases field with
  | none =>
      cases h
      rfl
  | some x =>
      obtain ⟨s, hs, hj⟩ := (x.toJson?_eq_some_iff j).mp h
      exact ⟨s, (Path.text?_eq_some_iff x.path s).mp hs, hj⟩

theorem readsAs_of_toJson? {p : BuildPlan} {j : Json} (h : p.toJson? = some j) : p.ReadsAs j := by
  obtain ⟨source, build, root, manifests, framework, hs, hb, hr, hm, hf, rfl⟩ :=
    (p.toJson?_eq_some_iff j).mp h
  exact ⟨source, build, p.targets.toJson, root, manifests, framework,
    (Path.text?_eq_some_iff _ source).mp hs, (Path.text?_eq_some_iff _ build).mp hb,
    p.targets.readsAs_toJson, readsAs_of_pathJson? hr, readsAs_of_pathJson? hm,
    readsAs_of_pathJson? hf, rfl⟩

end BuildPlan

namespace Json

theorem distinct_texts (items : List String) : Distinct (.arr (items.map .str)) := by
  apply Distinct.arr
  rw [List.forall_mem_map]
  exact fun item _ => .str item

theorem distinct_of_readsAs_targets {targets : TargetSelection} {j : Json}
    (h : targets.ReadsAs j) : Distinct j := by
  cases targets with
  | engineDefault =>
      rw [h]
      exact .obj (by decide) (by simpa using .str _)
  | explicit archs =>
      rw [h]
      exact .obj (by simp) (by simpa using ⟨.str _, distinct_texts archs.items⟩)

theorem distinct_of_readsAs_path {field : Option ResolvedPath} {j : Json}
    (h : ResolvedPath.ReadsAs field j) : Distinct j := by
  cases field with
  | none =>
      rw [h]
      exact .null
  | some x =>
      obtain ⟨s, -, rfl⟩ := h
      exact .obj (by simp) (by simpa using ⟨.str _, .str _, .bool _⟩)

theorem distinct_of_readsAs {p : BuildPlan} {j : Json} (h : p.ReadsAs j) : Distinct j := by
  obtain ⟨source, build, targets, root, manifests, framework, -, -, ht, hr, hm, hf, rfl⟩ := h
  refine .obj (by simp) ?_
  simp only [List.forall_mem_cons, List.not_mem_nil, false_imp_iff, implies_true, and_true]
  exact ⟨.str _, .str _, .str _, distinct_texts _, distinct_of_readsAs_targets ht,
    distinct_of_readsAs_path hr, distinct_of_readsAs_path hm, distinct_of_readsAs_path hf,
    .bool _, .bool _⟩

end Json

/-! ### How deep a plan is nested -/

namespace Json

theorem depthOfItems_texts (items : List String) : depthOfItems (items.map .str) = 0 := by
  induction items with
  | nil => rfl
  | cons item rest ih => rw [List.map_cons, depthOfItems, depth, ih, Nat.max_self]

end Json

theorem TargetSelection.depth_le_of_readsAs {targets : TargetSelection} {j : Json}
    (h : targets.ReadsAs j) : j.depth ≤ 2 := by
  cases targets with
  | engineDefault =>
      rw [h]
      decide
  | explicit archs =>
      rw [h]
      simp only [Json.depth, Json.depthOfMembers, Json.depthOfItems_texts]
      omega

theorem ResolvedPath.depth_le_of_readsAs {field : Option ResolvedPath} {j : Json}
    (h : ReadsAs field j) : j.depth ≤ 1 := by
  cases field with
  | none =>
      rw [h]
      exact Nat.zero_le _
  | some x =>
      obtain ⟨s, -, rfl⟩ := h
      simp only [Json.depth, Json.depthOfMembers]
      omega

/-- A plan is an object, with objects in it, with an array in one of them. -/
def BuildPlan.jsonDepth : Nat := 3

theorem BuildPlan.depth_le_of_readsAs {p : BuildPlan} {j : Json} (h : p.ReadsAs j) :
    j.depth ≤ jsonDepth := by
  obtain ⟨source, build, targets, root, manifests, framework, -, -, ht, hr, hm, hf, rfl⟩ := h
  have := TargetSelection.depth_le_of_readsAs ht
  have := ResolvedPath.depth_le_of_readsAs hr
  have := ResolvedPath.depth_le_of_readsAs hm
  have := ResolvedPath.depth_le_of_readsAs hf
  simp only [Json.depth, Json.depthOfMembers, Json.depthOfItems_texts, jsonDepth]
  omega

namespace Engine

variable {e : Engine} {isDirectory : Path → Bool} {env : NameMap String} {plan : BuildPlan}

theorem command_of_no_json (h : plan.toJson? = none) :
    e.command isDirectory env plan = .error .serialize := by
  simp [command, BuildPlan.text?, h]

theorem exists_command_of_json {j : Json} (h : plan.toJson? = some j) :
    ∃ i, e.command isDirectory env plan = .ok i ∧
      i.input = some (Utf8.encode j.pretty) ∧ i.cwd = some plan.buildDir ∧
      i.env.get? fingerprintVariable = some (Digest.sha256Hex (Utf8.encode j.compact)) := by
  have other : modulePathVariable ≠ fingerprintVariable := by decide
  simp only [command, BuildPlan.text?, BuildPlan.fingerprint?, h, Option.map_some]
  split
  · exact ⟨_, rfl, by simp [Invocation.withEnv, Utf8.ofString], rfl, by
      simp [Invocation.withEnv, other]⟩
  · exact ⟨_, rfl, by simp [Utf8.ofString], rfl, by simp⟩

theorem input_of_command {i : Invocation} (h : e.command isDirectory env plan = .ok i) :
    i.input ≠ none := by
  cases hj : plan.toJson? with
  | none =>
      rw [command_of_no_json hj] at h
      cases h
  | some j =>
      obtain ⟨i', hi', input, -⟩ := exists_command_of_json hj
      cases h.symm.trans hi'
      simp [input]

/-- A plan without a JSON form is refused. Any other plan goes to the engine's input as indented
JSON, from the build directory, with the digest of that text less its blanks in a variable; and
whatever reads JSON as deep as plans are nested finds in the input the fields of the plan, of which
it can tell the digest. -/
theorem command_hands_over_plan (e : Engine) (isDirectory : Path → Bool) (env : NameMap String)
    (plan : BuildPlan) {read : Bytes → Option Json}
    (hread : Json.Standard BuildPlan.jsonDepth read) :
    (plan.text? = none → e.command isDirectory env plan = .error .serialize) ∧
    ∀ text, plan.text? = some text →
      ∃ i, e.command isDirectory env plan = .ok i ∧
        i.input = some (Utf8.ofString text) ∧ i.cwd = some plan.buildDir ∧
        i.env.get? fingerprintVariable =
          some (Digest.sha256Hex (Utf8.encode (Json.squeeze .between text.toList))) ∧
        ∃ j, read (Utf8.ofString text) = some j ∧ plan.ReadsAs j ∧
          i.env.get? fingerprintVariable = some (Digest.sha256Hex (Utf8.encode j.compact)) := by
  constructor
  · intro h
    exact command_of_no_json (Option.map_eq_none_iff.mp h)
  · intro text htext
    obtain ⟨j, hj, rfl⟩ := Option.map_eq_some_iff.mp htext
    obtain ⟨i, hi, input, cwd, fingerprint⟩ := exists_command_of_json hj
    have reads := BuildPlan.readsAs_of_toJson? hj
    have value := hread j.pretty j (Json.spelt_pretty j) (Json.distinct_of_readsAs reads)
      (BuildPlan.depth_le_of_readsAs reads)
    rw [Utf8.ofString, String.toList_ofList, Json.squeeze_pretty]
    exact ⟨i, hi, input, cwd, fingerprint, j, value, reads, fingerprint⟩

/-- Blanks, quotes, braces and backslashes in names and paths reach the receiver as they are. -/
theorem quoted_names_are_handed_over :
    let engine : Engine := ⟨.ofString "/usr/bin/ambuild", ["--quiet"]⟩
    let plan : BuildPlan := ⟨.ofString "/my \"src\"", .ofString "/b\\ {x}\n", ⟨["c s", "\\\" ]\t"]⟩,
      .explicit ⟨["x86, 64"]⟩, none, none, some ⟨.ofString "/m: m", .lazy, false⟩, true, false⟩
    Json.Standard BuildPlan.jsonDepth Json.read ∧ ∃ text, plan.text? = some text ∧
      ∃ i, engine.command (fun _ => true) .empty plan = .ok i ∧
        i.input = some (Utf8.ofString text) ∧ i.cwd = some (.ofString "/b\\ {x}\n") ∧
        i.env.get? fingerprintVariable =
          some (Digest.sha256Hex (Utf8.encode (Json.squeeze .between text.toList))) ∧
        ∃ j, Json.read (Utf8.ofString text) = some j ∧ plan.ReadsAs j ∧
          i.env.get? fingerprintVariable = some (Digest.sha256Hex (Utf8.encode j.compact)) := by
  intro engine plan
  have hjson : plan.toJson? ≠ none := by
    rw [BuildPlan.toJson?_ne_none_iff, BuildPlan.forall_pathOptions_iff]
    refine ⟨⟨_, rfl⟩, ⟨_, rfl⟩, nofun, nofun, ?_⟩
    rintro x ⟨⟩
    exact ⟨_, rfl⟩
  obtain ⟨j, hj⟩ := Option.ne_none_iff_exists'.mp hjson
  have htext := BuildPlan.text?_of_toJson? hj
  have standard := Json.standard_read BuildPlan.jsonDepth
  exact ⟨standard, _, htext,
    (command_hands_over_plan engine (fun _ => true) .empty plan standard).2 _ htext⟩

end Engine
end BuildFront
