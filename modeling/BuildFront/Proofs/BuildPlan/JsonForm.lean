import BuildFront.BuildPlan
import BuildFront.Proofs.Text.Utf8

/-!
What the parts of a plan look like in JSON, and that no two plans have one JSON form: texts, lists
and paths are given by their bytes, and what is optional or comes in variants is told apart.
-/

namespace BuildFront

theorem PathCheck.label_injective : Function.Injective PathCheck.label := by
  intro a b h
  cases a <;> cases b <;> simp_all [PathCheck.label]

theorem IdList.toJson_injective : Function.Injective IdList.toJson := by
  intro a b h
  have items := Json.arr.inj h
  have texts : a.items = b.items := (List.map_inj_right fun _ _ => Json.str.inj).mp items
  cases a
  cases b
  exact congrArg IdList.mk texts

theorem TargetSelection.toJson_injective : Function.Injective TargetSelection.toJson := by
  intro a b h
  cases a with
  | engineDefault =>
      cases b with
      | engineDefault => rfl
      | explicit archs => simp [toJson] at h
  | explicit archs =>
      cases b with
      | engineDefault => simp [toJson] at h
      | explicit archs' =>
          simp only [toJson, Json.obj.injEq, List.cons.injEq, Prod.mk.injEq, true_and,
            and_true] at h
          rw [IdList.toJson_injective h]

theorem Path.eq_of_text? {p q : Path} {s : String} (hp : p.text? = some s) (hq : q.text? = some s) :
    p = q := by
  have hbytes := (Utf8.ofString_of_toString? hp).symm.trans (Utf8.ofString_of_toString? hq)
  cases p
  cases q
  exact congrArg Path.mk hbytes

theorem ResolvedPath.toJson?_eq_some_iff (p : ResolvedPath) (j : Json) :
    p.toJson? = some j ↔ ∃ text, p.path.text? = some text ∧
      j = .obj
        [("path", .str text), ("check", .str p.check.label), ("exists", .bool p.present)] := by
  rw [toJson?]
  cases p.path.text? <;> simp [eq_comm]

theorem ResolvedPath.eq_of_toJson? {p q : ResolvedPath} {j : Json} (hp : p.toJson? = some j)
    (hq : q.toJson? = some j) : p = q := by
  obtain ⟨text, hpt, rfl⟩ := (p.toJson?_eq_some_iff j).mp hp
  obtain ⟨text', hqt, heq⟩ := (q.toJson?_eq_some_iff _).mp hq
  simp only [Json.obj.injEq, List.cons.injEq, Prod.mk.injEq, true_and, and_true, Json.str.injEq,
    Json.bool.injEq] at heq
  obtain ⟨rfl, hcheck, hpresent⟩ := heq
  have hpath := Path.eq_of_text? hpt hqt
  cases p
  cases q
  simp_all [PathCheck.label_injective.eq_iff]

namespace BuildPlan

theorem eq_of_pathJson? {p q : Option ResolvedPath} {j : Json} (hp : pathJson? p = some j)
    (hq : pathJson? q = some j) : p = q := by
  cases p with
  | none =>
      cases q with
      | none => rfl
      | some q =>
          cases hp
          obtain ⟨_, _, h⟩ := (q.toJson?_eq_some_iff _).mp hq
          cases h
  | some p =>
      cases q with
      | none =>
          cases hq
          obtain ⟨_, _, h⟩ := (p.toJson?_eq_some_iff _).mp hp
          cases h
      | some q => rw [ResolvedPath.eq_of_toJson? hp hq]

theorem toJson?_eq_some_iff (p : BuildPlan) (j : Json) :
    p.toJson? = some j ↔ ∃ source build root manifests framework,
      p.sourceDir.text? = some source ∧ p.buildDir.text? = some build ∧
      pathJson? p.sdkRoot = some root ∧ pathJson? p.sdkManifests = some manifests ∧
      pathJson? p.hostFramework = some framework ∧
      j = .obj
        [("engine_api", .str engineApi),
         ("source_dir", .str source),
         ("build_dir", .str build),
         ("sdk_list", p.sdks.toJson),
         ("target_list", p.targets.toJson),
         ("sdk_root_path", root),
         ("sdk_manifest_path", manifests),
         ("host_framework_path", framework),
         ("debug_enabled", .bool p.debug),
         ("optimize_enabled", .bool p.optimize)] := by
  simp only [toJson?, Option.bind_eq_bind, Option.bind_eq_some_iff, Option.pure_def,
    Option.some.injEq]
  constructor
  · rintro ⟨source, hs, build, hb, root, hr, manifests, hm, framework, hf, rfl⟩
    exact ⟨source, build, root, manifests, framework, hs, hb, hr, hm, hf, rfl⟩
  · rintro ⟨source, build, root, manifests, framework, hs, hb, hr, hm, hf, rfl⟩
    exact ⟨source, hs, build, hb, root, hr, manifests, hm, framework, hf, rfl⟩

theorem text?_of_toJson? {p : BuildPlan} {j : Json} (h : p.toJson? = some j) :
    p.text? = some (String.ofList j.pretty) := by
  rw [text?, h, Option.map_some]

theorem fingerprint?_of_toJson? {p : BuildPlan} {j : Json} (h : p.toJson? = some j) :
    p.fingerprint? = some (Digest.sha256Hex (Utf8.encode j.compact)) := by
  rw [fingerprint?, h, Option.map_some]

theorem text?_of_no_json {p : BuildPlan} (h : p.toJson? = none) : p.text? = none := by
  rw [text?, h, Option.map_none]

theorem fingerprint?_of_no_json {p : BuildPlan} (h : p.toJson? = none) : p.fingerprint? = none := by
  rw [fingerprint?, h, Option.map_none]

/-- A JSON form is the form of one plan only. -/
theorem eq_of_toJson? {p q : BuildPlan} {j : Json} (hp : p.toJson? = some j)
    (hq : q.toJson? = some j) : p = q := by
  obtain ⟨_, _, _, _, _, hs, hb, hr, hm, hf, rfl⟩ := (p.toJson?_eq_some_iff j).mp hp
  obtain ⟨_, _, _, _, _, hs', hb', hr', hm', hf', heq⟩ := (q.toJson?_eq_some_iff _).mp hq
  simp only [Json.obj.injEq, List.cons.injEq, Prod.mk.injEq, true_and, and_true, Json.str.injEq,
    Json.bool.injEq] at heq
  obtain ⟨rfl, rfl, hsdks, htargets, rfl, rfl, rfl, hdebug, hoptimize⟩ := heq
  have source := Path.eq_of_text? hs hs'
  have build := Path.eq_of_text? hb hb'
  have root := eq_of_pathJson? hr hr'
  have manifests := eq_of_pathJson? hm hm'
  have framework := eq_of_pathJson? hf hf'
  have sdks := IdList.toJson_injective hsdks
  have targets := TargetSelection.toJson_injective htargets
  cases p
  cases q
  simp_all

end BuildPlan
end BuildFront
