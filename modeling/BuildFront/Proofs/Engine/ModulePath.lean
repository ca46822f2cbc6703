import BuildFront.Machine.FileTree
import BuildFront.Proofs.Engine.Command
import BuildFront.Proofs.NameMap.Layers
import BuildFront.Proofs.Path.Legible
import BuildFront.Proofs.SearchPath.Joining

/-!
The module path that an engine inherits and the checkout that goes in front of it. The inherited
value is cut into its entries, the checkout goes before them, and all are joined again. Cutting the
value that is set gives back the checkout and each entry of the old value; only the checkout itself
can keep the entries from being joined, and then nothing is set.
-/

namespace BuildFront

theorem Utf8.ofString_append (s t : String) : ofString (s ++ t) = ofString s ++ ofString t := by
  rw [ofString, String.toList_append, encode, List.flatMap_append]
  rfl

theorem Utf8.lossy_ofString (s : String) : lossy (ofString s) = s := by
  rw [lossy, ofString, pieces_encode, List.map_map]
  simp [Function.comp_def]

namespace Path

theorem IsText.join {base p : Path} (hbase : base.IsText) (hp : p.IsText) :
    (base.join p).IsText := by
  obtain ⟨s, rfl⟩ := hbase
  obtain ⟨t, rfl⟩ := hp
  rw [Path.join]
  split
  · exact ⟨t, rfl⟩
  · split
    · exact ⟨s ++ t, by rw [ofString, ofString, ofString, Utf8.ofString_append]⟩
    · refine ⟨s ++ "/" ++ t, ?_⟩
      rw [ofString, ofString, ofString, Utf8.ofString_append, Utf8.ofString_append,
        List.append_assoc]
      rfl

/-- What a directory puts in front of the names below it. -/
theorem exists_join_eq (base : Path) :
    ∃ front, ∀ p : Path, p.isRooted = false → base.join p = ⟨front ++ p.bytes⟩ := by
  by_cases h : (base.isEmpty || base.bytes.getLast? == some slash) = true
  · refine ⟨base.bytes, fun p hp => ?_⟩
    rw [join, hp, if_neg Bool.false_ne_true, if_pos h]
  · refine ⟨base.bytes ++ [slash], fun p hp => ?_⟩
    rw [join, hp, if_neg Bool.false_ne_true, if_neg h, List.append_assoc]
    rfl

/-- Going down by two names is going down by both at once. -/
theorem join_join (base : Path) {p q : Path} (hp : p.isRooted = false) (hq : q.isRooted = false)
    (hne : p.bytes ≠ []) (hlast : p.bytes.getLast? ≠ some slash) :
    (base.join p).join q = base.join ⟨p.bytes ++ slash :: q.bytes⟩ := by
  obtain ⟨front, hfront⟩ := base.exists_join_eq
  have hboth : isRooted ⟨p.bytes ++ slash :: q.bytes⟩ = false := by
    rw [isRooted, List.head?_append_of_ne_nil _ hne]
    exact hp
  have hopen : ((base.join p).isEmpty || (base.join p).bytes.getLast? == some slash) = false := by
    rw [hfront p hp, isEmpty, List.getLast?_append_of_ne_nil _ hne]
    simp [hne, hlast]
  rw [join, hq, if_neg Bool.false_ne_true, hopen, if_neg Bool.false_ne_true, hfront p hp,
    hfront _ hboth, List.append_assoc]

end Path

theorem FileTree.isDirectory_eq_true_iff {t : FileTree} {cwd : Place} {p : Path} :
    t.isDirectory cwd p = true ↔ ∃ place, t.find cwd p true = .ok ⟨place, some .directory⟩ := by
  cases hfind : t.find cwd p true with
  | error fault =>
      rw [isDirectory, lookup, hfind]
      exact ⟨nofun, nofun⟩
  | ok spot =>
      obtain ⟨place, entry⟩ := spot
      rw [isDirectory, lookup, hfind]
      constructor
      · intro h
        cases entry with
        | none => cases h
        | some entry => cases entry <;> cases h; exact ⟨place, rfl⟩
      · rintro ⟨place', ⟨⟩⟩
        rfl

namespace Engine

theorem vendoredModules_eq (dir : Path) :
    vendoredModules dir = dir.join (.ofString "vendor/mmsource-2.0/third_party/ambuild") := by
  have below : vendoredModules dir =
      (((dir.join (.ofString "vendor")).join (.ofString "mmsource-2.0")).join
        (.ofString "third_party")).join (.ofString "ambuild") := rfl
  rw [below, Path.join_join dir (by decide) (by decide) (by decide) (by decide),
    Path.join_join dir (by decide) (by decide) (by decide) (by decide),
    Path.join_join dir (by decide) (by decide) (by decide) (by decide)]
  exact congrArg dir.join (by decide)

variable {isDirectory : Path → Bool} {inherited : Option String} {dir : Path}

/-- The entries of a module path that is inherited. -/
def inheritedEntries (inherited : Option String) : SearchPath :=
  inherited.elim [] (fun paths => SearchPath.ofBytes (Utf8.ofString paths))

theorem not_mem_of_mem_inheritedEntries {entry : Path} (h : entry ∈ inheritedEntries inherited) :
    SearchPath.colon ∉ entry.bytes := by
  cases inherited with
  | none => cases h
  | some paths => exact SearchPath.not_mem_of_mem_ofBytes h

theorem modulePath_eq_some_iff (value : Bytes) :
    modulePath isDirectory inherited dir = some value ↔
      isDirectory (vendoredModules dir) = true ∧
        SearchPath.joined? (vendoredModules dir :: inheritedEntries inherited) = some value := by
  simp only [modulePath, inheritedEntries]
  split
  · next h => exact (and_iff_right h).symm
  · next h => exact iff_of_false nofun fun both => h both.1

theorem modulePath_isSome_iff :
    (modulePath isDirectory inherited dir).isSome = true ↔
      isDirectory (vendoredModules dir) = true ∧
        SearchPath.colon ∉ (vendoredModules dir).bytes := by
  have joins : (SearchPath.joined? (vendoredModules dir :: inheritedEntries inherited)).isSome =
      true ↔ SearchPath.colon ∉ (vendoredModules dir).bytes := by
    rw [SearchPath.joined?_isSome_iff, List.forall_mem_cons]
    exact and_iff_left fun _ => not_mem_of_mem_inheritedEntries
  rw [← joins, Option.isSome_iff_exists, Option.isSome_iff_exists]
  simp only [modulePath_eq_some_iff, exists_and_left]

theorem ofBytes_modulePath {value : Bytes}
    (h : modulePath isDirectory inherited dir = some value) :
    SearchPath.ofBytes value = vendoredModules dir :: inheritedEntries inherited :=
  SearchPath.ofBytes_of_joined? ((modulePath_eq_some_iff value).mp h).2 (List.cons_ne_nil _ _)

theorem isText_vendoredModules (h : dir.IsText) : (vendoredModules dir).IsText := by
  rw [vendoredModules_eq]
  exact h.join ⟨_, rfl⟩

/-- Nothing of the module path is lost where it is made a text. -/
theorem ofString_lossy_modulePath {value : Bytes} (hdir : dir.IsText)
    (h : modulePath isDirectory inherited dir = some value) :
    Utf8.ofString (Utf8.lossy value) = value := by
  have hcolon := (modulePath_isSome_iff.mp (Option.isSome_iff_exists.mpr ⟨value, h⟩)).2
  have joined := ((modulePath_eq_some_iff value).mp h).2
  obtain ⟨s, hs⟩ : ∃ s, value = Utf8.ofString s := by
    obtain ⟨front, hfront⟩ := isText_vendoredModules hdir
    cases inherited with
    | none =>
        refine ⟨front, ?_⟩
        rw [(SearchPath.joined?_eq_some_iff.mp joined).2, hfront]
        exact List.intercalate_singleton
    | some paths =>
        refine ⟨front ++ ":" ++ paths, ?_⟩
        have between : Utf8.ofString ":" = [SearchPath.colon] := by decide
        have whole := (SearchPath.joined?_cons_ofBytes hcolon (Utf8.ofString paths)).symm.trans
          joined
        rw [← Option.some.inj whole, hfront, Utf8.ofString_append, Utf8.ofString_append, between,
          List.append_assoc]
        rfl
  rw [hs, Utf8.lossy_ofString]

variable {e : Engine} {env : NameMap String} {plan : BuildPlan} {i : Invocation}

theorem variables_of_command (h : e.command isDirectory env plan = .ok i) :
    i.env.get? modulePathVariable =
        (modulePath isDirectory (env.get? modulePathVariable) plan.sourceDir).map Utf8.lossy ∧
      i.env.get? fingerprintVariable = plan.fingerprint? := by
  have other : fingerprintVariable ≠ modulePathVariable := by decide
  rw [command] at h
  split at h
  · next text fingerprint htext hfingerprint =>
      simp only at h
      split at h
      · next paths hpaths =>
          cases h
          simp [Invocation.withEnv, hpaths, hfingerprint, other.symm]
      · next hpaths =>
          cases h
          simp [hpaths, hfingerprint, other]
  · cases h

/-- The vendored checkout goes in front of the module path if and only if it is a directory and has
no colon in its name. Cut at the colons, the path that is set then is the checkout and after it the
entries of the path that was inherited, each as often and in the order as they were there. Otherwise
the engine sees the path that was inherited. The fingerprint is told either way. -/
theorem module_path_is_extended (e : Engine) (isDirectory : Path → Bool) (env : NameMap String)
    (plan : BuildPlan) {text : String} (htext : plan.text? = some text) :
    let vendored := plan.sourceDir.join (.ofString "vendor/mmsource-2.0/third_party/ambuild")
    ∃ i, e.command isDirectory env plan = .ok i ∧
      ((i.env.get? modulePathVariable).isSome = true ↔
        isDirectory vendored = true ∧ SearchPath.colon ∉ vendored.bytes) ∧
      (∀ (files : FileTree) (cwd : Place), isDirectory = files.isDirectory cwd →
        (isDirectory vendored = true ↔
          ∃ place, files.find cwd vendored true = .ok ⟨place, some .directory⟩)) ∧
      (∀ value, i.env.get? modulePathVariable = some value →
        SearchPath.ofBytes (Utf8.ofString value) = vendored ::
          (env.get? modulePathVariable).elim []
            (fun paths => SearchPath.ofBytes (Utf8.ofString paths))) ∧
      (i.env.get? modulePathVariable = none →
        (env.override i.env).get? modulePathVariable = env.get? modulePathVariable) ∧
      i.env.get? fingerprintVariable = plan.fingerprint? := by
  intro vendored
  have hvendored : vendoredModules plan.sourceDir = vendored := vendoredModules_eq plan.sourceDir
  obtain ⟨j, hj, -⟩ := Option.map_eq_some_iff.mp htext
  obtain ⟨source, -, -, -, -, hsource, -⟩ := (plan.toJson?_eq_some_iff j).mp hj
  have legible : plan.sourceDir.IsText := ⟨source, (Path.text?_eq_some_iff _ source).mp hsource⟩
  obtain ⟨i, hi, -⟩ := exists_command_of_json hj
  obtain ⟨modules, fingerprint⟩ := variables_of_command hi
  refine ⟨i, hi, ?_, ?_, ?_, ?_, fingerprint⟩
  · rw [modules, Option.isSome_map, modulePath_isSome_iff, hvendored]
  · rintro files cwd rfl
    exact FileTree.isDirectory_eq_true_iff
  · intro value hvalue
    rw [modules] at hvalue
    obtain ⟨bytes, hbytes, rfl⟩ := Option.map_eq_some_iff.mp hvalue
    rw [ofString_lossy_modulePath legible hbytes, ofBytes_modulePath hbytes, hvendored]
    rfl
  · intro unset
    rw [NameMap.get?_override, unset, Option.none_or]

/-- Empty entries and repeated ones stay where they are. -/
theorem empty_entries_are_kept :
    let engine : Engine := ⟨.ofString "ambuild", []⟩
    let plan : BuildPlan := ⟨.ofString "/my src/", .ofString "/b", ⟨["cs2"]⟩, .engineDefault, none,
      none, none, false, false⟩
    let env : NameMap String := NameMap.empty.insert modulePathVariable ":/a::/b c:/a:"
    ∃ text, plan.text? = some text ∧
      ∃ i value, engine.command (fun _ => true) env plan = .ok i ∧
        i.env.get? modulePathVariable = some value ∧
        SearchPath.ofBytes (Utf8.ofString value) =
          ["/my src/vendor/mmsource-2.0/third_party/ambuild", "", "/a", "", "/b c", "/a", ""].map
            Path.ofString := by
  intro engine plan env
  obtain ⟨j, hj⟩ : ∃ j, plan.toJson? = some j := Option.isSome_iff_exists.mp (by decide)
  have htext := BuildPlan.text?_of_toJson? hj
  obtain ⟨i, hi, set, -, entries, -⟩ := module_path_is_extended engine (fun _ => true) env plan htext
  obtain ⟨value, hvalue⟩ := Option.isSome_iff_exists.mp (set.mpr ⟨rfl, by decide⟩)
  refine ⟨_, htext, i, value, hi, hvalue, ?_⟩
  rw [entries value hvalue]
  decide

end Engine
end BuildFront
