import BuildFront.Proofs.Resolver.Standard

/-!
Resolving one input with two registries. The order of registration decides which refusal is reported
and in which order the log goes on, and nothing else; help texts, variables and further options do
not reach the plan; and options added at the end leave every earlier refusal as it is.
-/

namespace BuildFront

namespace Registry

variable {g g' : Registry}

theorem get?_of_perm (h : g.specs.Perm g'.specs) (name : String) : g.get? name = g'.get? name := by
  ext spec
  rw [get?_eq_some_iff, get?_eq_some_iff, h.mem_iff]

theorem contains_of_perm (h : g.specs.Perm g'.specs) (name : String) :
    g.contains name = g'.contains name := by
  rw [Bool.eq_iff_iff, contains_eq_true_iff, contains_eq_true_iff]
  simp only [h.mem_iff]

/-- What resolving asks of an option besides its name. -/
def bearing (g : Registry) (name : String) : Option (OptionKind × Preset) :=
  (g.get? name).map (fun spec => (spec.kind, spec.preset))

theorem name_of_get? {name : String} {spec : OptionSpec} (h : g.get? name = some spec) :
    spec.name = name :=
  ((g.get?_eq_some_iff name spec).mp h).2

end Registry

namespace ResolvedOptions

variable {o o' : ResolvedOptions} {name : String}

theorem listOf_congr (h : o.get? name = o'.get? name) : o.listOf name = o'.listOf name := by
  simp only [listOf, h]

theorem pathOf_congr (h : o.get? name = o'.get? name) : o.pathOf name = o'.pathOf name := by
  simp only [pathOf, h]

theorem flagOf_congr (h : o.get? name = o'.get? name) : o.flagOf name = o'.flagOf name := by
  simp only [flagOf, h]

theorem get?_append_of_ne_none (more : ResolvedOptions) (h : o.get? name ≠ none) :
    get? (o ++ more) name = o.get? name := by
  obtain ⟨v, hv⟩ := Option.ne_none_iff_exists'.mp h
  obtain ⟨e, he, rfl⟩ := Option.map_eq_some_iff.mp hv
  rw [hv, get?, List.find?_append, he]
  rfl

end ResolvedOptions

namespace Resolver

variable {r r' : Resolver} {g g' : Registry} {more : List OptionSpec} {cwd : Path}
  {dir : Option Path} {present : Path → Bool} {raw : RawInput}

/-- A working directory counts for what paths are seen from it, and for nothing else. -/
theorem resolveOne_congr (h : Path.absolutize r.cwd = Path.absolutize r'.cwd) (spec : OptionSpec)
    (v : Option RawValue) : r.resolveOne present spec v = r'.resolveOne present spec v := by
  simp only [resolveOne, checkPath, h]

theorem resolveEach_congr (h : Path.absolutize r.cwd = Path.absolutize r'.cwd)
    (specs : List OptionSpec) :
    r.resolveEach present raw specs = r'.resolveEach present raw specs := by
  induction specs with
  | nil => rfl
  | cons spec rest ih => rw [resolveEach, resolveEach, resolveOne_congr h, ih]

theorem meaningOf?_congr (h : Path.absolutize r.cwd = Path.absolutize r'.cwd) (spec : OptionSpec) :
    r.meaningOf? present raw spec = r'.meaningOf? present raw spec := by
  have find : ResolvedPath.find? r.cwd present = ResolvedPath.find? r'.cwd present := by
    funext check s
    simp only [ResolvedPath.find?, h]
  rw [meaningOf?, meaningOf?]
  cases spec.kind <;> cases spec.value _ <;> simp only [OptionKind.meaning?, find]

/-- Composing looks at the options of a plugin build and at the two directories. -/
theorem compose_congr (hcwd : Path.absolutize r.cwd = Path.absolutize r'.cwd)
    (hdir : r.sourceDir = r'.sourceDir) {o o' : ResolvedOptions}
    (h : ∀ name ∈ Registry.standard.names, o.get? name = o'.get? name) :
    r.compose o = r'.compose o' := by
  simp only [compose, hcwd, hdir,
    ResolvedOptions.listOf_congr (h "targets" (by decide)),
    ResolvedOptions.listOf_congr (h "sdks" (by decide)),
    ResolvedOptions.pathOf_congr (h "hl2sdk-root" (by decide)),
    ResolvedOptions.pathOf_congr (h "hl2sdk-manifests" (by decide)),
    ResolvedOptions.pathOf_congr (h "mms-path" (by decide)),
    ResolvedOptions.flagOf_congr (h "enable-debug" (by decide)),
    ResolvedOptions.flagOf_congr (h "enable-optimize" (by decide))]

theorem Composes.get?_ne_none {o : ResolvedOptions} {plan : BuildPlan} (h : r.Composes o plan) :
    ∀ name ∈ Registry.standard.names, o.get? name ≠ none := by
  change ∀ name ∈ Registry.standardSpecs.map (·.name), _
  simp only [Registry.standardSpecs, List.map_cons, List.map_nil, List.forall_mem_cons,
    List.not_mem_nil, false_imp_iff, implies_true, and_true]
  refine ⟨?_, ?_, ?_, ?_, ?_, ?_, ?_⟩
  · exact Option.ne_none_iff_exists'.mpr ⟨_, h.sdkRoot⟩
  · exact Option.ne_none_iff_exists'.mpr ⟨_, h.sdkManifests⟩
  · exact Option.ne_none_iff_exists'.mpr ⟨_, h.hostFramework⟩
  · exact Option.ne_none_iff_exists'.mpr ⟨_, h.sdks⟩
  · exact Option.ne_none_iff_exists'.mpr ⟨_, h.targets⟩
  · exact Option.ne_none_iff_exists'.mpr ⟨_, h.debug⟩
  · exact Option.ne_none_iff_exists'.mpr ⟨_, h.optimize⟩

/-- The events that an option leaves behind once it is accepted. -/
def eventsOf (r : Resolver) (present : Path → Bool) (raw : RawInput) (spec : OptionSpec) :
    List Event :=
  match r.resolveOne present spec (raw.get? spec.name) with
  | .ok (value, warnings) =>
    warnings ++ [.optionResolved spec.name (raw.contains spec.name) value]
  | .error _ => []

theorem eventsOf_congr (h : Path.absolutize r.cwd = Path.absolutize r'.cwd) (spec : OptionSpec) :
    r.eventsOf present raw spec = r'.eventsOf present raw spec := by
  rw [eventsOf, eventsOf, resolveOne_congr h]

theorem events_resolveEach {specs : List OptionSpec} {o : ResolvedOptions}
    (h : (r.resolveEach present raw specs).2 = .ok o) :
    (r.resolveEach present raw specs).1 = specs.flatMap (r.eventsOf present raw) := by
  induction specs generalizing o with
  | nil => rfl
  | cons spec rest ih =>
      rw [List.flatMap_cons, eventsOf]
      cases hone : r.resolveOne present spec (raw.get? spec.name) with
      | error e =>
          rw [resolveEach_cons_error rest hone] at h
          cases h
      | ok taken =>
          obtain ⟨v, ws⟩ := taken
          rw [resolveEach_cons_ok rest hone] at h
          cases hrest : (r.resolveEach present raw rest).2 with
          | error e =>
              rw [hrest] at h
              cases h
          | ok tail =>
              simp only [resolveEach, hone, ih hrest, List.append_assoc, List.singleton_append]

/-- Options that come after others are resolved once those are accepted, and not before. -/
theorem resolveEach_append (specs more : List OptionSpec) :
    r.resolveEach present raw (specs ++ more) =
      match r.resolveEach present raw specs with
      | (events, .error e) => (events, .error e)
      | (events, .ok o) =>
        (events ++ (r.resolveEach present raw more).1,
          (r.resolveEach present raw more).2.map (o ++ ·)) := by
  induction specs with
  | nil =>
      simp only [List.nil_append, resolveEach]
      cases hmore : r.resolveEach present raw more with
      | mk events result => cases result <;> rfl
  | cons spec rest ih =>
      rw [List.cons_append, resolveEach, resolveEach]
      cases hone : r.resolveOne present spec (raw.get? spec.name) with
      | error e => rfl
      | ok taken =>
          rw [ih]
          cases hrest : r.resolveEach present raw rest with
          | mk events result =>
              cases result with
              | error e => rfl
              | ok tail =>
                  cases (r.resolveEach present raw more).2 <;> simp [Except.map]

theorem events_resolveOptions {o : ResolvedOptions}
    (h : (r.resolveOptions present raw).2 = .ok o) :
    (r.resolveOptions present raw).1 = r.registry.specs.flatMap (r.eventsOf present raw) := by
  have known := firstUnknown_eq_none_iff.mpr (exists_resolveOptions_ok_iff.mp ⟨o, h⟩).1
  rw [resolveOptions_of_known known] at h ⊢
  exact events_resolveEach h

theorem absolutize_make_cwd (g g' : Registry) (cwd : Path) (dir : Option Path) :
    Path.absolutize (make g cwd dir).cwd = Path.absolutize (make g' cwd dir).cwd := by
  rw [make_cwd, make_cwd]

theorem make_sourceDir_eq (g g' : Registry) (cwd : Path) (dir : Option Path) :
    (make g cwd dir).sourceDir = (make g' cwd dir).sourceDir := by
  rw [make_sourceDir, make_sourceDir]

theorem exists_resolveOptions_ok_of_perm (h : g.specs.Perm g'.specs) :
    (∃ o, ((make g cwd dir).resolveOptions present raw).2 = .ok o) ↔
      ∃ o, ((make g' cwd dir).resolveOptions present raw).2 = .ok o := by
  simp only [exists_resolveOptions_ok_iff, make_registry, Registry.contains_of_perm h, h.mem_iff,
    meaningOf?, make_cwd]

theorem get?_resolveOptions_of_perm (h : g.specs.Perm g'.specs) {o o' : ResolvedOptions}
    (ho : ((make g cwd dir).resolveOptions present raw).2 = .ok o)
    (ho' : ((make g' cwd dir).resolveOptions present raw).2 = .ok o') (name : String) :
    o.get? name = o'.get? name := by
  rw [resolveOptions_get? name ho, resolveOptions_get? name ho', make_registry, make_registry,
    Registry.get?_of_perm h name]
  congr 1
  funext spec
  exact meaningOf?_congr (absolutize_make_cwd g g' cwd dir) spec

theorem resolve_ok_of_perm (h : g.specs.Perm g'.specs) {plan : BuildPlan}
    (hplan : ((make g cwd dir).resolve present raw).2 = .ok plan) :
    ((make g' cwd dir).resolve present raw).2 = .ok plan := by
  obtain ⟨o, ho, -⟩ := exists_composes_of_resolve hplan
  obtain ⟨o', ho'⟩ := (exists_resolveOptions_ok_of_perm h).mp ⟨o, ho⟩
  rw [resolve_of_resolveOptions_ok ho']
  rw [resolve_of_resolveOptions_ok ho] at hplan
  rw [← hplan]
  exact compose_congr (absolutize_make_cwd g' g cwd dir) (make_sourceDir_eq g' g cwd dir)
    fun name _ => (get?_resolveOptions_of_perm h ho ho' name).symm

theorem events_of_perm (h : g.specs.Perm g'.specs) {plan : BuildPlan}
    (hplan : ((make g cwd dir).resolve present raw).2 = .ok plan) :
    ((make g cwd dir).resolve present raw).1.Perm ((make g' cwd dir).resolve present raw).1 := by
  have hplan' := resolve_ok_of_perm h hplan
  obtain ⟨o, ho, -⟩ := exists_composes_of_resolve hplan
  obtain ⟨o', ho', -⟩ := exists_composes_of_resolve hplan'
  rw [events_of_resolve hplan, events_of_resolve hplan', events_resolveOptions ho,
    events_resolveOptions ho', make_registry, make_registry]
  have each : (make g' cwd dir).eventsOf present raw = (make g cwd dir).eventsOf present raw :=
    funext (eventsOf_congr (absolutize_make_cwd g' g cwd dir))
  rw [each]
  exact (h.flatMap_right _).append_right _

theorem bind_meaningOf?_of_bearing {name : String} (h : g.bearing name = g'.bearing name)
    (r : Resolver) :
    (g.get? name).bind (r.meaningOf? present raw) =
      (g'.get? name).bind (r.meaningOf? present raw) := by
  rw [Registry.bearing, Registry.bearing] at h
  cases hspec : g.get? name with
  | none =>
      rw [hspec, Option.map_none, eq_comm, Option.map_eq_none_iff] at h
      rw [h]
  | some spec =>
      rw [hspec, Option.map_some, eq_comm, Option.map_eq_some_iff] at h
      obtain ⟨spec', hspec', heq⟩ := h
      simp only [Prod.mk.injEq] at heq
      have value (v : Option RawValue) : spec.value v = spec'.value v := by
        cases v with
        | none => exact heq.2.symm
        | some x => cases x <;> rfl
      rw [hspec', Option.bind_some, Option.bind_some, meaningOf?, meaningOf?, heq.1, value,
        Registry.name_of_get? hspec, Registry.name_of_get? hspec']

theorem plan_eq_of_bearing
    (h : ∀ name ∈ Registry.standard.names, g.bearing name = g'.bearing name)
    {plan plan' : BuildPlan} (hplan : ((make g cwd dir).resolve present raw).2 = .ok plan)
    (hplan' : ((make g' cwd dir).resolve present raw).2 = .ok plan') : plan = plan' := by
  obtain ⟨o, ho, -⟩ := exists_composes_of_resolve hplan
  obtain ⟨o', ho', -⟩ := exists_composes_of_resolve hplan'
  rw [resolve_of_resolveOptions_ok ho] at hplan
  rw [resolve_of_resolveOptions_ok ho'] at hplan'
  have same : ∀ name ∈ Registry.standard.names, o.get? name = o'.get? name := by
    intro name hname
    have meaning : (make g cwd dir).meaningOf? present raw =
        (make g' cwd dir).meaningOf? present raw :=
      funext (meaningOf?_congr (absolutize_make_cwd g g' cwd dir))
    rw [resolveOptions_get? name ho, resolveOptions_get? name ho', make_registry, make_registry,
      meaning]
    exact bind_meaningOf?_of_bearing (h name hname) _
  have composed :=
    compose_congr (absolutize_make_cwd g g' cwd dir) (make_sourceDir_eq g g' cwd dir) same
  rw [composed, hplan'] at hplan
  exact (Except.ok.inj hplan).symm

theorem contains_of_append (h : g'.specs = g.specs ++ more) {name : String}
    (hname : g.contains name = true) : g'.contains name = true := by
  rw [Registry.contains_eq_true_iff] at hname ⊢
  obtain ⟨spec, hspec, rfl⟩ := hname
  exact ⟨spec, h ▸ List.mem_append_left more hspec, rfl⟩

/-- What is added to a registry is not supplied by an input for that registry. -/
theorem get?_eq_none_of_mem_more (h : g'.specs = g.specs ++ more)
    (known : ∀ name, raw.contains name = true → g.contains name = true) {spec : OptionSpec}
    (hspec : spec ∈ more) : raw.get? spec.name = none := by
  by_contra hne
  have supplied : raw.contains spec.name = true := Option.isSome_iff_ne_none.mpr hne
  obtain ⟨spec', hspec', hname⟩ := (g.contains_eq_true_iff _).mp (known _ supplied)
  have distinct := g'.distinct
  rw [h, List.map_append, List.nodup_append] at distinct
  exact distinct.2.2 _ (List.mem_map_of_mem hspec') _ (List.mem_map_of_mem hspec) hname

theorem resolveOptions_of_append (h : g'.specs = g.specs ++ more)
    (known : ∀ name, raw.contains name = true → g.contains name = true) :
    (make g' cwd dir).resolveOptions present raw =
      match (make g cwd dir).resolveOptions present raw with
      | (events, .error e) => (events, .error e)
      | (events, .ok o) =>
        (events ++ ((make g cwd dir).resolveEach present raw more).1,
          ((make g cwd dir).resolveEach present raw more).2.map (o ++ ·)) := by
  have known_g : (make g cwd dir).firstUnknown raw = none := by
    rw [firstUnknown_eq_none_iff, make_registry]
    exact known
  have known_g' : (make g' cwd dir).firstUnknown raw = none := by
    rw [firstUnknown_eq_none_iff, make_registry]
    exact fun name hname => contains_of_append h (known name hname)
  rw [resolveOptions_of_known known_g, resolveOptions_of_known known_g', make_registry,
    make_registry, h, resolveEach_congr (absolutize_make_cwd g' g cwd dir), resolveEach_append]

/-- The first refusal among the defaults of some options. -/
def DefaultRefused (cwd : Path) (present : Path → Bool) (specs : List OptionSpec) (e : Rejection) :
    Prop :=
  ∃ before spec after, specs = before ++ spec :: after ∧
    (∀ s ∈ before, ∀ e', ¬Refuses cwd present s none e') ∧ Refuses cwd present spec none e

theorem resolveOptions_of_append_cases (h : g'.specs = g.specs ++ more)
    (known : ∀ name, raw.contains name = true → g.contains name = true) {o : ResolvedOptions}
    (ho : ((make g cwd dir).resolveOptions present raw).2 = .ok o) :
    (∃ added, ((make g' cwd dir).resolveOptions present raw).2 = .ok (o ++ added)) ∨
      ∃ e, DefaultRefused cwd present more e ∧
        ((make g' cwd dir).resolveOptions present raw).2 = .error e := by
  have extended : (make g' cwd dir).resolveOptions present raw = _ :=
    resolveOptions_of_append h known
  have pair : (make g cwd dir).resolveOptions present raw =
      (((make g cwd dir).resolveOptions present raw).1, .ok o) := Prod.ext rfl ho
  rw [pair] at extended
  rw [extended]
  cases hmore : ((make g cwd dir).resolveEach present raw more).2 with
  | ok added => exact .inl ⟨added, rfl⟩
  | error e =>
      obtain ⟨before, spec, after, rfl, hbefore, he⟩ := (resolveEach_error_iff more e).mp hmore
      have absent {s : OptionSpec} (hs : s ∈ before ++ spec :: after) : raw.get? s.name = none :=
        get?_eq_none_of_mem_more h known hs
      refine .inr ⟨e, ⟨before, spec, after, rfl, ?_, ?_⟩, rfl⟩
      · intro s hs e' he'
        have accepted := (accepts_iff s).mpr (hbefore s hs)
        rw [Accepts, absent (List.mem_append_left _ hs), make_cwd] at accepted
        exact accepted e' he'
      · rwa [absent (by simp), make_cwd] at he

theorem resolve_of_append_cases (h : g'.specs = g.specs ++ more)
    (known : ∀ name, raw.contains name = true → g.contains name = true) {plan : BuildPlan}
    (hplan : ((make g cwd dir).resolve present raw).2 = .ok plan) :
    ((make g' cwd dir).resolve present raw).2 = .ok plan ∨
      ∃ e, DefaultRefused cwd present more e ∧
        ((make g' cwd dir).resolve present raw).2 = .error e := by
  obtain ⟨o, ho, composes⟩ := exists_composes_of_resolve hplan
  rcases resolveOptions_of_append_cases h known ho with ⟨added, ho'⟩ | ⟨e, refused, he⟩
  · left
    rw [resolve_of_resolveOptions_ok ho] at hplan
    rw [resolve_of_resolveOptions_ok ho', ← hplan]
    refine compose_congr (absolutize_make_cwd g' g cwd dir) (make_sourceDir_eq g' g cwd dir) ?_
    exact fun name hname =>
      ResolvedOptions.get?_append_of_ne_none added (composes.get?_ne_none name hname)
  · exact .inr ⟨e, refused, resolve_of_resolveOptions_error he⟩

/-- How a registry came about does not show in a plan. With the options in another order an input is
accepted or not as before, and it gives the same values, the same plan, and the same events in some
order. Where two registries agree on kind and default of the options of a plugin build, their plans
are the same if there are two. Options added at the end leave every refusal as it is, and they cost
a plan only where a default of theirs is refused. -/
theorem registries_resolve_alike (g g' : Registry) (cwd : Path) (dir : Option Path)
    (present : Path → Bool) (raw : RawInput) :
    let r := make g cwd dir
    let r' := make g' cwd dir
    (g.specs.Perm g'.specs →
      ((∃ o, (r.resolveOptions present raw).2 = .ok o) ↔
        ∃ o, (r'.resolveOptions present raw).2 = .ok o) ∧
      (∀ o o', (r.resolveOptions present raw).2 = .ok o →
        (r'.resolveOptions present raw).2 = .ok o' → ∀ name, o.get? name = o'.get? name) ∧
      (∀ plan, (r.resolve present raw).2 = .ok plan ↔ (r'.resolve present raw).2 = .ok plan) ∧
      (∀ plan, (r.resolve present raw).2 = .ok plan →
        (r.resolve present raw).1.Perm (r'.resolve present raw).1 ∧
        (r.resolve present raw).1.getLast? = (r'.resolve present raw).1.getLast?)) ∧
    ((∀ name ∈ Registry.standard.names, g.bearing name = g'.bearing name) →
      ∀ plan plan', (r.resolve present raw).2 = .ok plan →
        (r'.resolve present raw).2 = .ok plan' → plan = plan') ∧
    ∀ more, g'.specs = g.specs ++ more →
      (∀ name, raw.contains name = true → g.contains name = true) →
      (∀ events e, r.resolveOptions present raw = (events, .error e) →
        r'.resolveOptions present raw = (events, .error e)) ∧
      (∀ o, (r.resolveOptions present raw).2 = .ok o →
        (∃ added, (r'.resolveOptions present raw).2 = .ok (o ++ added)) ∨
          ∃ e, DefaultRefused cwd present more e ∧
            (r'.resolveOptions present raw).2 = .error e) ∧
      ∀ plan, (r.resolve present raw).2 = .ok plan →
        (r'.resolve present raw).2 = .ok plan ∨
          ∃ e, DefaultRefused cwd present more e ∧ (r'.resolve present raw).2 = .error e := by
  intro r r'
  refine ⟨fun h => ⟨exists_resolveOptions_ok_of_perm h, ?_, ?_, ?_⟩, ?_, ?_⟩
  · exact fun o o' ho ho' => get?_resolveOptions_of_perm h ho ho'
  · exact fun plan => ⟨resolve_ok_of_perm h, resolve_ok_of_perm h.symm⟩
  · intro plan hplan
    refine ⟨events_of_perm h hplan, ?_⟩
    rw [events_of_resolve hplan, events_of_resolve (resolve_ok_of_perm h hplan),
      List.getLast?_concat, List.getLast?_concat]
  · exact fun h plan plan' => plan_eq_of_bearing h
  · intro more h known
    refine ⟨?_, fun o => resolveOptions_of_append_cases h known,
      fun plan => resolve_of_append_cases h known⟩
    intro events e he
    have extended : (make g' cwd dir).resolveOptions present raw = _ :=
      resolveOptions_of_append h known
    rw [he] at extended
    exact extended

/-- The registry of a plugin build read backwards gives the same plan, and one with a list added
whose default is vacant gives none. -/
theorem reversed_and_extended_standard :
    let reversed : Registry := ⟨Registry.standardSpecs.reverse, by decide⟩
    let mods : OptionSpec := (OptionSpec.list "mods" "").withPreset (.text " , ")
    let extended : Registry := ⟨Registry.standardSpecs ++ [mods], by decide⟩
    let cwd := Path.ofString "/work"
    let raw : RawInput := NameMap.empty.insert "sdks" (.text "hl2, cs2")
    let plan : BuildPlan := ⟨cwd, cwd, ⟨["hl2", "cs2"]⟩, .engineDefault, none, none, none, false,
      true⟩
    let vacant : Rejection := ⟨"mods", some " , ", .emptyList ⟨" , "⟩⟩
    ((make .standard cwd none).resolve (fun _ => false) raw).2 = .ok plan ∧
      ((make reversed cwd none).resolve (fun _ => false) raw).2 = .ok plan ∧
      ((make extended cwd none).resolve (fun _ => false) raw).2 = .error vacant ∧
      DefaultRefused cwd (fun _ => false) [mods] vacant := by
  intro reversed mods extended cwd raw plan vacant
  have h : ((make .standard cwd none).resolve (fun _ => false) raw).2 = .ok plan := by rfl
  have hvacant : ((make extended cwd none).resolve (fun _ => false) raw).2 = .error vacant := by rfl
  have known : ∀ name, raw.contains name = true → Registry.standard.contains name = true := by
    have found : (make .standard cwd none).firstUnknown raw = none := by decide
    exact firstUnknown_eq_none_iff.mp found
  have reorder := registries_resolve_alike .standard reversed cwd none (fun _ => false) raw
  have extend := registries_resolve_alike .standard extended cwd none (fun _ => false) raw
  refine ⟨h, ((reorder.1 (List.reverse_perm _).symm).2.2.1 plan).mp h, hvacant, ?_⟩
  rcases (extend.2.2 [mods] rfl known).2.2 plan h with hok | ⟨e, refused, he⟩
  · rw [hvacant] at hok
    cases hok
  · rw [hvacant] at he
    cases he
    exact refused

end Resolver
end BuildFront
