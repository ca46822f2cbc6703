import BuildFront.Proofs.CommandLine.Reading
import BuildFront.Proofs.Config.Precedence
import BuildFront.Proofs.Resolver.FailFast

/-!
What a command line and the environment supply for the options of a registry, said without reading
them, and what resolving it can still complain of: a value that makes no sense, or a default that
does not suit its option, but never a name or a kind of value that the registry does not know.
-/

namespace BuildFront

open CommandLine

/-- What is supplied for an option: a flag by its switch, any other by a value on the command line
or, where there is none, by its variable. -/
inductive OptionSpec.Supplied (spec : OptionSpec) (env : NameMap String) (argv : List String) :
    RawValue → Prop where
  | switch : spec.kind = .flag → Switched argv spec.name → Supplied spec env argv .flag
  | value {text} : spec.kind ≠ .flag → Valued argv spec.name text →
      Supplied spec env argv (.text text)
  | environment {name text} : spec.kind ≠ .flag → (∀ other, ¬Valued argv spec.name other) →
      spec.env = some name → env.get? name = some text → Supplied spec env argv (.text text)

/-- What can be wrong with an option whose value is of its kind. -/
inductive OptionSpec.Questions (spec : OptionSpec) (raw : Option RawValue) : Cause → Prop where
  | vacantList {e} : spec.kind = .list → Questions spec raw (.emptyList e)
  | missingPath {path} : spec.kind = .path .eager → Questions spec raw (.pathNotFound path)
  | blankPath {check} : spec.kind = .path check →
      Questions spec raw (.kindMismatch "path" "path is empty")
  | flagDefault {s} : spec.kind = .flag → raw = none → spec.preset = .text s →
      Questions spec raw (.kindMismatch "flag" "registry default is not a boolean")
  | switchDefault {on} : spec.kind ≠ .flag → raw = none → spec.preset = .switch on →
      Questions spec raw (.kindMismatch spec.kind.label "registry default is a boolean")

namespace OptionSpec

variable (spec : OptionSpec)

@[simp] theorem argument_name : spec.argument.name = spec.name := by
  cases h : spec.kind <;> simp [argument, h]

theorem argument_short : spec.argument.action.short = none := by
  cases h : spec.kind <;> simp [argument, h, Action.short]

theorem argument_takesValue : spec.argument.takesValue = true ↔ spec.kind ≠ .flag := by
  cases h : spec.kind <;> simp [argument, h, Argument.takesValue]

theorem argument_env : spec.argument.env = if spec.kind = .flag then none else spec.env := by
  cases h : spec.kind <;> simp [argument, h]

end OptionSpec

theorem RawInput.ofGiven?_eq_some_iff {spec : OptionSpec} {x : Option Given} {v : RawValue} :
    ofGiven? spec x = some v ↔
      (spec.kind = .flag ∧ x = some .on ∧ v = .flag) ∨
      (spec.kind ≠ .flag ∧
        ∃ text, (x = some (.value text) ∨ x = some (.fromEnvironment text)) ∧ v = .text text) := by
  have isFlag : spec.isFlag = true ↔ spec.kind = .flag := beq_iff_eq
  rcases x with _ | _ | text | text <;> grind [ofGiven?]

/-- A value supplied for an option is of its kind, and no rule refuses it for another. -/
theorem Refuses.questions {cwd : Path} {present : Path → Bool} {spec : OptionSpec}
    {raw : Option RawValue} {env : NameMap String} {argv : List String} {e : Rejection}
    (h : Refuses cwd present spec raw e)
    (supplied : ∀ v, raw = some v → spec.Supplied env argv v) : spec.Questions raw e.cause := by
  cases h with
  | flagText hk hr =>
      cases supplied _ hr with
      | value h _ | environment h _ _ _ => exact absurd hk h
  | bareList hk hr | barePath hk hr =>
      cases supplied _ hr with
      | switch h _ => cases hk.symm.trans h
  | flagDefault hk hr hp => exact .flagDefault hk hr hp
  | switchDefault hk hr hp => exact .switchDefault hk hr hp
  | vacantList hk _ _ => exact .vacantList hk
  | blankPath hk _ _ => exact .blankPath hk
  | missingPath hk _ _ _ => exact .missingPath hk

namespace CommandLine

variable {parse : List Argument → NameMap String → List String → Except Refusal Matches}
  {g : Registry} {before after : List Argument} {spec : OptionSpec} {env : NameMap String}
  {argv : List String} {m : Matches}

/-- An option has its argument to itself where the other arguments leave its name alone. -/
theorem sole_argument (others : ∀ a ∈ before ++ after, a.name ∉ g.names) (hspec : spec ∈ g.specs) :
    Sole (before ++ g.arguments ++ after) spec.argument where
  mem := by
    rw [List.mem_append, List.mem_append]
    exact .inl (.inr (List.mem_map_of_mem hspec))
  only := by
    intro b hb heq
    rw [OptionSpec.argument_name] at heq
    have named : b.name ∈ g.names := heq ▸ List.mem_map_of_mem hspec
    simp only [List.mem_append] at hb others
    rcases hb with (hb | hb) | hb
    · exact absurd named (others b (.inl hb))
    · obtain ⟨spec', hspec', rfl⟩ := List.mem_map.mp hb
      rw [OptionSpec.argument_name] at heq
      rw [List.inj_on_of_nodup_map g.distinct hspec' hspec heq]
    · exact absurd named (others b (.inr hb))
  long := spec.argument_short

theorem contains_ofMatches {name : String} (h : (RawInput.ofMatches g m).contains name = true) :
    g.contains name = true := by
  obtain ⟨v, hv⟩ := (NameMap.contains_eq_true_iff _ name).mp h
  rw [RawInput.get?_ofMatches] at hv
  obtain ⟨spec, hspec, -⟩ := Option.bind_eq_some_iff.mp hv
  rw [Registry.contains_eq_true_iff]
  exact ⟨spec, (g.get?_eq_some_iff name spec).mp hspec⟩

theorem gives_argument_of_flag (hk : spec.kind = .flag) {x : Given} :
    Gives spec.argument argv x ↔ x = .on ∧ Switched argv spec.name := by
  have takes := spec.argument_takesValue
  cases x <;> simp_all [Gives]

theorem gives_argument_of_value (hk : spec.kind ≠ .flag) {x : Given} :
    Gives spec.argument argv x ↔ ∃ text, x = .value text ∧ Valued argv spec.name text := by
  have takes := spec.argument_takesValue
  cases x <;> simp_all [Gives]

theorem get?_ofMatches_eq_some_iff (hparse : Faithful parse)
    (others : ∀ a ∈ before ++ after, a.name ∉ g.names)
    (hread : parse (before ++ g.arguments ++ after) env argv = .ok m) (hspec : spec ∈ g.specs)
    (v : RawValue) :
    (RawInput.ofMatches g m).get? spec.name = some v ↔ spec.Supplied env argv v := by
  have found := (g.get?_eq_some_iff spec.name spec).mpr ⟨hspec, rfl⟩
  have given := hparse _ _ (sole_argument others hspec) env argv m hread
  rw [OptionSpec.argument_name, OptionSpec.argument_env] at given
  rw [RawInput.get?_ofMatches, found, Option.bind_some, RawInput.ofGiven?_eq_some_iff]
  by_cases hk : spec.kind = .flag
  · have on : m.get? spec.name = some .on ↔ Switched argv spec.name := by
      simp [given, gives_argument_of_flag hk]
    constructor
    · rintro (⟨-, h, rfl⟩ | ⟨h, -⟩)
      · exact .switch hk (on.mp h)
      · exact absurd hk h
    · intro h
      cases h with
      | switch _ h => exact .inl ⟨hk, on.mpr h, rfl⟩
      | value h _ | environment h _ _ _ => exact absurd hk h
  · have value (text : String) :
        m.get? spec.name = some (.value text) ↔ Valued argv spec.name text := by
      simp [given, gives_argument_of_value hk]
    have fallback (text : String) : m.get? spec.name = some (.fromEnvironment text) ↔
        (∀ other, ¬Valued argv spec.name other) ∧
          ∃ name, spec.env = some name ∧ env.get? name = some text := by
      have nothing : (∀ x, ¬Gives spec.argument argv x) ↔
          ∀ other, ¬Valued argv spec.name other := by
        simp only [gives_argument_of_value hk, not_exists, not_and]
        exact ⟨fun h other => h _ other rfl, fun h _ other _ => h other⟩
      rw [given, nothing]
      simp [gives_argument_of_value hk, hk, Option.bind_eq_some_iff]
    constructor
    · rintro (⟨h, -⟩ | ⟨-, text, h | h, rfl⟩)
      · exact absurd h hk
      · exact .value hk ((value text).mp h)
      · obtain ⟨nothing, name, hname, h⟩ := (fallback text).mp h
        exact .environment hk nothing hname h
    · intro h
      cases h with
      | switch h _ => exact absurd h hk
      | value _ h => exact .inr ⟨hk, _, .inl ((value _).mpr h), rfl⟩
      | environment _ nothing hname h =>
          exact .inr ⟨hk, _, .inr ((fallback _).mpr ⟨nothing, _, hname, h⟩), rfl⟩

end CommandLine

namespace Resolver

/-- A command line read faithfully with the arguments of a registry supplies values for registered
options only, each of the kind that the option takes and just as it was written; defaults have no
part in it. So what is still refused is refused for what the value says, or for its default. -/
theorem command_line_is_understood :
    Faithful read ∧
    ∀ parse, Faithful parse → ∀ (g : Registry) (before after : List Argument),
      (∀ a ∈ before ++ after, a.name ∉ g.names) →
      ∀ env argv m, parse (before ++ g.arguments ++ after) env argv = .ok m →
      let raw := RawInput.ofMatches g m
      (∀ name, raw.contains name = true → g.contains name = true) ∧
      (∀ spec ∈ g.specs, ∀ v, raw.get? spec.name = some v ↔ spec.Supplied env argv v) ∧
      ∀ (cwd : Path) (sourceDir : Option Path) (present : Path → Bool) (e : Rejection),
        ((Resolver.mk g cwd sourceDir).resolveOptions present raw).2 = .error e →
        ∃ spec ∈ g.specs, Refuses cwd present spec (raw.get? spec.name) e ∧
          spec.Questions (raw.get? spec.name) e.cause := by
  refine ⟨faithful_read, fun parse hparse g before after others env argv m hread => ?_⟩
  intro raw
  have registered : ∀ name, raw.contains name = true → g.contains name = true :=
    fun name => contains_ofMatches
  have supplied : ∀ spec ∈ g.specs, ∀ v, raw.get? spec.name = some v ↔ spec.Supplied env argv v :=
    fun spec hspec => get?_ofMatches_eq_some_iff hparse others hread hspec
  refine ⟨registered, supplied, fun cwd sourceDir present e h => ?_⟩
  cases (resolveOptions_error_iff_rejected e).mp h with
  | @unknown name v hv unknown _ =>
      have known := registered name ((NameMap.contains_eq_true_iff raw name).mpr ⟨v, hv⟩)
      rw [known] at unknown
      cases unknown
  | @refused _ spec _ _ _ hsplit _ refused =>
      have hspec : spec ∈ g.specs := hsplit ▸ List.mem_append_cons_self
      exact ⟨spec, hspec, refused, refused.questions fun v hv => (supplied spec hspec v).mp hv⟩

/-- A blank value from a variable is taken as it is and refused as a list, with the default at hand;
the variable of a flag is left alone. -/
theorem blank_variable_is_taken :
    let trace : OptionSpec := (OptionSpec.flag "trace" false "").withEnv "TRACE"
    let sdks := ((OptionSpec.list "sdks" "").withEnv "SDKS").withPreset (.text "cs2")
    let root : OptionSpec := OptionSpec.path "root" .eager ""
    let g : Registry := ⟨[root, trace, sdks], by decide⟩
    let env := (NameMap.empty.insert "TRACE" "1").insert "SDKS" " "
    let argv := ["--root", "vendor"]
    let m : Matches :=
      (NameMap.empty.insert "root" (.value "vendor")).insert "sdks" (.fromEnvironment " ")
    let raw := RawInput.ofMatches g m
    let refusal : Rejection := ⟨"sdks", some " ", .emptyList ⟨" "⟩⟩
    (∀ a ∈ [Argument.helpRequest], a.name ∉ g.names) ∧
      read (g.arguments ++ [Argument.helpRequest]) env argv = .ok m ∧
      raw.get? "trace" = none ∧ raw.get? "root" = some (.text "vendor") ∧
      sdks.Supplied env argv (.text " ") ∧
      ((new g (.ofString "/work")).resolveOptions (fun _ => true) raw).2 = .error refusal ∧
      sdks.Questions (some (.text " ")) refusal.cause := by
  intro trace sdks root g env argv m raw refusal
  have others : ∀ a ∈ [Argument.helpRequest], a.name ∉ g.names := by decide
  have hread : read (g.arguments ++ [Argument.helpRequest]) env argv = .ok m := by rfl
  obtain ⟨faithful, understood⟩ := command_line_is_understood
  obtain ⟨-, supplied, rest⟩ :=
    understood read faithful g [] [Argument.helpRequest] others env argv m hread
  have refused : ((new g (.ofString "/work")).resolveOptions (fun _ => true) raw).2 =
      .error refusal := by decide
  have registered : sdks ∈ g.specs := by decide
  have blank : raw.get? sdks.name = some (.text " ") := by decide
  obtain ⟨spec, hspec, he, questions⟩ :=
    rest (.ofString "/work") none (fun _ => true) refusal refused
  have named : spec.name = sdks.name := he.option_eq.symm
  obtain rfl := List.inj_on_of_nodup_map g.distinct hspec registered named
  exact ⟨others, hread, by decide, by decide, (supplied sdks registered _).mp blank, refused,
    blank ▸ questions⟩

end Resolver
end BuildFront
