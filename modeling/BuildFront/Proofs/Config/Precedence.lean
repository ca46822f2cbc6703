import BuildFront.Application
import BuildFront.Proofs.Resolver.Order

/-!
Which layer an option gets its value from. The command line and the environment stand over the
project's configuration, that over the user's, and the option's default below them all; the
uppermost layer that mentions an option decides, also where it switches the option off.
-/

namespace BuildFront

/-- The value that a configuration gives an option. Switching off leaves it at its default. -/
def OptionSpec.configured (spec : OptionSpec) : ConfigValue → Preset
  | .switch true => .switch true
  | .switch false => spec.preset
  | .text s => .text s
  | .list items => .text (",".intercalate items)

/-- The value of an option in layers, the uppermost that mentions the option deciding. -/
def OptionSpec.layered (spec : OptionSpec) (given : RawInput) (user project : Config) : Preset :=
  match given.get? spec.name, project.options.get? spec.name, user.options.get? spec.name with
  | some (.text s), _, _ => .text s
  | some .flag, _, _ => .switch true
  | none, some c, _ => spec.configured c
  | none, none, some c => spec.configured c
  | none, none, none => spec.preset

namespace RawInput

theorem get?_ofMatches (g : Registry) (m : CommandLine.Matches) (name : String) :
    (ofMatches g m).get? name =
      (g.get? name).bind (fun spec => ofGiven? spec (m.get? spec.name)) := by
  rw [ofMatches, NameMap.get?_foldl_of_step _ g.specs g.distinct, NameMap.get?_empty,
    Option.or_none, Registry.get?]
  intro acc spec other
  split <;> simp [*]

end RawInput

namespace Config

theorem get?_toRawInput (c : Config) (name : String) :
    c.toRawInput.get? name = (c.options.get? name).bind rawValue? := by
  have answer : c.options.get? name = (c.options.entries.find? (fun e => e.1 == name)).map (·.2) :=
    NameMap.lookup_eq_find? name c.options.entries
  rw [answer, toRawInput, NameMap.get?_foldl_of_step _ c.options.entries c.options.nodup_names,
    NameMap.get?_empty, Option.or_none, Option.bind_map]
  intro acc e other
  split <;> simp [*]

theorem get?_merge (lower upper : Config) (name : String) :
    (lower.merge upper).options.get? name =
      (upper.options.get? name).or (lower.options.get? name) :=
  NameMap.get?_override lower.options upper.options name

theorem value_rawValue? (spec : OptionSpec) (c : ConfigValue) :
    spec.value (rawValue? c) = spec.configured c := by
  cases c with
  | switch on => cases on <;> rfl
  | text s => rfl
  | list items => rfl

end Config

namespace Application

open CommandLine

theorem get?_rawInput (g : Registry) (m : Matches) (user project : Config) (name : String) :
    (rawInput g m ((Config.empty.merge user).merge project)).get? name =
      ((RawInput.ofMatches g m).get? name).or
        (((project.options.get? name).or (user.options.get? name)).bind Config.rawValue?) := by
  rw [rawInput, NameMap.get?_fillFrom, Config.get?_toRawInput, Config.get?_merge, Config.get?_merge]
  simp [Config.empty]

theorem value_rawInput (g : Registry) (m : Matches) (user project : Config) (spec : OptionSpec) :
    spec.value ((rawInput g m ((Config.empty.merge user).merge project)).get? spec.name) =
      spec.layered (RawInput.ofMatches g m) user project := by
  rw [get?_rawInput, OptionSpec.layered]
  cases (RawInput.ofMatches g m).get? spec.name with
  | some v => cases v <;> rfl
  | none =>
      cases project.options.get? spec.name with
      | some c => exact Config.value_rawValue? spec c
      | none =>
          cases user.options.get? spec.name with
          | some c => exact Config.value_rawValue? spec c
          | none => rfl

end Application

namespace Resolver

open CommandLine

/-- Every registered option goes by the value of its uppermost layer: that is what a successful
resolution answers for it, and where it makes no sense resolution fails. A list left without
identifiers by its uppermost layer is reported as such, unless an unknown name or an option
registered earlier is reported first; no lower layer stands in for it. -/
theorem uppermost_layer_decides (r : Resolver) (present : Path → Bool) (m : Matches)
    (user project : Config) (spec : OptionSpec) (hspec : spec ∈ r.registry.specs) :
    let given := RawInput.ofMatches r.registry m
    let raw := Application.rawInput r.registry m ((Config.empty.merge user).merge project)
    let value := spec.layered given user project
    spec.value (raw.get? spec.name) = value ∧
    (∀ o, (r.resolveOptions present raw).2 = .ok o →
      spec.kind.meaning? r.cwd present value ≠ none ∧
      o.get? spec.name = spec.kind.meaning? r.cwd present value) ∧
    (spec.kind.meaning? r.cwd present value = none →
      ∃ e, (r.resolve present raw).2 = .error e) ∧
    ∀ s, spec.kind = .list → value = .text s → IdList.Vacant s →
      (∃ e, (r.resolve present raw).2 = .error e) ∧
      ∀ before after, r.registry.specs = before ++ spec :: after →
        (∀ name, raw.contains name = true → r.registry.contains name = true) →
        (∀ other ∈ before, r.meaningOf? present raw other ≠ none) →
        (r.resolve present raw).2 = .error ⟨spec.name, some s, .emptyList ⟨s⟩⟩ := by
  intro given raw value
  have hvalue : spec.value (raw.get? spec.name) = value :=
    Application.value_rawInput r.registry m user project spec
  have hmeaning : r.meaningOf? present raw spec = spec.kind.meaning? r.cwd present value := by
    rw [meaningOf?, hvalue]
  refine ⟨hvalue, ?_, ?_, ?_⟩
  · intro o ho
    have accepted := (exists_resolveOptions_ok_iff.mp ⟨o, ho⟩).2 spec hspec
    exact ⟨hmeaning ▸ accepted, (resolveOptions_get?_of_mem hspec ho).trans hmeaning⟩
  · intro h
    exact resolve_error_of_meaningless hspec (hmeaning.trans h)
  · intro s hk hs hvacant
    have refused : Refuses r.cwd present spec (raw.get? spec.name)
        ⟨spec.name, some s, .emptyList ⟨s⟩⟩ := .vacantList hk (hvalue.trans hs) hvacant
    refine ⟨?_, ?_⟩
    · exact resolve_error_of_meaningless hspec (meaning?_eq_none_iff.mpr ⟨_, refused⟩)
    · intro before after hsplit known hbefore
      exact resolve_of_first_refusal known hsplit hbefore refused

/-- A variable stands over the project's configuration. An empty array there is refused, though the
user's configuration and the default have a list to offer. -/
theorem empty_array_hides_lower_layers :
    let m : Matches := NameMap.empty.insert "targets" (.fromEnvironment "x86_64")
    let user : Config := ⟨NameMap.empty.insert "sdks" (.text "hl2"), .empty⟩
    let project : Config :=
      ⟨(NameMap.empty.insert "sdks" (.list [])).insert "targets" (.list ["x86"]), .empty⟩
    let given := RawInput.ofMatches .standard m
    let raw := Application.rawInput .standard m ((Config.empty.merge user).merge project)
    let sdks : OptionSpec := Registry.standardSpecs[3]
    let targets : OptionSpec := Registry.standardSpecs[4]
    sdks ∈ Registry.standard.specs ∧ sdks.layered given user project = .text "" ∧
      targets ∈ Registry.standard.specs ∧
      targets.value (raw.get? targets.name) = .text "x86_64" ∧
      ((new .standard (.ofString "/work")).resolve (fun _ => true) raw).2 =
        .error ⟨"sdks", some "", .emptyList ⟨""⟩⟩ := by
  intro m user project given raw sdks targets
  let r := new .standard (.ofString "/work")
  have registered : sdks ∈ Registry.standard.specs := by decide
  have registered' : targets ∈ Registry.standard.specs := by decide
  have value : sdks.layered given user project = .text "" := by decide
  have known : r.firstUnknown raw = none := by decide
  have decided := uppermost_layer_decides r (fun _ => true) m user project sdks registered
  have decided' := uppermost_layer_decides r (fun _ => true) m user project targets registered'
  have above : targets.layered given user project = .text "x86_64" := by decide
  refine ⟨registered, value, registered', decided'.1.trans above, ?_⟩
  exact (decided.2.2.2 "" rfl value (by simp [IdList.Vacant])).2 (Registry.standardSpecs.take 3)
    (Registry.standardSpecs.drop 4) rfl (firstUnknown_eq_none_iff.mp known) (by decide)

end Resolver
end BuildFront
