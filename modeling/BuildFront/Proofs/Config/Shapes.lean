import BuildFront.Proofs.Config.Layering
import BuildFront.Proofs.Resolver.Standard

/-!
The entries of a configuration against the options they are for. An entry counts unless it is
switched off; resolution takes it only under a registered name and in a shape that its option is
read from, and says of any other what is wrong with it.
-/

namespace BuildFront

/-- A value as it is written for an option of a kind: `true` for a flag, an array for a list, a text
for a list or a path. -/
def ConfigValue.WrittenFor : ConfigValue → OptionKind → Prop
  | .switch on, kind => on = true ∧ kind = .flag
  | .text _, kind => kind ≠ .flag
  | .list _, kind => kind = .list

/-- A value that an option of a kind is read from: its own, or an array for a path. -/
def ConfigValue.TakenFor (v : ConfigValue) (kind : OptionKind) : Prop :=
  v.WrittenFor kind ∨ ∃ items check, v = .list items ∧ kind = .path check

/-- What is asked for where a value has the wrong shape. -/
def OptionKind.wanted : OptionKind → String
  | .flag => "flags take no value; pass the switch to enable it"
  | .list => "a comma-separated value is required"
  | .path _ => "a path is required"

def OptionSpec.misshapen (spec : OptionSpec) (shown : Option String) : Rejection :=
  ⟨spec.name, shown, .kindMismatch spec.kind.label spec.kind.wanted⟩

namespace Config

def shownText? (v : ConfigValue) : Option String :=
  (rawValue? v).bind RawValue.text?

/-- An entry that is not switched off. -/
def Supplies (c : Config) (name : String) (v : ConfigValue) : Prop :=
  c.options.get? name = some v ∧ v ≠ .switch false

/-- Every entry belongs to a registered option, and those not switched off are written as it is. -/
def WrittenFor (c : Config) (g : Registry) : Prop :=
  ∀ name v, c.options.get? name = some v →
    ∃ spec ∈ g.specs, spec.name = name ∧ (v ≠ .switch false → v.WrittenFor spec.kind)

/-- Every entry that is not switched off belongs to a registered option that is read from it. -/
def TakenFor (c : Config) (g : Registry) : Prop :=
  ∀ name v, c.Supplies name v → ∃ spec ∈ g.specs, spec.name = name ∧ v.TakenFor spec.kind

variable {c : Config} {name : String} {v : ConfigValue}

theorem Supplies.exists_raw (h : c.Supplies name v) :
    ∃ w, rawValue? v = some w ∧ c.toRawInput.get? name = some w := by
  obtain ⟨w, hw⟩ := Option.ne_none_iff_exists'.mp (mt (rawValue?_eq_none_iff v).mp h.2)
  exact ⟨w, hw, by rw [get?_toRawInput, h.1, Option.bind_some, hw]⟩

theorem get?_toRawInput_eq_some_iff (c : Config) (name : String) (w : RawValue) :
    c.toRawInput.get? name = some w ↔ ∃ v, c.Supplies name v ∧ rawValue? v = some w := by
  rw [get?_toRawInput, Option.bind_eq_some_iff]
  constructor
  · rintro ⟨v, hv, hw⟩
    refine ⟨v, ⟨hv, ?_⟩, hw⟩
    rintro rfl
    cases hw
  · rintro ⟨v, hv, hw⟩
    exact ⟨v, hv.1, hw⟩

/-- All that raw input keeps of a value's shape is whether it is a flag's. -/
theorem takenFor_iff_of_rawValue? {w : RawValue} (hw : rawValue? v = some w) (kind : OptionKind) :
    v.TakenFor kind ↔ (w = .flag ↔ kind = .flag) := by
  cases v with
  | switch on =>
      cases on with
      | false => cases hw
      | true =>
          cases hw
          simp [ConfigValue.TakenFor, ConfigValue.WrittenFor]
  | text s =>
      cases hw
      simp [ConfigValue.TakenFor, ConfigValue.WrittenFor]
  | list items =>
      cases hw
      cases kind <;> simp [ConfigValue.TakenFor, ConfigValue.WrittenFor]

end Config

namespace Resolver

open Config

variable {g : Registry} {cwd : Path} {dir : Option Path} {present : Path → Bool} {c : Config}

/-- Values are refused for their shape where a flag is given to an option that takes a value, or a
value to a flag. -/
theorem refuses_misshapen_iff {spec : OptionSpec} {w : RawValue} :
    Refuses cwd present spec (some w) (spec.misshapen w.text?) ↔
      ¬(w = .flag ↔ spec.kind = .flag) := by
  constructor
  · intro h suits
    generalize he : spec.misshapen w.text? = e at h
    cases h with
    | flagText hk hr =>
        cases hr
        simp [hk] at suits
    | bareList hk hr | barePath hk hr =>
        cases hr
        simp [hk] at suits
    | flagDefault _ hr _ | switchDefault _ hr _ => cases hr
    | vacantList | missingPath => simp [OptionSpec.misshapen] at he
    | blankPath hk => simp [OptionSpec.misshapen, hk, OptionKind.wanted] at he
  · intro h
    rw [OptionSpec.misshapen]
    cases w with
    | flag =>
        cases hk : spec.kind with
        | flag => simp [hk] at h
        | list => exact .bareList hk rfl
        | path check => exact .barePath hk rfl
    | text s =>
        have hk : spec.kind = .flag := by simpa using h
        rw [hk]
        exact .flagText hk rfl

theorem refuses_entry_iff {spec : OptionSpec} {v : ConfigValue} (hv : c.Supplies spec.name v) :
    Refuses cwd present spec (c.toRawInput.get? spec.name) (spec.misshapen (shownText? v)) ↔
      ¬v.TakenFor spec.kind := by
  obtain ⟨w, hw, hraw⟩ := hv.exists_raw
  rw [hraw, shownText?, hw, Option.bind_some, refuses_misshapen_iff, takenFor_iff_of_rawValue? hw]

theorem takenFor_of_resolveOptions {o : ResolvedOptions}
    (h : ((make g cwd dir).resolveOptions present c.toRawInput).2 = .ok o) : c.TakenFor g := by
  obtain ⟨known, accepted⟩ := exists_resolveOptions_ok_iff.mp ⟨o, h⟩
  rw [make_registry] at known accepted
  intro name v hv
  have registered := known name ((contains_toRawInput_iff c name).mpr ⟨v, hv⟩)
  obtain ⟨spec, hspec, rfl⟩ := (g.contains_eq_true_iff name).mp registered
  refine ⟨spec, hspec, rfl, ?_⟩
  by_contra hshape
  exact accepted spec hspec (meaning?_eq_none_iff.mpr ⟨_, (refuses_entry_iff hv).mpr hshape⟩)

/-- What an entry is resolved to: a switched off one to the default, an array to what its items,
joined, mean for the option. -/
theorem get?_resolveOptions_of_entry {o : ResolvedOptions} {spec : OptionSpec} {v : ConfigValue}
    (h : ((make g cwd dir).resolveOptions present c.toRawInput).2 = .ok o) (hspec : spec ∈ g.specs)
    (hv : c.options.get? spec.name = some v) :
    ∃ value, o.get? spec.name = some value ∧
      spec.kind.meaning? cwd present (spec.configured v) = some value := by
  have registered : spec ∈ (make g cwd dir).registry.specs := by rwa [make_registry]
  obtain ⟨value, hvalue, hmeaning⟩ := exists_get?_of_mem registered h
  refine ⟨value, hvalue, ?_⟩
  rwa [meaningOf?, make_cwd, get?_toRawInput, hv, Option.bind_some, value_rawValue?] at hmeaning

theorem firstUnknown_toRawInput_eq_some_iff (e : Rejection) :
    (make g cwd dir).firstUnknown c.toRawInput = some e ↔
      ∃ name v, c.Supplies name v ∧ g.contains name = false ∧
        (∀ other u, c.Supplies other u → g.contains other = false → name ≤ other) ∧
        e = ⟨name, shownText? v, .unknownOption⟩ := by
  rw [firstUnknown_eq_some_iff, make_registry]
  simp only [get?_toRawInput_eq_some_iff, contains_toRawInput_iff, forall_exists_index]
  constructor
  · rintro ⟨name, w, ⟨v, hv, hw⟩, hname, hleast, rfl⟩
    exact ⟨name, v, hv, hname, hleast, by rw [shownText?, hw, Option.bind_some]⟩
  · rintro ⟨name, v, hv, hname, hleast, rfl⟩
    obtain ⟨w, hw, -⟩ := hv.exists_raw
    exact ⟨name, w, ⟨v, hv, hw⟩, hname, hleast, by rw [shownText?, hw, Option.bind_some]⟩

/-- Where an option is refused, resolution fails: with an unknown name, with the refusal of an
option registered earlier, or with this one. -/
theorem resolve_of_refused {r : Resolver} {raw : RawInput} {before after : List OptionSpec}
    {spec : OptionSpec} {e : Rejection} (hsplit : r.registry.specs = before ++ spec :: after)
    (he : Refuses r.cwd present spec (raw.get? spec.name) e) :
    ∃ reported, (r.resolve present raw).2 = .error reported ∧
      (r.firstUnknown raw = some reported ∨
        (∃ other ∈ before, Refuses r.cwd present other (raw.get? other.name) reported) ∨
        reported = e) := by
  cases hf : r.firstUnknown raw with
  | some stray =>
      refine ⟨stray, resolve_of_resolveOptions_error ?_, .inl rfl⟩
      rw [resolveOptions_of_unknown hf]
  | none =>
      have known := firstUnknown_eq_none_iff.mp hf
      -- the options up to `spec` are looked at in order, so an earlier refusal comes first
      cases hfound : before.find? (fun s => (r.meaningOf? present raw s).isNone) with
      | none =>
          have accepted : ∀ s ∈ before, r.meaningOf? present raw s ≠ none := by
            simpa using hfound
          exact ⟨e, resolve_of_first_refusal known hsplit accepted he, .inr (.inr rfl)⟩
      | some other =>
          obtain ⟨refused, front, back, rfl, accepted⟩ := List.find?_eq_some_iff_append.mp hfound
          have meaningless := Option.isNone_iff_eq_none.mp refused
          obtain ⟨earlier, hearlier⟩ := meaning?_eq_none_iff.mp meaningless
          have hfront : r.registry.specs = front ++ other :: (back ++ spec :: after) := by
            rw [hsplit, List.append_assoc, List.cons_append]
          refine ⟨earlier, ?_, .inr (.inl ⟨other, by simp, hearlier⟩)⟩
          refine resolve_of_first_refusal known hfront (fun s hs => ?_) hearlier
          simpa [Option.isSome_iff_ne_none] using accepted s hs

/-- An unknown name among the entries is reported before anything else, the least first. -/
theorem resolve_of_stray {name : String} {v : ConfigValue} (hv : c.Supplies name v)
    (hname : g.contains name = false) :
    ∃ stray u, c.Supplies stray u ∧ g.contains stray = false ∧
      (∀ other u', c.Supplies other u' → g.contains other = false → stray ≤ other) ∧
      ((make g cwd dir).resolve present c.toRawInput).2 =
        .error ⟨stray, shownText? u, .unknownOption⟩ := by
  cases hf : (make g cwd dir).firstUnknown c.toRawInput with
  | none =>
      have supplied := (contains_toRawInput_iff c name).mpr ⟨v, hv⟩
      have registered := firstUnknown_eq_none_iff.mp hf name supplied
      rw [make_registry, hname] at registered
      cases registered
  | some e =>
      obtain ⟨stray, u, hu, hstray, hleast, rfl⟩ := (firstUnknown_toRawInput_eq_some_iff e).mp hf
      refine ⟨stray, u, hu, hstray, hleast, resolve_of_resolveOptions_error ?_⟩
      rw [resolveOptions_of_unknown hf]

theorem resolve_of_misshapen {before after : List OptionSpec} {spec : OptionSpec} {v : ConfigValue}
    (hsplit : g.specs = before ++ spec :: after) (hv : c.Supplies spec.name v)
    (hshape : ¬v.TakenFor spec.kind) :
    ∃ e, ((make g cwd dir).resolve present c.toRawInput).2 = .error e ∧
      ((∃ u, c.Supplies e.option u ∧ g.contains e.option = false ∧ e.cause = .unknownOption) ∨
        (∃ other ∈ before, Refuses cwd present other (c.toRawInput.get? other.name) e) ∨
        e = spec.misshapen (shownText? v)) := by
  have refused : Refuses (make g cwd dir).cwd present spec (c.toRawInput.get? spec.name)
      (spec.misshapen (shownText? v)) := (refuses_entry_iff hv).mpr hshape
  obtain ⟨e, he, hcause⟩ := resolve_of_refused (by rwa [make_registry]) refused
  rw [make_cwd] at hcause
  refine ⟨e, he, hcause.imp_left fun hf => ?_⟩
  obtain ⟨name, u, hu, hname, -, rfl⟩ := (firstUnknown_toRawInput_eq_some_iff e).mp hf
  exact ⟨u, hu, hname, rfl⟩

/-- An entry that is not switched off is taken under a registered name and in a shape that its
option is read from, or resolution fails. With an unknown name it fails for the least of them; with a
wrong shape it says that the option asks for another, unless an unknown name or an option registered
earlier is reported first. An entry is refused for its shape in no other case. A resolved option has
the value that its entry configures: the default where it is switched off, and for an array what its
items, joined by commas, mean. -/
theorem entries_keep_to_their_options (g : Registry) (cwd : Path) (dir : Option Path)
    (present : Path → Bool) (c : Config) :
    let r := make g cwd dir
    let raw := c.toRawInput
    (∀ plan, (r.resolve present raw).2 = .ok plan → c.TakenFor g) ∧
    (∀ o, (r.resolveOptions present raw).2 = .ok o → c.TakenFor g ∧
      ∀ spec ∈ g.specs, ∀ v, c.options.get? spec.name = some v → ∃ value,
        o.get? spec.name = some value ∧
        spec.kind.meaning? cwd present (spec.configured v) = some value) ∧
    (∀ name v, c.Supplies name v → g.contains name = false →
      ∃ stray u, c.Supplies stray u ∧ g.contains stray = false ∧
        (∀ other u', c.Supplies other u' → g.contains other = false → stray ≤ other) ∧
        (r.resolve present raw).2 = .error ⟨stray, shownText? u, .unknownOption⟩) ∧
    (∀ before spec after v, g.specs = before ++ spec :: after → c.Supplies spec.name v →
      ¬v.TakenFor spec.kind → ∃ e, (r.resolve present raw).2 = .error e ∧
        ((∃ u, c.Supplies e.option u ∧ g.contains e.option = false ∧ e.cause = .unknownOption) ∨
          (∃ other ∈ before, Refuses cwd present other (raw.get? other.name) e) ∨
          e = spec.misshapen (shownText? v))) ∧
    ∀ spec v, c.Supplies spec.name v →
      (r.resolveOne present spec (raw.get? spec.name) = .error (spec.misshapen (shownText? v)) ↔
        ¬v.TakenFor spec.kind) := by
  intro r raw
  refine ⟨?_, ?_, fun name v => resolve_of_stray,
    fun before spec after v => resolve_of_misshapen, ?_⟩
  · intro plan hplan
    obtain ⟨o, ho, -⟩ := exists_composes_of_resolve hplan
    exact takenFor_of_resolveOptions ho
  · intro o ho
    refine ⟨takenFor_of_resolveOptions ho, fun spec hspec v hv => ?_⟩
    exact get?_resolveOptions_of_entry ho hspec hv
  · intro spec v hv
    rw [resolveOne_error_iff]
    exact refuses_entry_iff hv

/-- An array for a flag is refused as the text of its items, whatever is switched off beside it. -/
theorem array_for_a_flag_is_refused :
    let spec := Registry.standardSpecs[5]
    let c : Config :=
      ⟨(NameMap.empty.insert "sdks" (.switch false)).insert "enable-debug" (.list ["on", "off"]),
        .empty⟩
    c.Supplies "enable-debug" (.list ["on", "off"]) ∧
      ¬(ConfigValue.list ["on", "off"]).TakenFor spec.kind ∧
      ((make .standard (.ofString "/work") none).resolve (fun _ => true) c.toRawInput).2 =
        .error ⟨"enable-debug", some "on,off",
          .kindMismatch "flag" "flags take no value; pass the switch to enable it"⟩ := by
  intro spec c
  have supplied : c.Supplies "enable-debug" (.list ["on", "off"]) := ⟨rfl, by simp⟩
  have shape : ¬(ConfigValue.list ["on", "off"]).TakenFor spec.kind := by
    simp [spec, ConfigValue.TakenFor, ConfigValue.WrittenFor, Registry.standardSpecs,
      OptionSpec.flag]
  have known : (make .standard (.ofString "/work") none).firstUnknown c.toRawInput = none := by
    decide
  have accepted : ∀ other ∈ Registry.standardSpecs.take 5,
      (make .standard (.ofString "/work") none).meaningOf? (fun _ => true) c.toRawInput other ≠
        none := by decide
  refine ⟨supplied, shape, ?_⟩
  obtain ⟨-, -, -, misshapen, -⟩ :=
    entries_keep_to_their_options .standard (.ofString "/work") none (fun _ => true) c
  obtain ⟨e, he, ⟨u, hu, hstray, -⟩ | ⟨other, hother, refused⟩ | rfl⟩ :=
    misshapen (Registry.standardSpecs.take 5) spec (Registry.standardSpecs.drop 6) _ rfl supplied
      shape
  · have named := firstUnknown_eq_none_iff.mp known e.option
      ((contains_toRawInput_iff c e.option).mpr ⟨u, hu⟩)
    exact absurd named (Bool.eq_false_iff.mp hstray)
  · exact absurd (meaning?_eq_none_iff.mpr ⟨e, refused⟩) (accepted other hother)
  · exact he

/-- A switched off entry of no registered name is passed over, and an array is taken as the path
that its items name, joined. -/
theorem stray_switch_and_array_path_are_accepted :
    let r := make .standard (.ofString "/work") none
    let stray : Config := ⟨NameMap.empty.insert "bogus" (.switch false), .empty⟩
    let joined : Config := ⟨NameMap.empty.insert "mms-path" (.list ["a", "b"]), .empty⟩
    (∃ plan, (r.resolve (fun _ => true) stray.toRawInput).2 = .ok plan) ∧
      ¬stray.WrittenFor .standard ∧
      (∃ plan, (r.resolve (fun _ => true) joined.toRawInput).2 = .ok plan ∧
        plan.hostFramework = some ⟨.ofString "/work/a,b", .lazy, true⟩) ∧
      ¬joined.WrittenFor .standard := by
  intro r stray joined
  refine ⟨⟨_, rfl⟩, ?_, ⟨_, rfl, by rfl⟩, ?_⟩
  · intro written
    obtain ⟨spec, hspec, hname, -⟩ := written "bogus" (.switch false) rfl
    have unregistered : ∀ spec ∈ Registry.standard.specs, spec.name ≠ "bogus" := by decide
    exact unregistered spec hspec hname
  · intro written
    obtain ⟨spec, hspec, hname, hshape⟩ := written "mms-path" (.list ["a", "b"]) rfl
    have path : ∀ spec ∈ Registry.standard.specs, spec.name = "mms-path" → spec.kind ≠ .list := by
      decide
    exact path spec hspec hname (hshape (by simp))

end Resolver
end BuildFront
