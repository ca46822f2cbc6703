import BuildFront.Proofs.Resolver.Composition
import BuildFront.Proofs.Text.Utf8

/-!
Which of all the things wrong with an input is reported: an unknown name, the least in byte order,
before anything else; then the option registered first among those refused; then the first of the
options of a plugin build, in the order in which a plan is composed, that is not there to be used.
-/

namespace BuildFront

theorem first_failure_unique {α : Type u} {p : α → Prop} {l before before' after after' : List α}
    {x x' : α} (h : l = before ++ x :: after) (hbefore : ∀ y ∈ before, p y) (hx : ¬p x)
    (h' : l = before' ++ x' :: after') (hbefore' : ∀ y ∈ before', p y) (hx' : ¬p x') : x = x' := by
  classical
  have first : l.find? (fun y => !p y) = some x :=
    List.find?_eq_some_iff_append.mpr ⟨by simpa using hx, before, after, h, by simpa using hbefore⟩
  have first' : l.find? (fun y => !p y) = some x' :=
    List.find?_eq_some_iff_append.mpr
      ⟨by simpa using hx', before', after', h', by simpa using hbefore'⟩
  exact Option.some.inj (first.symm.trans first')

/-- What a demand says of the registry and the input. -/
def Demand.Met (g : Registry) (raw : RawInput) : Demand → Prop
  | .declared name label => ∃ spec ∈ g.specs, spec.name = name ∧ spec.kind.label = label
  | .sdkChosen => ∀ spec ∈ g.specs, spec.name = "sdks" → spec.kind = .list →
      spec.value (raw.get? spec.name) ≠ .unset

namespace Resolver

open Demand

variable {r : Resolver} {present : Path → Bool} {raw : RawInput}

theorem label_of_meaning? {cwd : Path} {kind : OptionKind} {value : Preset} {v : Resolved}
    (h : kind.meaning? cwd present value = some v) : v.label = kind.label := by
  cases kind <;> cases value <;>
    simp only [OptionKind.meaning?, Option.map_eq_some_iff, Option.some.injEq, reduceCtorEq] at h
  case list.text | path.text =>
    obtain ⟨_, _, rfl⟩ := h
    rfl
  all_goals rw [← h]; rfl

theorem meaning?_eq_list_none_iff {cwd : Path} {kind : OptionKind} {value : Preset} :
    kind.meaning? cwd present value = some (.list none) ↔ kind = .list ∧ value = .unset := by
  cases kind <;> cases value <;> simp [OptionKind.meaning?]

theorem metBy_iff {o : ResolvedOptions} (h : (r.resolveOptions present raw).2 = .ok o)
    (d : Demand) : d.MetBy o ↔ d.Met r.registry raw := by
  have accepted := (exists_resolveOptions_ok_iff.mp ⟨o, h⟩).2
  cases d with
  | declared name label =>
      constructor
      · rintro ⟨v, hv, rfl⟩
        rw [resolveOptions_get? name h] at hv
        obtain ⟨spec, hspec, hm⟩ := Option.bind_eq_some_iff.mp hv
        obtain ⟨hmem, rfl⟩ := (r.registry.get?_eq_some_iff _ _).mp hspec
        exact ⟨spec, hmem, rfl, (label_of_meaning? hm).symm⟩
      · rintro ⟨spec, hmem, rfl, rfl⟩
        obtain ⟨v, hv⟩ := Option.ne_none_iff_exists'.mp (accepted spec hmem)
        exact ⟨v, (resolveOptions_get?_of_mem hmem h).trans hv, label_of_meaning? hv⟩
  | sdkChosen =>
      rw [MetBy, Met, resolveOptions_get? "sdks" h]
      constructor
      · intro hne spec hmem hname hk hv
        have found := (r.registry.get?_eq_some_iff _ _).mpr ⟨hmem, hname⟩
        refine hne ?_
        rw [found, Option.bind_some, meaningOf?, meaning?_eq_list_none_iff]
        exact ⟨hk, hv⟩
      · intro hall heq
        obtain ⟨spec, hspec, hm⟩ := Option.bind_eq_some_iff.mp heq
        obtain ⟨hmem, hname⟩ := (r.registry.get?_eq_some_iff _ _).mp hspec
        obtain ⟨hk, hv⟩ := meaning?_eq_list_none_iff.mp hm
        exact hall spec hmem hname hk hv

/-- An option is accepted if no rule refuses its value. -/
def Accepts (r : Resolver) (present : Path → Bool) (raw : RawInput) (spec : OptionSpec) : Prop :=
  ∀ e, ¬Refuses r.cwd present spec (raw.get? spec.name) e

theorem accepts_iff (spec : OptionSpec) :
    r.Accepts present raw spec ↔ r.meaningOf? present raw spec ≠ none := by
  rw [meaningOf?, Ne, meaning?_eq_none_iff, not_exists]
  rfl

/-- The text that a refusal of an option shows: that of what was supplied, if anything was, and
that of the default otherwise. -/
def shownFor? (r : Resolver) (raw : RawInput) (name : String) : Option String :=
  match raw.get? name with
  | some v => v.text?
  | none => (r.registry.get? name).bind (·.preset.text?)

/-- How the options as such are rejected. -/
inductive OptionsRejected (r : Resolver) (present : Path → Bool) (raw : RawInput) :
    Rejection → Prop where
  | unknown {name v} : raw.get? name = some v → r.registry.contains name = false →
      (∀ other, raw.contains other = true → r.registry.contains other = false →
        Utf8.ofString name ≤ Utf8.ofString other) →
      OptionsRejected r present raw ⟨name, v.text?, .unknownOption⟩
  | refused {before spec after e} :
      (∀ name, raw.contains name = true → r.registry.contains name = true) →
      r.registry.specs = before ++ spec :: after → (∀ s ∈ before, r.Accepts present raw s) →
      Refuses r.cwd present spec (raw.get? spec.name) e → OptionsRejected r present raw e

/-- How an input is rejected: for its options, or for what is not there to compose a plan from. -/
inductive Rejected (r : Resolver) (present : Path → Bool) (raw : RawInput) : Rejection → Prop where
  | options {e} : OptionsRejected r present raw e → Rejected r present raw e
  | lacking {before d after} :
      (∀ name, raw.contains name = true → r.registry.contains name = true) →
      (∀ spec ∈ r.registry.specs, r.Accepts present raw spec) →
      Demand.all = before ++ d :: after → (∀ d' ∈ before, d'.Met r.registry raw) →
      ¬d.Met r.registry raw → Rejected r present raw d.rejection

theorem resolveOptions_error_iff_rejected (e : Rejection) :
    (r.resolveOptions present raw).2 = .error e ↔ OptionsRejected r present raw e := by
  rw [resolveOptions_error_iff, firstUnknown_eq_none_iff, firstUnknown_eq_some_iff,
    resolveEach_error_iff]
  simp only [← accepts_iff]
  constructor
  · rintro (⟨name, v, hv, hunknown, hleast, rfl⟩ | ⟨known, before, spec, after, h, hbefore, he⟩)
    · refine .unknown hv hunknown fun other hother hn => ?_
      exact (Utf8.ofString_le_ofString_iff name other).mpr (hleast other hother hn)
    · exact .refused known h hbefore he
  · intro h
    cases h with
    | @unknown name v hv hunknown hleast =>
        refine .inl ⟨name, v, hv, hunknown, fun other hother hn => ?_, rfl⟩
        exact (Utf8.ofString_le_ofString_iff name other).mp (hleast other hother hn)
    | refused known h hbefore he => exact .inr ⟨known, _, _, _, h, hbefore, he⟩

theorem exists_resolveOptions_ok_iff_accepts :
    (∃ o, (r.resolveOptions present raw).2 = .ok o) ↔
      (∀ name, raw.contains name = true → r.registry.contains name = true) ∧
        ∀ spec ∈ r.registry.specs, r.Accepts present raw spec := by
  simp only [exists_resolveOptions_ok_iff, accepts_iff]

theorem resolve_error_iff (e : Rejection) :
    (r.resolve present raw).2 = .error e ↔ Rejected r present raw e := by
  constructor
  · intro h
    cases ho : (r.resolveOptions present raw).2 with
    | error e' =>
        rw [resolve_of_resolveOptions_error ho] at h
        cases h
        exact .options ((resolveOptions_error_iff_rejected e).mp ho)
    | ok o =>
        obtain ⟨known, accepted⟩ := exists_resolveOptions_ok_iff_accepts.mp ⟨o, ho⟩
        rw [resolve_of_resolveOptions_ok ho] at h
        rcases r.compose_settles o with ⟨plan, -, hok⟩ | ⟨before, d, after, hsplit, hmet, unmet, he⟩
        · rw [h] at hok
          cases hok
        · rw [h] at he
          cases he
          simp only [metBy_iff ho] at hmet unmet
          exact .lacking known accepted hsplit hmet unmet
  · intro h
    cases h with
    | options h =>
        exact resolve_of_resolveOptions_error ((resolveOptions_error_iff_rejected e).mpr h)
    | @lacking before d after known accepted hsplit hmet unmet =>
        obtain ⟨o, ho⟩ := exists_resolveOptions_ok_iff_accepts.mpr ⟨known, accepted⟩
        simp only [← metBy_iff ho] at hmet unmet
        rw [resolve_of_resolveOptions_ok ho]
        rcases r.compose_settles o with ⟨plan, good, -⟩ | ⟨_, d', _, hsplit', hmet', unmet', he⟩
        · exact absurd (good.met d (by rw [hsplit]; simp)) unmet
        · rw [he, first_failure_unique hsplit hmet unmet hsplit' hmet' unmet']

theorem exists_resolve_ok_iff :
    (∃ plan, (r.resolve present raw).2 = .ok plan) ↔
      (∀ name, raw.contains name = true → r.registry.contains name = true) ∧
      (∀ spec ∈ r.registry.specs, r.Accepts present raw spec) ∧
      ∀ d ∈ Demand.all, d.Met r.registry raw := by
  constructor
  · rintro ⟨plan, h⟩
    obtain ⟨o, ho, good⟩ := exists_composes_of_resolve h
    obtain ⟨known, accepted⟩ := exists_resolveOptions_ok_iff_accepts.mp ⟨o, ho⟩
    exact ⟨known, accepted, fun d hd => (metBy_iff ho d).mp (good.met d hd)⟩
  · rintro ⟨known, accepted, met⟩
    obtain ⟨o, ho⟩ := exists_resolveOptions_ok_iff_accepts.mpr ⟨known, accepted⟩
    rw [resolve_of_resolveOptions_ok ho]
    rcases r.compose_settles o with ⟨plan, -, hok⟩ | ⟨before, d, after, hsplit, -, unmet, -⟩
    · exact ⟨plan, hok⟩
    · exact absurd ((metBy_iff ho d).mpr (met d (by rw [hsplit]; simp))) unmet

theorem names_of_resolveOptions {o : ResolvedOptions}
    (h : (r.resolveOptions present raw).2 = .ok o) : o.map (·.1) = r.registry.names := by
  have known := firstUnknown_eq_none_iff.mpr (exists_resolveOptions_ok_iff.mp ⟨o, h⟩).1
  rw [resolveOptions_of_known known, resolveEach_ok_iff] at h
  rw [Registry.names]
  generalize r.registry.specs = specs at h
  induction h with
  | nil => rfl
  | cons he _ ih => rw [List.map_cons, List.map_cons, he.1, ih]

theorem OptionsRejected.value_eq {e : Rejection} (h : OptionsRejected r present raw e) :
    e.value = r.shownFor? raw e.option := by
  cases h with
  | unknown hv => rw [shownFor?, hv]
  | @refused _ spec _ _ _ hsplit _ he =>
      have hmem : spec ∈ r.registry.specs := by
        rw [hsplit]
        simp
      have found := (r.registry.get?_eq_some_iff _ _).mpr ⟨hmem, rfl⟩
      rw [he.value_eq, he.option_eq, shownFor?, found]
      cases raw.get? spec.name <;> rfl

/-- Resolution reports one thing, fixed by the order of its three stages, and nothing later changes
it: the least unknown name in byte order, else the option registered first among those refused, else
the first demand of the plan that is not met. What it reports of the options comes with the text
supplied for the option, or that of its default. Without any of them there is a plan. The options
alone are resolved with the first two stages, each to a value of its own kind. -/
theorem resolve_fails_fast (r : Resolver) (present : Path → Bool) (raw : RawInput) :
    (∀ e, (r.resolve present raw).2 = .error e ↔ Rejected r present raw e) ∧
    ((∃ plan, (r.resolve present raw).2 = .ok plan) ↔
      (∀ name, raw.contains name = true → r.registry.contains name = true) ∧
      (∀ spec ∈ r.registry.specs, r.Accepts present raw spec) ∧
      ∀ d ∈ Demand.all, d.Met r.registry raw) ∧
    (∀ e, OptionsRejected r present raw e → e.value = r.shownFor? raw e.option) ∧
    (∀ e, (r.resolveOptions present raw).2 = .error e ↔ OptionsRejected r present raw e) ∧
    ∀ o, (r.resolveOptions present raw).2 = .ok o →
      o.map (·.1) = r.registry.names ∧
      ∀ spec ∈ r.registry.specs, ∃ v, o.get? spec.name = some v ∧
        r.meaningOf? present raw spec = some v ∧ v.label = spec.kind.label := by
  refine ⟨resolve_error_iff, exists_resolve_ok_iff, fun e => OptionsRejected.value_eq,
    resolveOptions_error_iff_rejected, ?_⟩
  intro o ho
  refine ⟨names_of_resolveOptions ho, ?_⟩
  intro spec hspec
  obtain ⟨v, hv⟩ := Option.ne_none_iff_exists'.mp
    ((exists_resolveOptions_ok_iff.mp ⟨o, ho⟩).2 spec hspec)
  exact ⟨v, (resolveOptions_get?_of_mem hspec ho).trans hv, hv, label_of_meaning? hv⟩

/-- Where names are unknown, a list is vacant and no SDK is chosen, each is reported only once what
comes before it is put right. -/
theorem stages_report_in_turn :
    let registry : Registry := ⟨[.list "sdks" "", .list "targets" "", .list "mods" ""], by decide⟩
    let r := new registry (.ofString "/work")
    let vacant : RawInput := (NameMap.empty.insert "mods" (.text ",")).insert "targets" (.text " ,")
    let stray := (vacant.insert "zeta" .flag).insert "Beta" (.text "x")
    (r.resolve (fun _ => true) stray).2 = .error ⟨"Beta", some "x", .unknownOption⟩ ∧
    (r.resolve (fun _ => true) vacant).2 = .error ⟨"targets", some " ,", .emptyList ⟨" ,"⟩⟩ ∧
    (r.resolve (fun _ => true) .empty).2 = .error Demand.sdkChosen.rejection := by
  intro registry r vacant stray
  have accepts (raw : RawInput) (spec : OptionSpec)
      (h : r.meaningOf? (fun _ => true) raw spec ≠ none) : r.Accepts (fun _ => true) raw spec :=
    (accepts_iff spec).mpr h
  refine ⟨?_, ?_, ?_⟩
  · refine ((resolve_fails_fast r (fun _ => true) stray).1 _).mpr (.options ?_)
    exact (resolveOptions_error_iff_rejected _).mp (by decide)
  · refine ((resolve_fails_fast r (fun _ => true) vacant).1 _).mpr (.options ?_)
    have known : r.firstUnknown vacant = none := by decide
    have second : registry.specs =
        [.list "sdks" ""] ++ .list "targets" "" :: [.list "mods" ""] := rfl
    refine .refused (firstUnknown_eq_none_iff.mp known) second ?_ (.vacantList rfl rfl ?_)
    · exact fun s hs => accepts vacant s (by revert s; decide)
    · simp [IdList.Vacant, show Text.isBlank ' ' = true from rfl]
  · refine ((resolve_fails_fast r (fun _ => true) .empty).1 _).mpr ?_
    have third : Demand.all = [.declared "targets" "list", .declared "sdks" "list"] ++
        .sdkChosen :: Demand.all.drop 3 := rfl
    refine .lacking (by simp [NameMap.contains]) ?_ third ?_ ?_
    · exact fun s hs => accepts .empty s (by revert s; decide)
    · simp [Met, registry, r, new, OptionSpec.list, OptionKind.label]
    · exact fun h => h (.list "sdks" "") (.head _) rfl rfl rfl

end Resolver
end BuildFront
