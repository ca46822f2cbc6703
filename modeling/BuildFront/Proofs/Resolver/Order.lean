import BuildFront.Proofs.NameMap.Layers
import BuildFront.Proofs.Resolver.Meaning
import Mathlib.Data.List.Forall2

/-!
Resolving all options of a registry: an unknown name ends it before anything else, then the first
option in the order of registration that is refused, and otherwise each name is answered with the
meaning of its own value.
-/

namespace BuildFront

theorem Registry.get?_eq_some_iff (g : Registry) (name : String) (spec : OptionSpec) :
    g.get? name = some spec ↔ spec ∈ g.specs ∧ spec.name = name :=
  find?_key_eq_some_iff g.distinct name spec

theorem Registry.contains_eq_true_iff (g : Registry) (name : String) :
    g.contains name = true ↔ ∃ spec ∈ g.specs, spec.name = name := by
  simp [contains, names]

namespace Resolver

variable {r : Resolver} {present : Path → Bool} {raw : RawInput}

/-- What an option's own value means to a resolver, if it makes sense. -/
def meaningOf? (r : Resolver) (present : Path → Bool) (raw : RawInput) (spec : OptionSpec) :
    Option Resolved :=
  spec.kind.meaning? r.cwd present (spec.value (raw.get? spec.name))

theorem resolveEach_cons_ok {spec : OptionSpec} {v : Resolved} {ws : List Event}
    (rest : List OptionSpec) (h : r.resolveOne present spec (raw.get? spec.name) = .ok (v, ws)) :
    (r.resolveEach present raw (spec :: rest)).2 =
      (r.resolveEach present raw rest).2.map ((spec.name, v) :: ·) := by
  simp only [resolveEach, h]

theorem resolveEach_cons_error {spec : OptionSpec} {e : Rejection} (rest : List OptionSpec)
    (h : r.resolveOne present spec (raw.get? spec.name) = .error e) :
    (r.resolveEach present raw (spec :: rest)).2 = .error e := by
  simp only [resolveEach, h]

theorem resolveEach_ok_iff (specs : List OptionSpec) (o : ResolvedOptions) :
    (r.resolveEach present raw specs).2 = .ok o ↔
      List.Forall₂ (fun spec e => e.1 = spec.name ∧ r.meaningOf? present raw spec = some e.2)
        specs o := by
  induction specs generalizing o with
  | nil => simp [resolveEach, eq_comm]
  | cons spec rest ih =>
      rcases resolveOne_cases r present spec (raw.get? spec.name) with
        ⟨v, ws, hm, hok⟩ | ⟨e, hm, he⟩
      · rw [resolveEach_cons_ok rest hok, List.forall₂_cons_left_iff]
        constructor
        · intro h
          cases hrest : (r.resolveEach present raw rest).2 with
          | error e =>
              rw [hrest] at h
              cases h
          | ok tail =>
              rw [hrest] at h
              cases h
              exact ⟨(spec.name, v), tail, ⟨rfl, hm⟩, (ih tail).mp hrest, rfl⟩
        · rintro ⟨⟨name, v'⟩, tail, ⟨rfl, hm'⟩, htail, rfl⟩
          rw [meaningOf?, hm] at hm'
          cases hm'
          rw [(ih tail).mpr htail]
          rfl
      · rw [resolveEach_cons_error rest (resolveOne_of_refuses he), List.forall₂_cons_left_iff]
        constructor
        · intro h
          cases h
        · rintro ⟨e', tail, ⟨-, hm'⟩, -, -⟩
          rw [meaningOf?, hm] at hm'
          cases hm'

theorem exists_resolveEach_ok_iff (specs : List OptionSpec) :
    (∃ o, (r.resolveEach present raw specs).2 = .ok o) ↔
      ∀ spec ∈ specs, r.meaningOf? present raw spec ≠ none := by
  induction specs with
  | nil => simp [resolveEach]
  | cons spec rest ih =>
      rw [List.forall_mem_cons, ← ih]
      rcases resolveOne_cases r present spec (raw.get? spec.name) with
        ⟨v, ws, hm, hok⟩ | ⟨e, hm, he⟩
      · rw [resolveEach_cons_ok rest hok]
        cases (r.resolveEach present raw rest).2 <;> simp [Except.map, meaningOf?, hm]
      · rw [resolveEach_cons_error rest (resolveOne_of_refuses he)]
        simp [meaningOf?, hm]

/-- The first option that is refused ends the resolution, whatever the later ones are. -/
theorem resolveEach_error_iff (specs : List OptionSpec) (e : Rejection) :
    (r.resolveEach present raw specs).2 = .error e ↔
      ∃ before spec after, specs = before ++ spec :: after ∧
        (∀ s ∈ before, r.meaningOf? present raw s ≠ none) ∧
        Refuses r.cwd present spec (raw.get? spec.name) e := by
  induction specs with
  | nil => simp [resolveEach]
  | cons spec rest ih =>
      rcases resolveOne_cases r present spec (raw.get? spec.name) with
        ⟨v, ws, hm, hok⟩ | ⟨e', hm, he⟩
      · have hmap : (r.resolveEach present raw (spec :: rest)).2 = .error e ↔
            (r.resolveEach present raw rest).2 = .error e := by
          rw [resolveEach_cons_ok rest hok]
          cases (r.resolveEach present raw rest).2 <;> simp [Except.map]
        rw [hmap, ih]
        constructor
        · rintro ⟨before, s, after, rfl, hbefore, hs⟩
          refine ⟨spec :: before, s, after, rfl, ?_, hs⟩
          intro t ht
          rcases List.mem_cons.mp ht with rfl | ht
          · simp [meaningOf?, hm]
          · exact hbefore t ht
        · rintro ⟨before, s, after, hsplit, hbefore, hs⟩
          cases before with
          | nil =>
              cases hsplit
              rw [← resolveOne_error_iff, hok] at hs
              cases hs
          | cons b before =>
              cases hsplit
              exact ⟨before, s, after, rfl, fun t ht => hbefore t (.tail _ ht), hs⟩
      · rw [resolveEach_cons_error rest (resolveOne_of_refuses he)]
        constructor
        · intro h
          cases h
          exact ⟨[], spec, rest, rfl, by simp, he⟩
        · rintro ⟨before, s, after, hsplit, hbefore, hs⟩
          cases before with
          | nil =>
              cases hsplit
              rw [refuses_unique he hs]
          | cons b before =>
              cases hsplit
              exact absurd hm (hbefore _ (.head _))

theorem get?_of_forall₂ {specs : List OptionSpec} {o : ResolvedOptions} (name : String)
    (h : List.Forall₂ (fun spec e => e.1 = spec.name ∧ r.meaningOf? present raw spec = some e.2)
      specs o) :
    o.get? name = (specs.find? (fun s => s.name == name)).bind (r.meaningOf? present raw) := by
  induction h with
  | nil => rfl
  | @cons spec e specs o he hrest ih =>
      rw [ResolvedOptions.get?, List.find?_cons, List.find?_cons, he.1]
      cases hn : spec.name == name with
      | true => simp [he.2]
      | false => exact ih

theorem firstUnknown_eq_some_iff (e : Rejection) :
    r.firstUnknown raw = some e ↔
      ∃ name v, raw.get? name = some v ∧ r.registry.contains name = false ∧
        (∀ other, raw.contains other = true → r.registry.contains other = false → name ≤ other) ∧
        e = ⟨name, v.text?, .unknownOption⟩ := by
  have first (x : String × RawValue) :=
    raw.find?_entries_eq_some_iff (fun n => !r.registry.contains n) x
  rw [firstUnknown, Option.map_eq_some_iff]
  constructor
  · rintro ⟨⟨name, v⟩, hx, rfl⟩
    obtain ⟨hmem, hunknown, hleast⟩ := (first _).mp hx
    refine ⟨name, v, (raw.get?_eq_some_iff name v).mpr hmem, by simpa using hunknown, ?_, rfl⟩
    intro other hother hn
    obtain ⟨w, hw⟩ := (raw.contains_eq_true_iff other).mp hother
    exact hleast (other, w) ((raw.get?_eq_some_iff other w).mp hw) (by simpa using hn)
  · rintro ⟨name, v, hv, hunknown, hleast, rfl⟩
    refine ⟨(name, v), (first _).mpr ⟨(raw.get?_eq_some_iff name v).mp hv, by simpa, ?_⟩, rfl⟩
    rintro ⟨other, w⟩ hmem hn
    have hw := (raw.get?_eq_some_iff other w).mpr hmem
    exact hleast other ((raw.contains_eq_true_iff other).mpr ⟨w, hw⟩) (by simpa using hn)

theorem firstUnknown_eq_none_iff :
    r.firstUnknown raw = none ↔
      ∀ name, raw.contains name = true → r.registry.contains name = true := by
  rw [firstUnknown, Option.map_eq_none_iff, List.find?_eq_none]
  constructor
  · intro h name hname
    obtain ⟨v, hv⟩ := (raw.contains_eq_true_iff name).mp hname
    simpa using h (name, v) ((raw.get?_eq_some_iff name v).mp hv)
  · rintro h ⟨name, v⟩ hmem
    have hv := (raw.get?_eq_some_iff name v).mpr hmem
    simpa using h name ((raw.contains_eq_true_iff name).mpr ⟨v, hv⟩)

theorem resolveOptions_of_unknown {e : Rejection} (h : r.firstUnknown raw = some e) :
    r.resolveOptions present raw = ([], .error e) := by
  simp only [resolveOptions, h]

theorem resolveOptions_of_known (h : r.firstUnknown raw = none) :
    r.resolveOptions present raw = r.resolveEach present raw r.registry.specs := by
  simp only [resolveOptions, h]

theorem resolveOptions_get? {o : ResolvedOptions} (name : String)
    (h : (r.resolveOptions present raw).2 = .ok o) :
    o.get? name = (r.registry.get? name).bind (r.meaningOf? present raw) := by
  cases hu : r.firstUnknown raw with
  | some e =>
      rw [resolveOptions_of_unknown hu] at h
      cases h
  | none =>
      rw [resolveOptions_of_known hu] at h
      exact get?_of_forall₂ name ((resolveEach_ok_iff _ o).mp h)

theorem resolveOptions_get?_of_mem {o : ResolvedOptions} {spec : OptionSpec}
    (hspec : spec ∈ r.registry.specs) (h : (r.resolveOptions present raw).2 = .ok o) :
    o.get? spec.name = r.meaningOf? present raw spec := by
  have found := (r.registry.get?_eq_some_iff spec.name spec).mpr ⟨hspec, rfl⟩
  rw [resolveOptions_get? spec.name h, found, Option.bind_some]

theorem exists_resolveOptions_ok_iff :
    (∃ o, (r.resolveOptions present raw).2 = .ok o) ↔
      (∀ name, raw.contains name = true → r.registry.contains name = true) ∧
        ∀ spec ∈ r.registry.specs, r.meaningOf? present raw spec ≠ none := by
  rw [← firstUnknown_eq_none_iff, ← exists_resolveEach_ok_iff]
  cases hu : r.firstUnknown raw with
  | some e => simp [resolveOptions_of_unknown hu]
  | none => simp [resolveOptions_of_known hu]

/-- Options that are resolved all have a value, the one that their input means. -/
theorem exists_get?_of_mem {o : ResolvedOptions} {spec : OptionSpec}
    (hspec : spec ∈ r.registry.specs) (h : (r.resolveOptions present raw).2 = .ok o) :
    ∃ v, o.get? spec.name = some v ∧ r.meaningOf? present raw spec = some v := by
  have accepted := (exists_resolveOptions_ok_iff.mp ⟨o, h⟩).2 spec hspec
  obtain ⟨v, hv⟩ := Option.ne_none_iff_exists'.mp accepted
  exact ⟨v, (resolveOptions_get?_of_mem hspec h).trans hv, hv⟩

theorem resolveOptions_error_iff (e : Rejection) :
    (r.resolveOptions present raw).2 = .error e ↔
      r.firstUnknown raw = some e ∨
      (r.firstUnknown raw = none ∧ (r.resolveEach present raw r.registry.specs).2 = .error e) := by
  cases hu : r.firstUnknown raw with
  | some e' => simp [resolveOptions_of_unknown hu]
  | none => simp [resolveOptions_of_known hu]

/-- What ends the resolution of the options ends the whole of it. -/
theorem resolve_of_resolveOptions_error {e : Rejection}
    (h : (r.resolveOptions present raw).2 = .error e) : (r.resolve present raw).2 = .error e := by
  rw [resolve]
  split <;> simp_all

theorem resolve_of_resolveOptions_ok {o : ResolvedOptions}
    (h : (r.resolveOptions present raw).2 = .ok o) :
    (r.resolve present raw).2 = r.compose o := by
  rw [resolve]
  split
  · next heq =>
      rw [heq] at h
      cases h
  · next heq =>
      rw [heq] at h
      cases h
      cases r.compose o <;> rfl

/-- A plan is summed up after all that was said of its options. -/
theorem events_of_resolve {plan : BuildPlan} (h : (r.resolve present raw).2 = .ok plan) :
    (r.resolve present raw).1 = (r.resolveOptions present raw).1 ++ [summary plan] := by
  rw [resolve] at h ⊢
  split at h
  · cases h
  · next heq =>
      cases hcompose : r.compose _ with
      | error e => simp [hcompose] at h
      | ok plan' =>
          simp only [hcompose, Except.ok.injEq] at h
          simp [h, heq]

theorem resolve_error_of_meaningless {spec : OptionSpec} (hspec : spec ∈ r.registry.specs)
    (h : r.meaningOf? present raw spec = none) :
    ∃ e, (r.resolve present raw).2 = .error e := by
  cases ho : (r.resolveOptions present raw).2 with
  | error e => exact ⟨e, resolve_of_resolveOptions_error ho⟩
  | ok o =>
      have accepted := exists_resolveOptions_ok_iff.mp ⟨o, ho⟩
      exact absurd h (accepted.2 spec hspec)

theorem resolve_of_first_refusal {before after : List OptionSpec} {spec : OptionSpec}
    {e : Rejection}
    (known : ∀ name, raw.contains name = true → r.registry.contains name = true)
    (hsplit : r.registry.specs = before ++ spec :: after)
    (hbefore : ∀ s ∈ before, r.meaningOf? present raw s ≠ none)
    (he : Refuses r.cwd present spec (raw.get? spec.name) e) :
    (r.resolve present raw).2 = .error e := by
  refine resolve_of_resolveOptions_error ((resolveOptions_error_iff e).mpr (.inr ⟨?_, ?_⟩))
  · exact firstUnknown_eq_none_iff.mpr known
  · exact (resolveEach_error_iff _ e).mpr ⟨before, spec, after, hsplit, hbefore, he⟩

end Resolver
end BuildFront
