import BuildFront.Proofs.BuildPlan.JsonForm
import BuildFront.Proofs.Resolver.FailFast

/-!
What a resolution reports while it goes on: for each option that is accepted, one after another, its
own events, and for a plan one event that sums it up. Nothing is said of an option that is refused
or of any after it, and nothing at all if a name is unknown.
-/

namespace BuildFront

/-- The path that an option goes by, if it may be missing and is. -/
def OptionSpec.Misses (cwd : Path) (present : Path → Bool) (spec : OptionSpec)
    (raw : Option RawValue) (path : Path) : Prop :=
  spec.kind = .path .lazy ∧ ∃ s, spec.value raw = .text s ∧
    path = Path.absolutize cwd (.ofString s) ∧ present path = false

/-- How a plan is summed up: by its fingerprint, or with a warning if it has no JSON form. -/
inductive BuildPlan.SummedUp (plan : BuildPlan) : Event → Prop where
  | fingerprinted {text f} : plan.text? = some text → plan.fingerprint? = some f →
      plan.SummedUp (.planResolved plan.sdks plan.matrix.length f)
  | illegible : plan.text? = none → plan.fingerprint? = none →
      plan.SummedUp (.planWithoutJson plan.sdks)

def Event.isSummary : Event → Bool
  | .planResolved _ _ _ | .planWithoutJson _ => true
  | _ => false

namespace Resolver

variable {r : Resolver} {present : Path → Bool} {raw : RawInput}

/-- What is said of an option once it is accepted. -/
inductive Tells (r : Resolver) (present : Path → Bool) (raw : RawInput) (spec : OptionSpec) :
    List Event → Prop where
  | missing {path value} : spec.Misses r.cwd present (raw.get? spec.name) path →
      r.meaningOf? present raw spec = some value →
      Tells r present raw spec
        [.pathMissing spec.name path, .optionResolved spec.name (raw.contains spec.name) value]
  | resolved {value} : (∀ path, ¬spec.Misses r.cwd present (raw.get? spec.name) path) →
      r.meaningOf? present raw spec = some value →
      Tells r present raw spec [.optionResolved spec.name (raw.contains spec.name) value]

/-- The courses that a resolution can take: what is said of the options that were accepted, and what
comes of it. -/
inductive Course (r : Resolver) (present : Path → Bool) (raw : RawInput) :
    List Event → Except Rejection BuildPlan → Prop where
  | unknown {name v} : raw.get? name = some v → r.registry.contains name = false →
      Course r present raw [] (.error ⟨name, v.text?, .unknownOption⟩)
  | refused {before spec after groups e} :
      (∀ name, raw.contains name = true → r.registry.contains name = true) →
      r.registry.specs = before ++ spec :: after →
      (∀ s ∈ before, r.Accepts present raw s) → Refuses r.cwd present spec (raw.get? spec.name) e →
      List.Forall₂ (r.Tells present raw) before groups →
      Course r present raw groups.flatten (.error e)
  | lacking {groups} {d : Demand} :
      (∀ name, raw.contains name = true → r.registry.contains name = true) →
      (∀ spec ∈ r.registry.specs, r.Accepts present raw spec) → ¬d.Met r.registry raw →
      List.Forall₂ (r.Tells present raw) r.registry.specs groups →
      Course r present raw groups.flatten (.error d.rejection)
  | planned {groups plan last} :
      (∀ name, raw.contains name = true → r.registry.contains name = true) →
      (∀ spec ∈ r.registry.specs, r.Accepts present raw spec) →
      List.Forall₂ (r.Tells present raw) r.registry.specs groups → plan.SummedUp last →
      Course r present raw (groups.flatten ++ [last]) (.ok plan)

theorem summedUp_summary (plan : BuildPlan) : plan.SummedUp (summary plan) := by
  rw [summary]
  cases h : plan.toJson? with
  | none =>
      have fingerprint := BuildPlan.fingerprint?_of_no_json h
      rw [fingerprint]
      exact .illegible (BuildPlan.text?_of_no_json h) fingerprint
  | some j =>
      have fingerprint := BuildPlan.fingerprint?_of_toJson? h
      rw [fingerprint]
      exact .fingerprinted (BuildPlan.text?_of_toJson? h) fingerprint

theorem checkPath_warns {spec : OptionSpec} {check : PathCheck} {cwd : Path} {s : String}
    {p : ResolvedPath} {ws : List Event} (h : checkPath spec check cwd present s = .ok (p, ws)) :
    let path := Path.absolutize cwd (.ofString s)
    (check = .lazy ∧ present path = false ∧ ws = [.pathMissing spec.name path]) ∨
      ((check = .lazy → present path = true) ∧ ws = []) := by
  intro path
  rw [checkPath] at h
  split at h
  · cases h
  · cases hpresent : present path with
    | true =>
        rw [if_pos hpresent] at h
        cases h
        exact .inr ⟨fun _ => rfl, rfl⟩
    | false =>
        rw [if_neg (by simp [path, hpresent])] at h
        cases check <;> cases h
        exact .inl ⟨rfl, rfl, rfl⟩

theorem not_misses_of_kind {spec : OptionSpec} {cwd path : Path} {v : Option RawValue}
    (h : spec.kind ≠ .path .lazy) : ¬spec.Misses cwd present v path :=
  fun hmisses => h hmisses.1

theorem misses_of_checkPath {spec : OptionSpec} {check : PathCheck} {cwd : Path}
    {v : Option RawValue} {s : String} {p : ResolvedPath} {ws : List Event}
    (hk : spec.kind = .path check) (hv : spec.value v = .text s)
    (h : checkPath spec check cwd present s = .ok (p, ws)) :
    (∃ path, spec.Misses cwd present v path ∧ ws = [.pathMissing spec.name path]) ∨
      ((∀ path, ¬spec.Misses cwd present v path) ∧ ws = []) := by
  rcases checkPath_warns h with ⟨rfl, hmissing, hws⟩ | ⟨hthere, hws⟩
  · exact .inl ⟨_, ⟨hk, s, hv, rfl, hmissing⟩, hws⟩
  · refine .inr ⟨?_, hws⟩
    rintro path ⟨hlazy, s', hs', rfl, hmissing⟩
    cases hv.symm.trans hs'
    rw [hk, OptionKind.path.injEq] at hlazy
    rw [hthere hlazy] at hmissing
    cases hmissing

theorem resolveOne_warns {spec : OptionSpec} {v : Option RawValue} {value : Resolved}
    {ws : List Event} (h : r.resolveOne present spec v = .ok (value, ws)) :
    (∃ path, spec.Misses r.cwd present v path ∧ ws = [.pathMissing spec.name path]) ∨
      ((∀ path, ¬spec.Misses r.cwd present v path) ∧ ws = []) := by
  have makes : spec.kind.meaning? r.cwd present (spec.value v) = some value :=
    (resolveOne_ok_iff value).mp ⟨ws, h⟩
  cases hk : spec.kind with
  | flag =>
      rw [resolveOne_flag hk] at h
      refine .inr ⟨fun path => not_misses_of_kind (by simp [hk]), ?_⟩
      cases hflag : resolveFlag spec v <;> rw [hflag] at h <;> cases h
      rfl
  | list =>
      rw [resolveOne_list hk] at h
      refine .inr ⟨fun path => not_misses_of_kind (by simp [hk]), ?_⟩
      cases hlist : resolveList spec v <;> rw [hlist] at h <;> cases h
      rfl
  | path check =>
      rw [hk] at makes
      cases hv : spec.value v with
      | unset =>
          refine .inr ⟨?_, ?_⟩
          · rintro path ⟨-, s, hs, -⟩
            cases hv.symm.trans hs
          · simp only [resolveOne, hk, valueText_of_unset hv] at h
            cases h
            rfl
      | switch on =>
          rw [hv] at makes
          cases makes
      | text s =>
          rw [resolveOne_path hk hv] at h
          cases hcheck : checkPath spec check r.cwd present s with
          | error e =>
              rw [hcheck] at h
              cases h
          | ok taken =>
              rw [hcheck] at h
              cases h
              exact misses_of_checkPath hk hv hcheck

theorem tells_of_resolveOne {spec : OptionSpec} {v : Resolved} {ws : List Event}
    (h : r.resolveOne present spec (raw.get? spec.name) = .ok (v, ws)) :
    r.Tells present raw spec (ws ++ [.optionResolved spec.name (raw.contains spec.name) v]) := by
  have makes : r.meaningOf? present raw spec = some v := (resolveOne_ok_iff v).mp ⟨ws, h⟩
  rcases resolveOne_warns h with ⟨path, hmisses, rfl⟩ | ⟨hthere, rfl⟩
  · exact .missing hmisses makes
  · exact .resolved hthere makes

/-- Options are spoken of in their order up to the first that is refused. -/
theorem resolveEach_tells (r : Resolver) (present : Path → Bool) (raw : RawInput)
    (specs : List OptionSpec) :
    (∃ o groups, (r.resolveEach present raw specs).2 = .ok o ∧
      List.Forall₂ (r.Tells present raw) specs groups ∧
      (r.resolveEach present raw specs).1 = groups.flatten) ∨
    ∃ before spec after groups e, specs = before ++ spec :: after ∧
      (∀ s ∈ before, r.Accepts present raw s) ∧
      Refuses r.cwd present spec (raw.get? spec.name) e ∧
      (r.resolveEach present raw specs).2 = .error e ∧
      List.Forall₂ (r.Tells present raw) before groups ∧
      (r.resolveEach present raw specs).1 = groups.flatten := by
  induction specs with
  | nil => exact .inl ⟨[], [], rfl, .nil, rfl⟩
  | cons spec rest ih =>
      cases hone : r.resolveOne present spec (raw.get? spec.name) with
      | error e =>
          refine .inr ⟨[], spec, rest, [], e, rfl, by simp, (resolveOne_error_iff e).mp hone, ?_⟩
          simp [resolveEach, hone]
      | ok taken =>
          obtain ⟨v, ws⟩ := taken
          have accepted : r.Accepts present raw spec := by
            intro e he
            rw [resolveOne_of_refuses he] at hone
            cases hone
          have tells := tells_of_resolveOne hone
          rcases ih with ⟨o, groups, hok, hgroups, hevents⟩ |
            ⟨before, spec', after, groups, e, rfl, hbefore, he, herror, hgroups, hevents⟩
          · refine .inl ⟨(spec.name, v) :: o, _ :: groups, ?_, .cons tells hgroups, ?_⟩
            · rw [resolveEach_cons_ok rest hone, hok]
              rfl
            · simp [resolveEach, hone, hevents]
          · refine .inr ⟨spec :: before, spec', after, _ :: groups, e, rfl,
              List.forall_mem_cons.mpr ⟨accepted, hbefore⟩, he, ?_, .cons tells hgroups, ?_⟩
            · rw [resolveEach_cons_ok _ hone, herror]
              rfl
            · simp [resolveEach, hone, hevents]

theorem resolve_course (r : Resolver) (present : Path → Bool) (raw : RawInput) :
    Course r present raw (r.resolve present raw).1 (r.resolve present raw).2 := by
  cases hu : r.firstUnknown raw with
  | some e =>
      obtain ⟨name, v, hv, hunknown, -, rfl⟩ := (firstUnknown_eq_some_iff e).mp hu
      rw [resolve, resolveOptions_of_unknown hu]
      exact .unknown hv hunknown
  | none =>
      have known := firstUnknown_eq_none_iff.mp hu
      have each : r.resolveOptions present raw = _ := resolveOptions_of_known hu
      rcases resolveEach_tells r present raw r.registry.specs with
        ⟨o, groups, hok, hgroups, hevents⟩ |
        ⟨before, spec, after, groups, e, hsplit, hbefore, he, herror, hgroups, hevents⟩
      · have ho : r.resolveOptions present raw = (groups.flatten, .ok o) :=
          each.trans (Prod.ext hevents hok)
        have accepted := (exists_resolveOptions_ok_iff_accepts.mp ⟨o, by rw [ho]⟩).2
        rw [resolve, ho]
        rcases r.compose_settles o with ⟨plan, -, hplan⟩ | ⟨-, d, -, -, -, unmet, herror⟩
        · simp only [hplan]
          exact .planned known accepted hgroups (summedUp_summary plan)
        · simp only [herror]
          exact .lacking known accepted (fun met => unmet ((metBy_iff (by rw [ho]) d).mpr met))
            hgroups
      · have ho : r.resolveOptions present raw = (groups.flatten, .error e) :=
          each.trans (Prod.ext hevents herror)
        rw [resolve, ho]
        exact .refused known hsplit hbefore he hgroups

/-- An event that is about an option. -/
def Concerns (r : Resolver) (present : Path → Bool) (raw : RawInput) (spec : OptionSpec)
    (event : Event) : Prop :=
  (∃ value, r.meaningOf? present raw spec = some value ∧
      event = .optionResolved spec.name (raw.contains spec.name) value) ∨
    ∃ path, spec.Misses r.cwd present (raw.get? spec.name) path ∧
      event = .pathMissing spec.name path

theorem Tells.concerns {spec : OptionSpec} {group : List Event}
    (h : r.Tells present raw spec group) :
    ∀ event ∈ group, r.Concerns present raw spec event := by
  cases h with
  | missing hmisses makes =>
      exact List.forall_mem_cons.mpr ⟨.inr ⟨_, hmisses, rfl⟩, by simp [Concerns, makes]⟩
  | resolved _ makes => simp [Concerns, makes]

theorem concerns_of_mem_flatten {specs : List OptionSpec} {groups : List (List Event)}
    (h : List.Forall₂ (r.Tells present raw) specs groups) {event : Event}
    (hevent : event ∈ groups.flatten) : ∃ spec ∈ specs, r.Concerns present raw spec event := by
  induction h with
  | nil => cases hevent
  | cons hgroup _ ih =>
      rw [List.flatten_cons, List.mem_append] at hevent
      rcases hevent with hevent | hevent
      · exact ⟨_, .head _, hgroup.concerns _ hevent⟩
      · obtain ⟨spec, hspec, hconcerns⟩ := ih hevent
        exact ⟨spec, .tail _ hspec, hconcerns⟩

theorem Concerns.not_summary {spec : OptionSpec} {event : Event}
    (h : r.Concerns present raw spec event) : event.isSummary = false := by
  rcases h with ⟨value, -, rfl⟩ | ⟨path, -, rfl⟩ <;> rfl

theorem countP_isSummary_flatten {specs : List OptionSpec} {groups : List (List Event)}
    (h : List.Forall₂ (r.Tells present raw) specs groups) :
    groups.flatten.countP Event.isSummary = 0 := by
  rw [List.countP_eq_zero]
  intro event hevent
  obtain ⟨spec, -, hconcerns⟩ := concerns_of_mem_flatten h hevent
  simp [hconcerns.not_summary]

/-- Whatever is reported is about an option that was accepted, or sums up the plan. -/
theorem Course.concerns_or_summed {events : List Event} {result : Except Rejection BuildPlan}
    (h : Course r present raw events result) {event : Event} (hevent : event ∈ events) :
    (∃ spec ∈ r.registry.specs, r.Accepts present raw spec ∧
      r.Concerns present raw spec event) ∨
    ∃ plan, result = .ok plan ∧ plan.SummedUp event := by
  cases h with
  | unknown => cases hevent
  | refused _ hsplit hbefore _ hgroups =>
      obtain ⟨spec, hspec, hconcerns⟩ := concerns_of_mem_flatten hgroups hevent
      refine .inl ⟨spec, ?_, hbefore spec hspec, hconcerns⟩
      rw [hsplit]
      exact List.mem_append_left _ hspec
  | lacking _ accepted _ hgroups =>
      obtain ⟨spec, hspec, hconcerns⟩ := concerns_of_mem_flatten hgroups hevent
      exact .inl ⟨spec, hspec, accepted spec hspec, hconcerns⟩
  | planned _ accepted hgroups hlast =>
      rcases List.mem_append.mp hevent with hevent | hevent
      · obtain ⟨spec, hspec, hconcerns⟩ := concerns_of_mem_flatten hgroups hevent
        exact .inl ⟨spec, hspec, accepted spec hspec, hconcerns⟩
      · cases List.mem_singleton.mp hevent
        exact .inr ⟨_, rfl, hlast⟩

theorem Refuses.cause_ne_unknownOption {cwd : Path} {spec : OptionSpec} {v : Option RawValue}
    {e : Rejection} (h : Refuses cwd present spec v e) : e.cause ≠ .unknownOption := by
  cases h <;> exact nofun

theorem Demand.cause_ne_unknownOption (d : Demand) : d.rejection.cause ≠ .unknownOption := by
  cases d <;> exact nofun

namespace Course

variable {events : List Event} {result : Except Rejection BuildPlan}

theorem events_of_unknownOption {e : Rejection} (h : Course r present raw events (.error e))
    (hcause : e.cause = .unknownOption) : events = [] := by
  cases h with
  | unknown => rfl
  | refused _ _ _ hrefuses _ => exact absurd hcause (Refuses.cause_ne_unknownOption hrefuses)
  | lacking => exact absurd hcause (Demand.cause_ne_unknownOption _)

theorem countP_isSummary_of_ok {plan : BuildPlan} (h : Course r present raw events (.ok plan)) :
    events.countP Event.isSummary = 1 := by
  cases h with
  | planned _ _ hgroups hlast =>
      rw [List.countP_append, countP_isSummary_flatten hgroups]
      cases hlast <;> rfl

theorem countP_isSummary_of_error {e : Rejection} (h : Course r present raw events (.error e)) :
    events.countP Event.isSummary = 0 := by
  cases h with
  | unknown => rfl
  | refused _ _ _ _ hgroups | lacking _ _ _ hgroups => exact countP_isSummary_flatten hgroups

/-- An option is known by its name, so what is said of others is not said of it. -/
theorem not_concerns_of_refuses (h : Course r present raw events result) {spec : OptionSpec}
    (hspec : spec ∈ r.registry.specs) {e : Rejection}
    (he : Refuses r.cwd present spec (raw.get? spec.name) e) {event : Event}
    (hevent : event ∈ events) :
    (∀ supplied value, event ≠ .optionResolved spec.name supplied value) ∧
      ∀ path, event ≠ .pathMissing spec.name path := by
  have other : ∀ spec' ∈ r.registry.specs, r.Accepts present raw spec' → spec'.name ≠ spec.name := by
    intro spec' hspec' haccepts hname
    have same : spec' = spec := List.inj_on_of_nodup_map r.registry.distinct hspec' hspec hname
    exact haccepts e (same ▸ he)
  rcases h.concerns_or_summed hevent with
    ⟨spec', hspec', haccepts, ⟨value, -, rfl⟩ | ⟨path, -, rfl⟩⟩ | ⟨plan, -, hsummed⟩
  · exact ⟨fun _ _ heq => other spec' hspec' haccepts (Event.optionResolved.inj heq).1, nofun⟩
  · exact ⟨nofun, fun _ heq => other spec' hspec' haccepts (Event.pathMissing.inj heq).1⟩
  · cases hsummed <;> exact ⟨nofun, nofun⟩

theorem level_eq_info_iff (h : Course r present raw events result) {event : Event}
    (hevent : event ∈ events) :
    event.level = .info ↔ ∃ plan f, result = .ok plan ∧ plan.fingerprint? = some f ∧
      event = .planResolved plan.sdks plan.matrix.length f := by
  constructor
  · intro hlevel
    rcases h.concerns_or_summed hevent with
      ⟨_, _, _, ⟨value, -, rfl⟩ | ⟨path, -, rfl⟩⟩ | ⟨plan, hplan, hsummed⟩
    · cases hlevel
    · cases hlevel
    · cases hsummed with
      | fingerprinted _ hf => exact ⟨plan, _, hplan, hf, rfl⟩
      | illegible => cases hlevel
  · rintro ⟨plan, f, -, -, rfl⟩
    rfl

theorem level_eq_warn_iff (h : Course r present raw events result) {event : Event}
    (hevent : event ∈ events) :
    event.level = .warn ↔
      (∃ spec ∈ r.registry.specs, ∃ path,
        spec.Misses r.cwd present (raw.get? spec.name) path ∧
          event = .pathMissing spec.name path) ∨
      ∃ plan, result = .ok plan ∧ plan.text? = none ∧ event = .planWithoutJson plan.sdks := by
  constructor
  · intro hlevel
    rcases h.concerns_or_summed hevent with
      ⟨spec, hspec, _, ⟨value, -, rfl⟩ | ⟨path, hmisses, rfl⟩⟩ | ⟨plan, hplan, hsummed⟩
    · cases hlevel
    · exact .inl ⟨spec, hspec, path, hmisses, rfl⟩
    · cases hsummed with
      | fingerprinted => cases hlevel
      | illegible htext _ => exact .inr ⟨plan, hplan, htext, rfl⟩
  · rintro (⟨spec, -, path, -, rfl⟩ | ⟨plan, -, -, rfl⟩) <;> rfl

end Course

/-- A resolution takes one of four courses: it ends in silence at an unknown name; it speaks of the
options before the first that is refused; it speaks of all of them and then lacks what a plan needs;
or it speaks of all and sums up the plan. So an option that is refused is never spoken of, there is
one summary for a plan and none for a failure, and the events that people are shown are the warnings
of paths that may be missing and are, and the summary. -/
theorem events_follow_the_course (r : Resolver) (present : Path → Bool) (raw : RawInput) :
    let events := (r.resolve present raw).1
    let result := (r.resolve present raw).2
    Course r present raw events result ∧
    (∀ e, result = .error e → e.cause = .unknownOption → events = []) ∧
    (∀ plan, result = .ok plan → events.countP Event.isSummary = 1) ∧
    (∀ e, result = .error e → events.countP Event.isSummary = 0) ∧
    (∀ spec ∈ r.registry.specs, ∀ e, Refuses r.cwd present spec (raw.get? spec.name) e →
      (∀ supplied value, .optionResolved spec.name supplied value ∉ events) ∧
      ∀ path, .pathMissing spec.name path ∉ events) ∧
    ∀ event ∈ events,
      (event.level = .info ↔ ∃ plan f, result = .ok plan ∧ plan.fingerprint? = some f ∧
        event = .planResolved plan.sdks plan.matrix.length f) ∧
      (event.level = .warn ↔
        (∃ spec ∈ r.registry.specs, ∃ path,
          spec.Misses r.cwd present (raw.get? spec.name) path ∧
            event = .pathMissing spec.name path) ∨
        ∃ plan, result = .ok plan ∧ plan.text? = none ∧ event = .planWithoutJson plan.sdks) := by
  intro events result
  have course : Course r present raw events result := resolve_course r present raw
  refine ⟨course, ?_, ?_, ?_, ?_, fun event hevent =>
    ⟨course.level_eq_info_iff hevent, course.level_eq_warn_iff hevent⟩⟩
  · exact fun e he => (he ▸ course).events_of_unknownOption
  · exact fun plan hplan => (hplan ▸ course).countP_isSummary_of_ok
  · exact fun e he => (he ▸ course).countP_isSummary_of_error
  · intro spec hspec e he
    exact ⟨fun _ _ hevent => (course.not_concerns_of_refuses hspec he hevent).1 _ _ rfl,
      fun _ hevent => (course.not_concerns_of_refuses hspec he hevent).2 _ rfl⟩

/-- A preset path is looked for as any other; the one that has to be there is not spoken of. -/
example :
    let lib := (OptionSpec.path "lib" .lazy "").withPreset (.text "../lib")
    let src := OptionSpec.path "src" .eager ""
    let r : Resolver := ⟨⟨[lib, src], by decide⟩, .ofString "/work/a", none⟩
    (r.resolve (fun _ => false) (NameMap.empty.insert "src" (.text "gone"))).1 =
      [.pathMissing "lib" (.ofString "/work/lib"),
        .optionResolved "lib" false (.path (some ⟨.ofString "/work/lib", .lazy, false⟩))] := by
  decide

end Resolver
end BuildFront
