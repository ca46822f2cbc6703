import BuildFront.Proofs.Resolver.Order

/-!
Composing a plan from resolved options: what it asks of them, in which order, and what the plan says
once nothing is lacking.
-/

namespace BuildFront

/-- The kind of option that a resolved value belongs to. -/
def Resolved.label : Resolved → String
  | .list _ => "list"
  | .path _ => "path"
  | .flag _ => "flag"

/-- What composing a plan asks for: an option of a kind, or that there is a list of SDKs at all. -/
inductive Demand where
  | declared (name label : String)
  | sdkChosen

namespace Demand

/-- The demands of a plan in the order in which they are looked at. -/
def all : List Demand :=
  [.declared "targets" "list", .declared "sdks" "list", .sdkChosen,
   .declared "hl2sdk-root" "path", .declared "hl2sdk-manifests" "path", .declared "mms-path" "path",
   .declared "enable-debug" "flag", .declared "enable-optimize" "flag"]

def rejection : Demand → Rejection
  | .declared name _ => ⟨name, none, .unregistered⟩
  | .sdkChosen =>
    ⟨"sdks", none, .kindMismatch "list" "no SDK selected and the registry declares no default"⟩

/-- What a demand says of the resolved options. -/
def MetBy (o : ResolvedOptions) : Demand → Prop
  | .declared name label => ∃ v, o.get? name = some v ∧ v.label = label
  | .sdkChosen => o.get? "sdks" ≠ some (.list none)

end Demand

namespace ResolvedOptions

open Demand

theorem listOf_cases (o : ResolvedOptions) (name : String) :
    (∃ l, o.get? name = some (.list l) ∧ o.listOf name = .ok l) ∨
      (¬MetBy o (.declared name "list") ∧ o.listOf name = .error (unregistered name)) := by
  rw [listOf, MetBy]
  cases h : get? o name with
  | none => simp
  | some v => cases v <;> simp [Resolved.label]

theorem pathOf_cases (o : ResolvedOptions) (name : String) :
    (∃ p, o.get? name = some (.path p) ∧ o.pathOf name = .ok p) ∨
      (¬MetBy o (.declared name "path") ∧ o.pathOf name = .error (unregistered name)) := by
  rw [pathOf, MetBy]
  cases h : get? o name with
  | none => simp
  | some v => cases v <;> simp [Resolved.label]

theorem flagOf_cases (o : ResolvedOptions) (name : String) :
    (∃ on, o.get? name = some (.flag on) ∧ o.flagOf name = .ok on) ∨
      (¬MetBy o (.declared name "flag") ∧ o.flagOf name = .error (unregistered name)) := by
  rw [flagOf, MetBy]
  cases h : get? o name with
  | none => simp
  | some v => cases v <;> simp [Resolved.label]

end ResolvedOptions

namespace Resolver

open Demand

variable {r : Resolver} {present : Path → Bool} {raw : RawInput}

/-- A plan says what the resolved options say under the seven names, and its directories are the
resolver's. -/
structure Composes (r : Resolver) (o : ResolvedOptions) (plan : BuildPlan) : Prop where
  targets : o.get? "targets" = some (.list plan.targets.archs?)
  sdks : o.get? "sdks" = some (.list (some plan.sdks))
  sdkRoot : o.get? "hl2sdk-root" = some (.path plan.sdkRoot)
  sdkManifests : o.get? "hl2sdk-manifests" = some (.path plan.sdkManifests)
  hostFramework : o.get? "mms-path" = some (.path plan.hostFramework)
  debug : o.get? "enable-debug" = some (.flag plan.debug)
  optimize : o.get? "enable-optimize" = some (.flag plan.optimize)
  buildDir : plan.buildDir = Path.absolutize r.cwd (.ofString ".")
  sourceDir : plan.sourceDir = r.sourceDir.getD plan.buildDir

/-- A result is a good plan, or the refusal of the first of some demands that is not met. -/
def Settles (o : ResolvedOptions) (good : BuildPlan → Prop) (ds : List Demand)
    (result : Except Rejection BuildPlan) : Prop :=
  (∃ plan, good plan ∧ result = .ok plan) ∨
    ∃ before d after, ds = before ++ d :: after ∧ (∀ d' ∈ before, d'.MetBy o) ∧
      ¬d.MetBy o ∧ result = .error d.rejection

theorem Settles.step {α : Type} {o : ResolvedOptions} {good : BuildPlan → Prop} {d : Demand}
    {rest : List Demand} {p : α → Prop} {x : Except Rejection α}
    {next : α → Except Rejection BuildPlan}
    (hx : (∃ a, p a ∧ x = .ok a) ∨ (¬d.MetBy o ∧ x = .error d.rejection))
    (hnext : ∀ a, p a → d.MetBy o ∧ Settles o good rest (next a)) :
    Settles o good (d :: rest) (x >>= next) := by
  rcases hx with ⟨a, ha, rfl⟩ | ⟨unmet, rfl⟩
  · obtain ⟨met, hplan | ⟨before, d', after, rfl, hbefore, hd'⟩⟩ := hnext a ha
    · exact .inl hplan
    · exact .inr ⟨d :: before, d', after, rfl, List.forall_mem_cons.mpr ⟨met, hbefore⟩, hd'⟩
  · exact .inr ⟨[], d, rest, rfl, by simp, unmet, rfl⟩

/-- Either there is all that a plan needs, or the first demand that is not met is reported. -/
theorem compose_settles (r : Resolver) (o : ResolvedOptions) :
    Settles o (r.Composes o) Demand.all (r.compose o) := by
  rw [compose]
  refine .step (o.listOf_cases "targets") fun targets htargets => ⟨⟨_, htargets, rfl⟩, ?_⟩
  refine .step (o.listOf_cases "sdks") fun sdks hsdks => ⟨⟨_, hsdks, rfl⟩, ?_⟩
  dsimp only
  cases sdks with
  | none => exact .inr ⟨[], _, _, rfl, by simp, by simp [MetBy, hsdks], rfl⟩
  | some sdks =>
      refine .step (.inl ⟨sdks, rfl, rfl⟩) fun l hl => ⟨by simp [MetBy, hsdks], ?_⟩
      refine .step (o.pathOf_cases "hl2sdk-root") fun root hroot => ⟨⟨_, hroot, rfl⟩, ?_⟩
      refine .step (o.pathOf_cases "hl2sdk-manifests") fun manifests hmanifests =>
        ⟨⟨_, hmanifests, rfl⟩, ?_⟩
      refine .step (o.pathOf_cases "mms-path") fun framework hframework =>
        ⟨⟨_, hframework, rfl⟩, ?_⟩
      refine .step (o.flagOf_cases "enable-debug") fun debug hdebug => ⟨⟨_, hdebug, rfl⟩, ?_⟩
      refine .step (o.flagOf_cases "enable-optimize") fun optimize hoptimize =>
        ⟨⟨_, hoptimize, rfl⟩, ?_⟩
      refine .inl ⟨_, ?_, rfl⟩
      subst hl
      refine ⟨?_, hsdks, hroot, hmanifests, hframework, hdebug, hoptimize, rfl, rfl⟩
      rw [htargets]
      cases targets <;> rfl

theorem composes_of_compose {o : ResolvedOptions} {plan : BuildPlan}
    (h : r.compose o = .ok plan) : r.Composes o plan := by
  rcases r.compose_settles o with ⟨plan', good, hok⟩ | ⟨_, _, _, _, _, _, herror⟩
  · rw [h] at hok
    cases hok
    exact good
  · rw [h] at herror
    cases herror

theorem Composes.met {o : ResolvedOptions} {plan : BuildPlan} (h : r.Composes o plan) :
    ∀ d ∈ Demand.all, d.MetBy o := by
  simp only [Demand.all, List.forall_mem_cons, List.not_mem_nil, false_imp_iff, implies_true,
    and_true]
  refine ⟨⟨_, h.targets, rfl⟩, ⟨_, h.sdks, rfl⟩, ?_, ⟨_, h.sdkRoot, rfl⟩, ⟨_, h.sdkManifests, rfl⟩,
    ⟨_, h.hostFramework, rfl⟩, ⟨_, h.debug, rfl⟩, ⟨_, h.optimize, rfl⟩⟩
  simp [MetBy, h.sdks]

theorem exists_composes_of_resolve {plan : BuildPlan} (h : (r.resolve present raw).2 = .ok plan) :
    ∃ o, (r.resolveOptions present raw).2 = .ok o ∧ r.Composes o plan := by
  cases ho : (r.resolveOptions present raw).2 with
  | error e =>
      rw [resolve_of_resolveOptions_error ho] at h
      cases h
  | ok o =>
      rw [resolve_of_resolveOptions_ok ho] at h
      exact ⟨o, rfl, composes_of_compose h⟩

end Resolver
end BuildFront
