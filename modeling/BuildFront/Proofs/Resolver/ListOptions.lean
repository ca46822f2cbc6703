import BuildFront.Proofs.IdList.Segments
import BuildFront.Proofs.Resolver.Composition
import BuildFront.Proofs.Resolver.Supplied

/-!
The lists of a resolved plan: which text each was read from, and which segments of that text it
keeps.
-/

namespace BuildFront

/-- The list options of a plan under their names. -/
def BuildPlan.listOptions (p : BuildPlan) : List (String × Option IdList) :=
  [("sdks", some p.sdks), ("targets", p.targets.archs?)]

theorem BuildPlan.sdks_listed (p : BuildPlan) : ("sdks", some p.sdks) ∈ p.listOptions := by
  simp [listOptions]

theorem BuildPlan.targets_listed {p : BuildPlan} {targets : TargetSelection}
    (h : p.targets = targets) : ("targets", targets.archs?) ∈ p.listOptions := by
  simp [listOptions, h]

namespace Resolver

variable {r : Resolver} {present : Path → Bool} {raw : RawInput} {plan : BuildPlan}

theorem Composes.listOptions {o : ResolvedOptions} (h : r.Composes o plan) :
    ∀ e ∈ plan.listOptions, o.get? e.1 = some (.list e.2) := by
  simp only [BuildPlan.listOptions, List.forall_mem_cons, List.not_mem_nil, false_imp_iff,
    implies_true, and_true]
  exact ⟨h.sdks, h.targets⟩

/-- The segments of the text that an option goes by, be it supplied or the default. -/
def Asks (r : Resolver) (raw : RawInput) (name : String) (segments : List String) : Prop :=
  ∃ spec s, r.registry.get? name = some spec ∧ spec.value (raw.get? name) = .text s ∧
    IdList.SegmentsOf s segments

/-- A list of a plan is missing if its option goes by no value, and is otherwise read from the text
that its option goes by. -/
theorem value_of_resolve (h : (r.resolve present raw).2 = .ok plan) {name : String}
    {l : Option IdList} (hl : (name, l) ∈ plan.listOptions) :
    ∃ spec, r.registry.get? name = some spec ∧
      ((spec.value (raw.get? name) = .unset ∧ l = none) ∨
        ∃ s items, spec.value (raw.get? name) = .text s ∧ IdList.parse s = .ok items ∧
          l = some items) := by
  obtain ⟨o, ho, plan_of⟩ := exists_composes_of_resolve h
  have hname := plan_of.listOptions _ hl
  rw [resolveOptions_get? name ho] at hname
  obtain ⟨spec, hspec, hm⟩ := Option.bind_eq_some_iff.mp hname
  obtain ⟨-, rfl⟩ := (r.registry.get?_eq_some_iff _ _).mp hspec
  exact ⟨spec, hspec, (OptionKind.meaning?_eq_list_iff.mp hm).2⟩

theorem tidy_of_resolve (h : (r.resolve present raw).2 = .ok plan) {name : String} {l : IdList}
    (hl : (name, some l) ∈ plan.listOptions) : l.Tidy := by
  obtain ⟨spec, -, ⟨-, hnone⟩ | ⟨s, items, -, hparse, heq⟩⟩ := value_of_resolve h hl
  · cases hnone
  · cases heq
    exact IdList.tidy_of_parse hparse

theorem mem_items_of_resolve (h : (r.resolve present raw).2 = .ok plan) {name : String} {l : IdList}
    (hl : (name, some l) ∈ plan.listOptions) :
    ∃ segments, (∀ other, r.Asks raw name other ↔ other = segments) ∧
      ∀ item, item ∈ l.items ↔ item ∈ segments := by
  obtain ⟨spec, hspec, ⟨-, hnone⟩ | ⟨s, items, hvalue, hparse, heq⟩⟩ := value_of_resolve h hl
  · cases hnone
  · cases heq
    refine ⟨IdList.itemsOf s, ?_, ?_⟩
    · intro other
      simp [Asks, hspec, hvalue, IdList.segmentsOf_iff]
    · intro item
      rw [((IdList.parse_eq_ok_iff s l).mp hparse).2, List.mem_eraseDups]

theorem not_asks_of_resolve (h : (r.resolve present raw).2 = .ok plan) {name : String}
    (hl : (name, none) ∈ plan.listOptions) (segments : List String) :
    ¬r.Asks raw name segments := by
  obtain ⟨spec, hspec, ⟨hvalue, -⟩ | ⟨s, items, -, -, hsome⟩⟩ := value_of_resolve h hl
  · simp [Asks, hspec, hvalue]
  · cases hsome

end Resolver
end BuildFront
