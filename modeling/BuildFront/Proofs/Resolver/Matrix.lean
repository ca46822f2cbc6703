import Mathlib.Data.List.Nodup
import Mathlib.Data.Option.Basic
import Mathlib.Data.List.ProdSigma
import BuildFront.Proofs.Resolver.ListOptions

/-!
The build matrix as an ordered product: row by row, each SDK with each of the columns. That no cell
comes up twice, and that there is one at all, is due to the lists of a resolved plan.
-/

namespace BuildFront

/-- In a product by rows, the cell of a row and a column stands where counting row by row leads. -/
theorem getElem?_product {α β : Type} (rows : List α) {columns : List β} {j : Nat}
    (hj : j < columns.length) (i : Nat) :
    (rows ×ˢ columns)[i * columns.length + j]? = rows[i]?.map (·, columns[j]) := by
  induction rows generalizing i with
  | nil => simp
  | cons row rows ih =>
      rw [List.product_cons]
      cases i with
      | zero => simp [List.getElem?_append_left, hj]
      | succ i =>
          -- The first row takes up as many places as there are columns.
          have past : (i + 1) * columns.length + j =
              (columns.map (fun column => (row, column))).length + (i * columns.length + j) := by
            rw [List.length_map, Nat.succ_mul]
            omega
          rw [past, List.getElem?_append_right (Nat.le_add_right _ _), Nat.add_sub_cancel_left, ih,
            List.getElem?_cons_succ]

/-- The columns of the build matrix: the architectures, or the engine's choice alone. -/
def TargetSelection.columns : TargetSelection → List (Option String)
  | .engineDefault => [none]
  | .explicit archs => archs.items.map some

namespace BuildPlan

variable {p : BuildPlan}

theorem matrix_eq_product (p : BuildPlan) : p.matrix = p.sdks.items ×ˢ p.targets.columns := by
  rw [matrix]
  cases p.targets with
  | engineDefault => exact List.map_eq_flatMap
  | explicit archs =>
      simp only [TargetSelection.columns, SProd.sprod, List.product, List.map_map,
        Function.comp_def]

theorem mem_matrix_iff {sdk : String} {arch : Option String} :
    (sdk, arch) ∈ p.matrix ↔ sdk ∈ p.sdks.items ∧ arch ∈ p.targets.columns := by
  rw [matrix_eq_product, List.mem_product]

theorem length_matrix (p : BuildPlan) :
    p.matrix.length = p.sdks.size * p.targets.columns.length := by
  rw [matrix_eq_product, List.length_product, IdList.size]

theorem getElem?_matrix (p : BuildPlan) {i j : Nat} (hi : i < p.sdks.items.length)
    (hj : j < p.targets.columns.length) :
    p.matrix[i * p.targets.columns.length + j]? =
      some (p.sdks.items[i], p.targets.columns[j]) := by
  rw [matrix_eq_product, getElem?_product _ hj, List.getElem?_eq_getElem hi, Option.map_some]

end BuildPlan

namespace Resolver

variable {r : Resolver} {present : Path → Bool} {raw : RawInput} {plan : BuildPlan}

theorem columns_ne_nil_of_resolve (h : (r.resolve present raw).2 = .ok plan) :
    plan.targets.columns ≠ [] := by
  cases ht : plan.targets with
  | engineDefault => exact List.cons_ne_nil _ _
  | explicit archs =>
      have tidy := tidy_of_resolve h (BuildPlan.targets_listed ht)
      simpa [TargetSelection.columns] using tidy.nonempty

theorem nodup_columns_of_resolve (h : (r.resolve present raw).2 = .ok plan) :
    plan.targets.columns.Nodup := by
  cases ht : plan.targets with
  | engineDefault => exact List.nodup_singleton _
  | explicit archs =>
      have tidy := tidy_of_resolve h (BuildPlan.targets_listed ht)
      exact tidy.nodup.map (Option.some_injective _)

theorem matrix_ne_nil_of_resolve (h : (r.resolve present raw).2 = .ok plan) :
    plan.matrix ≠ [] := by
  obtain ⟨sdk, hsdk⟩ := List.exists_mem_of_ne_nil _ (tidy_of_resolve h plan.sdks_listed).nonempty
  obtain ⟨arch, harch⟩ := List.exists_mem_of_ne_nil _ (columns_ne_nil_of_resolve h)
  exact List.ne_nil_of_mem (BuildPlan.mem_matrix_iff.mpr ⟨hsdk, harch⟩)

theorem nodup_matrix_of_resolve (h : (r.resolve present raw).2 = .ok plan) :
    plan.matrix.Nodup := by
  rw [BuildPlan.matrix_eq_product]
  exact (tidy_of_resolve h plan.sdks_listed).nodup.product (nodup_columns_of_resolve h)

theorem count_matrix_of_resolve (h : (r.resolve present raw).2 = .ok plan) (sdk : String)
    (arch : Option String) :
    plan.matrix.count (sdk, arch) =
      if sdk ∈ plan.sdks.items ∧ arch ∈ plan.targets.columns then 1 else 0 := by
  simp only [(nodup_matrix_of_resolve h).count, BuildPlan.mem_matrix_iff]

theorem mem_columns_of_asks (h : (r.resolve present raw).2 = .ok plan) {archs : List String}
    (asked : r.Asks raw "targets" archs) (arch : Option String) :
    arch ∈ plan.targets.columns ↔ arch ∈ archs.map some := by
  cases ht : plan.targets with
  | engineDefault => exact absurd asked (not_asks_of_resolve h (BuildPlan.targets_listed ht) archs)
  | explicit l =>
      obtain ⟨segments, unique, mem_iff⟩ := mem_items_of_resolve h (BuildPlan.targets_listed ht)
      rw [(unique archs).mp asked]
      simp [TargetSelection.columns, mem_iff]

theorem columns_of_not_asks (h : (r.resolve present raw).2 = .ok plan)
    (unasked : ∀ archs, ¬r.Asks raw "targets" archs) : plan.targets.columns = [none] := by
  cases ht : plan.targets with
  | engineDefault => rfl
  | explicit l =>
      obtain ⟨segments, unique, -⟩ := mem_items_of_resolve h (BuildPlan.targets_listed ht)
      exact absurd ((unique segments).mpr rfl) (unasked segments)

/-- The matrix of a resolved plan has the SDKs for rows and the architectures, if there are any, for
columns; it is not empty, and no cell of it comes up twice. Whatever texts the two options go by,
every SDK that is asked for is there exactly once for every architecture that is asked for, and
nothing else is. -/
theorem matrix_is_ordered_product (h : (r.resolve present raw).2 = .ok plan) :
    plan.matrix ≠ [] ∧ plan.matrix.Nodup ∧
    (plan.targets = .engineDefault →
      plan.matrix.length = plan.sdks.size ∧
      ∀ i (hi : i < plan.sdks.items.length),
        plan.matrix[i]? = some (plan.sdks.items[i], none)) ∧
    (∀ archs, plan.targets = .explicit archs →
      plan.matrix.length = plan.sdks.size * archs.size ∧
      ∀ i (hi : i < plan.sdks.items.length) j (hj : j < archs.items.length),
        plan.matrix[i * archs.size + j]? = some (plan.sdks.items[i], some archs.items[j])) ∧
    ∃ sdks, (∀ other, r.Asks raw "sdks" other ↔ other = sdks) ∧
      (∀ archs, r.Asks raw "targets" archs → ∀ sdk arch,
        plan.matrix.count (sdk, arch) = if sdk ∈ sdks ∧ arch ∈ archs.map some then 1 else 0) ∧
      ((∀ archs, ¬r.Asks raw "targets" archs) → ∀ sdk arch,
        plan.matrix.count (sdk, arch) = if sdk ∈ sdks ∧ arch = none then 1 else 0) := by
  refine ⟨matrix_ne_nil_of_resolve h, nodup_matrix_of_resolve h, ?_, ?_, ?_⟩
  · intro ht
    have columns : plan.targets.columns = [none] := by rw [ht, TargetSelection.columns]
    refine ⟨by simp [BuildPlan.length_matrix, columns], ?_⟩
    intro i hi
    have cell := plan.getElem?_matrix hi (j := 0) (by simp [columns])
    simpa [columns] using cell
  · intro archs ht
    have columns : plan.targets.columns = archs.items.map some := by
      rw [ht, TargetSelection.columns]
    refine ⟨by simp [BuildPlan.length_matrix, columns, IdList.size], ?_⟩
    intro i hi j hj
    have cell := plan.getElem?_matrix hi (j := j) (by simpa [columns] using hj)
    simpa [columns, IdList.size] using cell
  · obtain ⟨sdks, unique, mem_iff⟩ := mem_items_of_resolve h plan.sdks_listed
    refine ⟨sdks, unique, ?_, ?_⟩
    · intro archs asked sdk arch
      simp only [count_matrix_of_resolve h, mem_iff, mem_columns_of_asks h asked]
    · intro unasked sdk arch
      simp only [count_matrix_of_resolve h, mem_iff, columns_of_not_asks h unasked,
        List.mem_singleton]

/-- Repeated and blank segments make no cells of their own. -/
theorem repeated_segments_share_cells :
    let raw : RawInput := (NameMap.empty.insert "sdks" (.text " hl2, cs2,,hl2")).insert "targets"
      (.text "x86_64 ,x86_64, arm64")
    let r := Resolver.new .standard (.ofString "/work/mod")
    ∃ plan, (r.resolve (fun _ => false) raw).2 = .ok plan ∧
      plan.matrix = [("hl2", some "x86_64"), ("hl2", some "arm64"), ("cs2", some "x86_64"),
        ("cs2", some "arm64")] ∧
      plan.matrix.Nodup ∧ plan.matrix.count ("cs2", some "x86_64") = 1 := by
  intro raw r
  let plan : BuildPlan := ⟨.ofString "/work/mod", .ofString "/work/mod", ⟨["hl2", "cs2"]⟩,
    .explicit ⟨["x86_64", "arm64"]⟩, none, none, none, false, true⟩
  have h : (r.resolve (fun _ => false) raw).2 = .ok plan := by rfl
  obtain ⟨-, nodup, -, -, sdks, unique, exact_count, -⟩ := matrix_is_ordered_product h
  have sdks_asked : r.Asks raw "sdks" ["hl2", "cs2", "hl2"] :=
    ⟨_, _, rfl, rfl, (IdList.segmentsOf_iff _ _).mpr (by decide)⟩
  have archs_asked : r.Asks raw "targets" ["x86_64", "x86_64", "arm64"] :=
    ⟨_, _, rfl, rfl, (IdList.segmentsOf_iff _ _).mpr (by decide)⟩
  refine ⟨plan, h, rfl, nodup, ?_⟩
  rw [exact_count _ archs_asked, ← (unique _).mp sdks_asked]
  decide

end Resolver
end BuildFront
