import BuildFront.NameMap
import Mathlib.Data.List.Nodup

/-!
What maps from names answer after entries are laid over them, filled in from below, or selected from
a list, and which entry of a map comes first among those that satisfy a condition on names.
-/

namespace BuildFront

theorem find?_key_eq_some_iff {ι : Type u} {κ : Type v} [BEq κ] [LawfulBEq κ] {key : ι → κ}
    {l : List ι} (distinct : (l.map key).Nodup) (k : κ) (x : ι) :
    l.find? (fun y => key y == k) = some x ↔ x ∈ l ∧ key x = k := by
  constructor
  · intro h
    exact ⟨List.mem_of_find?_eq_some h, by simpa using List.find?_some h⟩
  · rintro ⟨hx, rfl⟩
    cases h : l.find? (fun y => key y == key x) with
    | none => simpa using List.find?_eq_none.mp h x hx
    | some y =>
        have hy : key y = key x := by simpa using List.find?_some h
        rw [List.inj_on_of_nodup_map distinct (List.mem_of_find?_eq_some h) hx hy]

namespace NameMap

variable {α : Type u} {β : Type v} {ι : Type w}

theorem lookup_eq_find? (name : String) (l : List (String × α)) :
    lookup name l = (l.find? (fun e => e.1 == name)).map (·.2) := by
  induction l with
  | nil => rfl
  | cons e rest ih => by_cases h : e.1 = name <;> simp [lookup, h, ih]

theorem nodup_names (m : NameMap α) : (m.entries.map (·.1)).Nodup := by
  rw [List.Nodup, List.pairwise_map]
  exact m.sorted.imp String.ne_of_lt

/-- Where each step puts in what `value?` finds under the key of its element, and the keys are
distinct, a name is answered from its own element, and from the map at the start where that element
has nothing to put in. -/
theorem get?_foldl_of_step {step : NameMap β → ι → NameMap β} {key : ι → String}
    {value? : ι → Option β}
    (hstep : ∀ acc x name, (step acc x).get? name =
      if key x = name then (value? x).or (acc.get? name) else acc.get? name)
    (l : List ι) (distinct : (l.map key).Nodup) (m : NameMap β) (name : String) :
    (l.foldl step m).get? name =
      ((l.find? (fun x => key x == name)).bind value?).or (m.get? name) := by
  induction l generalizing m with
  | nil => rfl
  | cons x rest ih =>
      rw [List.map_cons, List.nodup_cons] at distinct
      rw [List.foldl_cons, ih distinct.2, hstep]
      by_cases h : key x = name
      · subst h
        have absent : rest.find? (fun y => key y == key x) = none := by
          rw [List.find?_eq_none]
          intro y hy heq
          exact distinct.1 (List.mem_map.mpr ⟨y, hy, by simpa using heq⟩)
        simp [absent]
      · simp [h]

theorem get?_override (m upper : NameMap α) (name : String) :
    (m.override upper).get? name = (upper.get? name).or (m.get? name) := by
  have answer : upper.get? name = (upper.entries.find? (fun e => e.1 == name)).bind (some ·.2) :=
    (lookup_eq_find? name upper.entries).trans Option.map_eq_bind
  rw [answer, override, get?_foldl_of_step _ upper.entries upper.nodup_names]
  intro acc e other
  rw [get?_insert, Option.some_or]

theorem get?_fillFrom (m lower : NameMap α) (name : String) :
    (m.fillFrom lower).get? name = (m.get? name).or (lower.get? name) := by
  have fill (l : List (String × α)) (m : NameMap α) :
      (l.foldl (fun acc e => if acc.contains e.1 then acc else acc.insert e.1 e.2) m).get? name =
        (m.get? name).or (lookup name l) := by
    induction l generalizing m with
    | nil => simp [lookup]
    | cons e rest ih =>
        rw [List.foldl_cons, ih]
        cases hm : m.get? e.1 <;> by_cases h : e.1 = name <;> simp_all [contains, lookup]
  exact fill lower.entries m

theorem get?_eq_some_iff (m : NameMap α) (name : String) (value : α) :
    m.get? name = some value ↔ (name, value) ∈ m.entries := by
  rw [get?, lookup_eq_find?, Option.map_eq_some_iff]
  constructor
  · rintro ⟨e, he, rfl⟩
    obtain ⟨hmem, rfl⟩ := (find?_key_eq_some_iff m.nodup_names name e).mp he
    exact hmem
  · intro h
    exact ⟨(name, value), (find?_key_eq_some_iff m.nodup_names name _).mpr ⟨h, rfl⟩, rfl⟩

theorem contains_eq_true_iff (m : NameMap α) (name : String) :
    m.contains name = true ↔ ∃ value, m.get? name = some value :=
  Option.isSome_iff_exists

/-- The first entry whose name satisfies a condition is the one with the least such name. -/
theorem find?_entries_eq_some_iff (m : NameMap α) (p : String → Bool) (e : String × α) :
    m.entries.find? (fun e => p e.1) = some e ↔
      e ∈ m.entries ∧ p e.1 = true ∧ ∀ e' ∈ m.entries, p e'.1 = true → e.1 ≤ e'.1 := by
  have least {e : String × α} (h : m.entries.find? (fun e => p e.1) = some e) :
      ∀ e' ∈ m.entries, p e'.1 = true → e.1 ≤ e'.1 := by
    obtain ⟨_, before, after, happ, hbefore⟩ := List.find?_eq_some_iff_append.mp h
    intro e' he' hp
    have sorted := m.sorted
    rw [happ] at he' sorted
    rcases List.mem_append.mp he' with he' | he'
    · exact absurd hp (by simpa using hbefore e' he')
    · rcases List.mem_cons.mp he' with rfl | he'
      · exact String.le_refl _
      · have hlt := (List.pairwise_cons.mp (List.pairwise_append.mp sorted).2.1).1 e' he'
        exact String.not_lt.mp (String.lt_asymm hlt)
  constructor
  · intro h
    exact ⟨List.mem_of_find?_eq_some h, by simpa using List.find?_some h, least h⟩
  · rintro ⟨he, hp, hmin⟩
    cases h : m.entries.find? (fun e => p e.1) with
    | none => exact absurd hp (by simpa using List.find?_eq_none.mp h e he)
    | some e' =>
        have he' := List.mem_of_find?_eq_some h
        have hp' : p e'.1 = true := by simpa using List.find?_some h
        have heq := String.le_antisymm (least h e he hp) (hmin e' he' hp')
        rw [List.inj_on_of_nodup_map m.nodup_names he' he heq]

/-- Maps with the same answers are the same. -/
theorem ext_get? {m m' : NameMap α} (h : ∀ name, m.get? name = m'.get? name) : m = m' := by
  have same (e : String × α) : e ∈ m.entries ↔ e ∈ m'.entries := by
    rw [← get?_eq_some_iff, ← get?_eq_some_iff, h]
  have perm : m.entries.Perm m'.entries :=
    (List.perm_ext_iff_of_nodup m.nodup_names.of_map m'.nodup_names.of_map).mpr same
  have entries : m.entries = m'.entries := by
    refine perm.eq_of_pairwise ?_ m.sorted m'.sorted
    intro e e' _ _ hlt hgt
    exact absurd hgt (String.lt_asymm hlt)
  cases m
  cases m'
  cases entries
  rfl

end NameMap
end BuildFront
