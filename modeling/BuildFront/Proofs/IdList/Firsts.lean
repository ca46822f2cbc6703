import Mathlib.Data.List.Induction
import Mathlib.Data.List.Nodup

/-!
Keeping the first of equal items. Going through a list from the front, an item is kept if it did not
come up before: what is kept has no item twice, lacks none, and has them in the order in which they
came up first.
-/

namespace BuildFront

variable {α : Type u}

/-- What is left of a list without the items that came up before. -/
inductive FirstsOf : List α → List α → Prop where
  | nil : FirstsOf [] []
  | fresh {l kept item} : FirstsOf l kept → item ∉ l → FirstsOf (l ++ [item]) (kept ++ [item])
  | again {l kept item} : FirstsOf l kept → item ∈ l → FirstsOf (l ++ [item]) kept

namespace FirstsOf

variable {l kept : List α}

theorem mem_iff (h : FirstsOf l kept) (x : α) : x ∈ kept ↔ x ∈ l := by
  induction h with
  | nil => rfl
  | fresh _ _ ih => simp only [List.mem_append, ih]
  | again _ hitem ih =>
      rw [ih, List.mem_append, List.mem_singleton, or_iff_left_of_imp]
      rintro rfl
      exact hitem

theorem nodup (h : FirstsOf l kept) : kept.Nodup := by
  induction h with
  | nil => exact .nil
  | fresh h hitem ih => exact ih.append (List.nodup_singleton _) (by simpa [h.mem_iff] using hitem)
  | again _ _ ih => exact ih

theorem sublist (h : FirstsOf l kept) : kept.Sublist l := by
  induction h with
  | nil => exact .slnil
  | fresh _ _ ih => exact ih.append_right _
  | again _ _ ih => exact ih.trans (List.sublist_append_left _ _)

theorem eq_of_nodup (h : FirstsOf l kept) (hl : l.Nodup) : kept = l :=
  h.sublist.eq_of_length ((List.perm_ext_iff_of_nodup h.nodup hl).mpr h.mem_iff).length_eq

/-- Of two items the one that came up first stands first. -/
theorem idxOf_lt_iff [BEq α] [LawfulBEq α] (h : FirstsOf l kept) {x y : α} (hx : x ∈ l)
    (hy : y ∈ l) : kept.idxOf x < kept.idxOf y ↔ l.idxOf x < l.idxOf y := by
  induction h with
  | nil => cases hx
  | @fresh l kept item h hitem ih =>
      have bound {z : α} (hz : z ∈ l) : l.idxOf z < l.length ∧ kept.idxOf z < kept.length :=
        ⟨List.idxOf_lt_length_of_mem hz, List.idxOf_lt_length_of_mem ((h.mem_iff z).mpr hz)⟩
      simp only [List.idxOf_append, h.mem_iff]
      by_cases hxl : x ∈ l <;> by_cases hyl : y ∈ l
      · simpa only [hxl, hyl, if_true] using ih hxl hyl
      · have := bound hxl
        simp only [hxl, hyl, if_true, if_false]
        omega
      · have := bound hyl
        simp only [hxl, hyl, if_true, if_false]
        omega
      · have : x = item ∧ y = item := by simpa [hxl, hyl] using And.intro hx hy
        simp [this]
  | @again l kept item _ hitem ih =>
      have seen {z : α} (hz : z ∈ l ++ [item]) : z ∈ l := by
        rcases List.mem_append.mp hz with hz | hz
        · exact hz
        · exact List.mem_singleton.mp hz ▸ hitem
      rw [List.idxOf_append_of_mem (seen hx), List.idxOf_append_of_mem (seen hy)]
      exact ih (seen hx) (seen hy)

end FirstsOf

variable [BEq α] [LawfulBEq α]

/-- Take an item to those seen so far, unless it is one of them. -/
def keepNew (seen : List α) (item : α) : List α :=
  if seen.contains item then seen else seen ++ [item]

theorem eraseDups_concat (l : List α) (item : α) :
    (l ++ [item]).eraseDups = keepNew l.eraseDups item := by
  rw [List.eraseDups_append, keepNew, List.removeAll]
  by_cases h : item ∈ l <;> simp [h, List.eraseDups_cons]

theorem firstsOf_eraseDups (l : List α) : FirstsOf l l.eraseDups := by
  induction l using List.reverseRecOn with
  | nil => exact .nil
  | append_singleton l item ih =>
      rw [eraseDups_concat, keepNew]
      split
      · next h => exact .again ih (by simpa using h)
      · next h => exact .fresh ih (by simpa using h)

theorem eraseDups_eq_foldl_keepNew (l : List α) : l.eraseDups = l.foldl keepNew [] := by
  induction l using List.reverseRecOn with
  | nil => rfl
  | append_singleton l item ih => rw [eraseDups_concat, List.foldl_concat, ih]

theorem eraseDups_filter (p : α → Bool) (l : List α) :
    (l.filter p).eraseDups = l.eraseDups.filter p := by
  induction l using List.reverseRecOn with
  | nil => rfl
  | append_singleton l item ih =>
      rw [List.filter_append, eraseDups_concat, keepNew]
      cases hp : p item with
      | false =>
          rw [List.filter_singleton, hp, cond_false, List.append_nil, ih]
          split <;> simp [hp]
      | true =>
          rw [List.filter_singleton, hp, cond_true, eraseDups_concat, ih, keepNew]
          split <;> simp_all

/-- What is kept of two lists in a row: all that is kept of the first, and what the second adds. -/
theorem eraseDups_append_eq (l more : List α) :
    (l ++ more).eraseDups =
      l.eraseDups ++ more.eraseDups.filter (fun item => !l.eraseDups.contains item) := by
  rw [List.eraseDups_append, List.removeAll, eraseDups_filter]
  congr 2
  funext item
  simp

end BuildFront
