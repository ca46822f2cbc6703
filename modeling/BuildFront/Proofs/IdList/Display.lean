import BuildFront.Proofs.IdList.Concatenation
import BuildFront.Proofs.Text.Stripped

/-!
The written form of a list of identifiers: what is read from a text is read again from its own
written form.
-/

namespace BuildFront
namespace IdList

/-- A text that can be told from its neighbours in a list written with commas. -/
structure IsItem (s : String) : Prop where
  nonempty : s ≠ ""
  noComma : ',' ∉ s.toList
  trimmed : Text.trim s.toList = s.toList

/-- A list as reading leaves it. -/
structure Tidy (l : IdList) : Prop where
  nonempty : l.items ≠ []
  nodup : l.items.Nodup
  items : ∀ item ∈ l.items, IsItem item

theorem isItem_of_mem_itemsOf {s item : String} (h : item ∈ itemsOf s) : IsItem item := by
  simp only [itemsOf, List.mem_filterMap, List.mem_map, Option.ite_none_left_eq_some,
    Option.some.injEq] at h
  obtain ⟨_, ⟨piece, hpiece, rfl⟩, hne, rfl⟩ := h
  refine ⟨?_, ?_, ?_⟩
  · simpa using hne
  · rw [String.toList_ofList]
    intro hmem
    exact not_mem_of_mem_splitOn hpiece (Text.mem_trim hmem)
  · rw [String.toList_ofList, Text.trim_trim]

theorem tidy_of_parse {s : String} {l : IdList} (h : parse s = .ok l) : l.Tidy := by
  obtain ⟨nonempty, hitems⟩ := (parse_eq_ok_iff s l).mp h
  refine ⟨nonempty, hitems ▸ (firstsOf_eraseDups _).nodup, fun item hitem => ?_⟩
  rw [hitems, List.mem_eraseDups] at hitem
  exact isItem_of_mem_itemsOf hitem

theorem IsItem.itemsOf_eq {item : String} (h : IsItem item) : itemsOf item = [item] := by
  have uncut : item.toList.splitOn ',' = [item.toList] := by
    have joined : ([','].intercalate [item.toList]).splitOn ',' = [item.toList] :=
      List.splitOn_intercalate ',' (by simpa using h.noComma) (by simp)
    simpa using joined
  simp [itemsOf, uncut, h.trimmed, h.nonempty]

theorem parse_display {l : IdList} (h : l.Tidy) : parse l.display = .ok l := by
  have items : itemsOf l.display = l.items := by
    rw [display, itemsOf_intercalate]
    calc l.items.flatMap itemsOf = l.items.flatMap ([·]) :=
          List.flatMap_congr fun item hitem => (h.items item hitem).itemsOf_eq
      _ = l.items := List.flatMap_singleton' l.items
  rw [parse_eq_ok_iff, items, (firstsOf_eraseDups l.items).eq_of_nodup h.nodup]
  exact ⟨h.nonempty, rfl⟩

end IdList
end BuildFront
