import BuildFront.Proofs.IdList.Display

/-!
What reading a list comes to, said without reading: a text is cut at its commas, the pieces are
stripped of blanks at both ends, those left empty are no segments, and of equal segments the first
is kept.
-/

namespace BuildFront
namespace IdList

/-- The segments of a text: what stands between its commas, stripped of blanks, unless nothing is
left of it. -/
def SegmentsOf (s : String) (segments : List String) : Prop :=
  ∃ pieces stripped : List (List Char), pieces ≠ [] ∧ (∀ piece ∈ pieces, ',' ∉ piece) ∧
    [','].intercalate pieces = s.toList ∧ List.Forall₂ Text.Stripped pieces stripped ∧
    segments.map String.toList = stripped.filter (· ≠ [])

theorem map_toList_itemsOf (s : String) :
    (itemsOf s).map String.toList =
      ((s.toList.splitOn ',').map Text.trim).filter (· ≠ []) := by
  rw [itemsOf, List.map_filterMap, ← List.filterMap_eq_filter]
  congr 1
  funext cs
  cases cs <;> simp [Option.guard]

theorem segmentsOf_iff (s : String) (segments : List String) :
    SegmentsOf s segments ↔ segments = itemsOf s := by
  constructor
  · rintro ⟨pieces, stripped, hne, hcomma, hs, hstripped, hsegments⟩
    have split : s.toList.splitOn ',' = pieces := by
      rw [← hs, List.splitOn_intercalate ',' hcomma hne]
    have trimmed : pieces.map Text.trim = stripped := by
      rw [← List.forall₂_eq_eq_eq, List.forall₂_map_left_iff]
      exact hstripped.imp fun _ _ h => h.trim_eq
    rw [← trimmed, ← split, ← map_toList_itemsOf] at hsegments
    exact List.map_injective_iff.mpr (fun _ _ => String.toList_injective) hsegments
  · rintro rfl
    refine ⟨s.toList.splitOn ',', (s.toList.splitOn ',').map Text.trim, ?_, ?_, ?_, ?_, ?_⟩
    · exact List.splitOn_ne_nil ',' _
    · exact fun piece => not_mem_of_mem_splitOn
    · exact List.intercalate_splitOn ','
    · rw [List.forall₂_map_right_iff, List.forall₂_same]
      exact fun piece _ => Text.stripped_trim piece
    · exact map_toList_itemsOf s

theorem IsItem.stripped {item : String} (h : IsItem item) :
    Text.Stripped item.toList item.toList := by
  have strips := Text.stripped_trim item.toList
  rwa [h.trimmed] at strips

/-- A text is refused, and told back unchanged, if it has nothing in it but commas and blanks, which
is to say no segments. The list read from any other text has each of its segments once, in the order
in which they come up. -/
theorem parse_keeps_first_segments (s : String) :
    ∃ segments, (∀ other, SegmentsOf s other ↔ other = segments) ∧
      (Vacant s ↔ segments = []) ∧
      (∀ e, parse s = .error e ↔ Vacant s ∧ e = ⟨s⟩) ∧
      ((∃ l, parse s = .ok l) ↔ ¬Vacant s) ∧
      ∀ l, parse s = .ok l →
        FirstsOf segments l.items ∧ l.items ≠ [] ∧
        (∀ item ∈ l.items, item ≠ "" ∧ ',' ∉ item.toList ∧
          (∀ c, item.toList.head? = some c → Text.isBlank c = false) ∧
          ∀ c, item.toList.getLast? = some c → Text.isBlank c = false) ∧
        l.items.Nodup ∧ (∀ x, x ∈ l.items ↔ x ∈ segments) ∧
        ∀ x ∈ segments, ∀ y ∈ segments,
          l.items.idxOf x < l.items.idxOf y ↔ segments.idxOf x < segments.idxOf y := by
  refine ⟨itemsOf s, segmentsOf_iff s, (itemsOf_eq_nil_iff s).symm, parse_eq_error_iff s, ?_, ?_⟩
  · constructor
    · rintro ⟨l, hl⟩ hvacant
      rw [parse_of_vacant hvacant] at hl
      cases hl
    · exact parse_of_not_vacant
  · intro l hl
    have tidy := tidy_of_parse hl
    have firsts : FirstsOf (itemsOf s) l.items := by
      rw [((parse_eq_ok_iff s l).mp hl).2]
      exact firstsOf_eraseDups (itemsOf s)
    refine ⟨firsts, tidy.nonempty, ?_, firsts.nodup, firsts.mem_iff, ?_⟩
    · intro item hitem
      have hitem := tidy.items item hitem
      exact ⟨hitem.nonempty, hitem.noComma, hitem.stripped.begins, hitem.stripped.ends⟩
    · exact fun x hx y hy => firsts.idxOf_lt_iff hx hy

/-- Blanks of every kind are cut off at the ends and kept in between, and what comes up again is
left out. -/
theorem first_segments_sample :
    let s := " x86 ,,\tarm 64\u3000, x86,\u00a0,ppc"
    ∃ l, parse s = .ok l ∧ l = ⟨["x86", "arm 64", "ppc"]⟩ ∧ ¬Vacant s ∧
      SegmentsOf s ["x86", "arm 64", "x86", "ppc"] ∧
      FirstsOf ["x86", "arm 64", "x86", "ppc"] l.items := by
  intro s
  have hl : parse s = .ok ⟨["x86", "arm 64", "ppc"]⟩ := by decide
  obtain ⟨segments, unique, -, -, accepted, kept⟩ := parse_keeps_first_segments s
  have hsegments : SegmentsOf s ["x86", "arm 64", "x86", "ppc"] :=
    (segmentsOf_iff s _).mpr (by decide)
  have same := (unique _).mp hsegments
  refine ⟨_, hl, rfl, accepted.mp ⟨_, hl⟩, hsegments, ?_⟩
  rw [same]
  exact (kept _ hl).1

end IdList
end BuildFront
