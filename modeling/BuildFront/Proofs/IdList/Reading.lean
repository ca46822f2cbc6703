import BuildFront.IdList
import BuildFront.Proofs.Text.Pieces

/-!
Which texts hold a list of identifiers: those with a character that is neither a comma nor blank.
-/

namespace BuildFront
namespace IdList

/-- A text in which nothing but commas and blanks stands. -/
def Vacant (s : String) : Prop :=
  ∀ c ∈ s.toList, c = ',' ∨ Text.isBlank c = true

theorem not_vacant_iff (s : String) :
    ¬Vacant s ↔ ∃ c ∈ s.toList, c ≠ ',' ∧ Text.isBlank c = false := by
  simp only [Vacant, not_forall, not_or, Bool.not_eq_true, exists_prop]

theorem itemsOf_eq_nil_iff (s : String) : itemsOf s = [] ↔ Vacant s := by
  rw [itemsOf, List.filterMap_eq_nil_iff, List.forall_mem_map]
  have blank (piece : List Char) :
      (if (Text.trim piece).isEmpty then none else some (String.ofList (Text.trim piece))) = none ↔
        ∀ c ∈ piece, Text.isBlank c = true := by
    rw [← Text.trim_eq_nil_iff, ← List.isEmpty_iff]
    split <;> simp_all
  simp only [blank]
  constructor
  · intro h c hc
    by_cases hcomma : c = ','
    · exact .inl hcomma
    · obtain ⟨piece, hpiece, hmem⟩ := (exists_mem_splitOn_iff ',' c s.toList).mpr ⟨hc, hcomma⟩
      exact .inr (h piece hpiece c hmem)
  · intro h piece hpiece c hmem
    obtain ⟨hc, hcomma⟩ := (exists_mem_splitOn_iff ',' c s.toList).mp ⟨piece, hpiece, hmem⟩
    exact (h c hc).resolve_left hcomma

theorem eraseDups_eq_nil_iff (l : List String) : l.eraseDups = [] ↔ l = [] := by
  cases l <;> simp [List.eraseDups_cons]

theorem parse_of_vacant {s : String} (h : Vacant s) : parse s = .error ⟨s⟩ := by
  rw [parse, (eraseDups_eq_nil_iff _).mpr ((itemsOf_eq_nil_iff s).mpr h)]

theorem parse_of_not_vacant {s : String} (h : ¬Vacant s) : ∃ l, parse s = .ok l := by
  rw [parse]
  split
  · next heq => exact absurd ((itemsOf_eq_nil_iff s).mp ((eraseDups_eq_nil_iff _).mp heq)) h
  · exact ⟨_, rfl⟩

theorem parse_eq_error_iff (s : String) (e : EmptyList) :
    parse s = .error e ↔ Vacant s ∧ e = ⟨s⟩ := by
  by_cases h : Vacant s
  · simp [parse_of_vacant h, h, eq_comm]
  · obtain ⟨l, hl⟩ := parse_of_not_vacant h
    simp [hl, h]

end IdList
end BuildFront
