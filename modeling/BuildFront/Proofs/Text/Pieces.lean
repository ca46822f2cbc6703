import BuildFront.Text.Blank
import Mathlib.Data.List.TakeWhile

/-!
The pieces of a list between separators, and which texts are blank from end to end.
-/

namespace BuildFront

theorem exists_mem_splitOn_iff {α : Type u} [BEq α] [LawfulBEq α] (sep x : α) (l : List α) :
    (∃ piece ∈ l.splitOn sep, x ∈ piece) ↔ x ∈ l ∧ x ≠ sep := by
  induction l with
  | nil => simp
  | cons y rest ih =>
      rw [List.splitOn_cons_eq_if_modifyHead]
      by_cases h : y = sep
      · subst h
        have hx : (x = y ∨ x ∈ rest) ∧ x ≠ y ↔ x ∈ rest ∧ x ≠ y := by
          constructor
          · rintro ⟨rfl | hx, hne⟩
            · exact absurd rfl hne
            · exact ⟨hx, hne⟩
          · exact fun hx => ⟨.inr hx.1, hx.2⟩
        simpa [hx] using ih
      · obtain ⟨first, more, hsplit⟩ := List.exists_cons_of_ne_nil (List.splitOn_ne_nil sep rest)
        rw [hsplit] at ih ⊢
        simp only [beq_iff_eq, h, if_false, List.modifyHead_cons, List.mem_cons, exists_eq_or_imp]
          at ih ⊢
        constructor
        · rintro ((rfl | hx) | hx)
          · exact ⟨.inl rfl, h⟩
          · exact ⟨.inr (ih.mp (.inl hx)).1, (ih.mp (.inl hx)).2⟩
          · exact ⟨.inr (ih.mp (.inr hx)).1, (ih.mp (.inr hx)).2⟩
        · rintro ⟨rfl | hx, hne⟩
          · exact .inl (.inl rfl)
          · exact (ih.mpr ⟨hx, hne⟩).imp_left .inr

theorem not_mem_of_mem_splitOn {α : Type u} [BEq α] [LawfulBEq α] {sep : α} {l piece : List α}
    (h : piece ∈ l.splitOn sep) : sep ∉ piece :=
  fun hmem => ((exists_mem_splitOn_iff sep sep l).mp ⟨piece, h, hmem⟩).2 rfl

namespace Text

theorem trim_eq_nil_iff (cs : List Char) : trim cs = [] ↔ ∀ c ∈ cs, isBlank c = true := by
  rw [trim, List.reverse_eq_nil_iff, List.dropWhile_eq_nil_iff]
  constructor
  · intro h
    by_contra hne
    have hrest : cs.dropWhile isBlank ≠ [] := fun he => hne (List.dropWhile_eq_nil_iff.mp he)
    have hhead := List.head_dropWhile_not isBlank hrest
    rw [h _ (List.mem_reverse.mpr (List.head_mem hrest))] at hhead
    cases hhead
  · intro h c hc
    exact h c (List.dropWhile_suffix isBlank |>.subset (List.mem_reverse.mp hc))

theorem allBlank_iff (s : String) : allBlank s = true ↔ ∀ c ∈ s.toList, isBlank c = true :=
  List.all_eq_true

end Text
end BuildFront
