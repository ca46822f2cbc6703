import BuildFront.Text.Blank
import Mathlib.Data.List.DropRight
import Mathlib.Data.List.TakeWhile

/-!
A text without the blanks at its two ends: it begins and ends with a character that is not blank, or
it is empty, and there is one such part of every text.
-/

namespace BuildFront
namespace Text

structure Stripped (cs t : List Char) : Prop where
  cut : ∃ front back, cs = front ++ t ++ back ∧ (∀ c ∈ front, isBlank c = true) ∧
    ∀ c ∈ back, isBlank c = true
  begins : ∀ c, t.head? = some c → isBlank c = false
  ends : ∀ c, t.getLast? = some c → isBlank c = false

theorem trim_eq_rdropWhile (cs : List Char) :
    trim cs = (cs.dropWhile isBlank).rdropWhile isBlank := rfl

theorem not_isBlank_of_head? {cs : List Char} {c : Char}
    (h : (cs.dropWhile isBlank).head? = some c) : isBlank c = false := by
  have stops := List.head?_dropWhile_not isBlank cs
  rwa [h] at stops

theorem stripped_trim (cs : List Char) : Stripped cs (trim cs) := by
  refine ⟨⟨cs.takeWhile isBlank, (cs.dropWhile isBlank).rtakeWhile isBlank, ?_, ?_, ?_⟩, ?_, ?_⟩
  · rw [trim_eq_rdropWhile, List.append_assoc, List.rdropWhile_append_rtakeWhile,
      List.takeWhile_append_dropWhile]
  · exact fun c => List.mem_takeWhile_imp
  · exact fun c hc => List.mem_takeWhile_imp (List.mem_reverse.mp hc)
  · -- What is cut at the back takes nothing from the front, which begins with no blank by then.
    intro c hc
    obtain ⟨back, hback⟩ : trim cs <+: cs.dropWhile isBlank := List.rdropWhile_prefix isBlank _
    obtain ⟨rest, hrest⟩ := List.head?_eq_some_iff.mp hc
    apply not_isBlank_of_head?
    rw [← hback, hrest]
    rfl
  · intro c hc
    rw [trim, List.getLast?_reverse] at hc
    exact not_isBlank_of_head? hc

theorem Stripped.trim_eq {cs t : List Char} (h : Stripped cs t) : trim cs = t := by
  obtain ⟨⟨front, back, rfl, hfront, hback⟩, begins, ends⟩ := h
  have stops {l : List Char} (hl : ∀ c, l.head? = some c → isBlank c = false) :
      l.dropWhile isBlank = l := by
    cases l with
    | nil => rfl
    | cons c rest => simp [hl c rfl]
  rw [trim, List.append_assoc, List.dropWhile_append_of_pos hfront]
  by_cases ht : t = []
  · subst ht
    rw [List.nil_append, List.dropWhile_eq_nil_iff.mpr hback]
    rfl
  · have front_stays : (t ++ back).dropWhile isBlank = t ++ back := by
      apply stops
      rwa [List.head?_append_of_ne_nil t ht]
    have back_stays : t.reverse.dropWhile isBlank = t.reverse := by
      apply stops
      rwa [List.head?_reverse]
    rw [front_stays, List.reverse_append, List.dropWhile_append_of_pos, back_stays,
      List.reverse_reverse]
    exact fun c hc => hback c (List.mem_reverse.mp hc)

theorem Stripped.self {cs t : List Char} (h : Stripped cs t) : Stripped t t :=
  ⟨⟨[], [], by simp⟩, h.begins, h.ends⟩

theorem trim_trim (cs : List Char) : trim (trim cs) = trim cs :=
  (stripped_trim cs).self.trim_eq

theorem mem_trim {c : Char} {cs : List Char} (h : c ∈ trim cs) : c ∈ cs := by
  obtain ⟨front, back, hcut, -⟩ := (stripped_trim cs).cut
  rw [hcut, List.mem_append, List.mem_append]
  exact .inl (.inr h)

end Text
end BuildFront
