import BuildFront.Text.Blank
import Mathlib.Data.List.Basic

/-!
Texts of lines that are ended, each by a line feed.
-/

namespace BuildFront
namespace Text

def unlines (lines : List (List Char)) : List Char :=
  lines.flatMap (· ++ ['\n'])

theorem unlines_cons (line : List Char) (lines : List (List Char)) :
    unlines (line :: lines) = line ++ '\n' :: unlines lines := by
  simp [unlines]

theorem unlines_append (lines lines' : List (List Char)) :
    unlines (lines ++ lines') = unlines lines ++ unlines lines' :=
  List.flatMap_append

theorem splitOn_unlines {lines : List (List Char)} (h : ∀ line ∈ lines, '\n' ∉ line) :
    (unlines lines).splitOn '\n' = lines ++ [[]] := by
  induction lines with
  | nil => rfl
  | cons line lines ih =>
      rw [List.forall_mem_cons] at h
      rw [unlines_cons, List.splitOn_append_cons_self, List.splitOn_eq_singleton h.1, ih h.2]
      rfl

end Text
end BuildFront
