import BuildFront.Proofs.IdList.Firsts
import BuildFront.Proofs.IdList.Reading

/-!
Several texts read as one. With commas in between, the items of the texts come one after another; so
reading them all is reading each in turn, on from the items seen so far.
-/

namespace BuildFront
namespace IdList

theorem itemsOf_append_comma (s t : String) : itemsOf (s ++ "," ++ t) = itemsOf s ++ itemsOf t := by
  have joined : (s ++ "," ++ t).toList = s.toList ++ ',' :: t.toList := by
    rw [String.toList_append, String.toList_append, List.append_assoc]
    rfl
  rw [itemsOf, joined, List.splitOn_append_cons_self, List.map_append, List.filterMap_append]
  rfl

theorem itemsOf_intercalate (texts : List String) :
    itemsOf (",".intercalate texts) = texts.flatMap itemsOf := by
  induction texts with
  | nil => rfl
  | cons s rest ih =>
      cases rest with
      | nil => simp
      | cons t more =>
          rw [String.intercalate_cons_cons, itemsOf_append_comma, ih]
          rfl

/-- The list of the items that were read from a text, or the error that there are none. -/
def ofRead (s : String) : List String → Except EmptyList IdList
  | [] => .error ⟨s⟩
  | item :: rest => .ok ⟨item :: rest⟩

theorem ofRead_eq_ok_iff (s : String) (items : List String) (l : IdList) :
    ofRead s items = .ok l ↔ l.items ≠ [] ∧ l.items = items := by
  obtain ⟨kept⟩ := l
  cases items with
  | nil => simp +contextual [ofRead]
  | cons item rest => simp +contextual [ofRead, eq_comm]

theorem parse_eq_ofRead (s : String) : parse s = ofRead s (itemsOf s).eraseDups := by
  rw [parse]
  cases (itemsOf s).eraseDups <;> rfl

theorem parse_eq_ok_iff (s : String) (l : IdList) :
    parse s = .ok l ↔ l.items ≠ [] ∧ l.items = (itemsOf s).eraseDups := by
  rw [parse_eq_ofRead, ofRead_eq_ok_iff]

/-- Reading goes on: the items of a text that were not seen so far are put at the end. -/
def absorb (seen : List String) (text : String) : List String :=
  (itemsOf text).foldl keepNew seen

theorem ofTexts_eq_foldl (texts : List String) :
    ofTexts texts = ofRead (",".intercalate texts) (texts.foldl absorb []) := by
  rw [ofTexts, parse_eq_ofRead, itemsOf_intercalate, eraseDups_eq_foldl_keepNew, List.foldl_flatMap]
  rfl

/-- The items of a text, none if it is not a list. -/
def listed (s : String) : List String :=
  match parse s with
  | .ok l => l.items
  | .error _ => []

theorem listed_eq (s : String) : listed s = (itemsOf s).eraseDups := by
  rw [listed, parse_eq_ofRead]
  cases (itemsOf s).eraseDups <;> rfl

theorem parse_append_comma (s t : String) :
    parse (s ++ "," ++ t) =
      ofRead (s ++ "," ++ t) (listed s ++ (listed t).filter (· ∉ listed s)) := by
  rw [parse_eq_ofRead, itemsOf_append_comma, eraseDups_append_eq, listed_eq, listed_eq]
  simp

end IdList
end BuildFront
