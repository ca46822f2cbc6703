import BuildFront.Diagnostic
import BuildFront.Proofs.Text.Colour
import BuildFront.Proofs.Text.Lines
import Mathlib.Data.List.Forall2

/-!
A printed message line by line. Its lines tell by how they begin what they are about, so that no
text within one can be taken for the layout around it.
-/

namespace BuildFront
namespace Diagnostic

def headline (color : Bool) (severity : Severity) (message : String) : String :=
  label color severity.colour severity.label ++ ": " ++ message

def placeLine (place : String) : String :=
  "  --> " ++ place

def contextLine (text : String) : String :=
  "  = " ++ text

def suggestionLine (n : Nat) (text : String) : String :=
  "  " ++ toString n ++ ". " ++ text

def adviceLines (color : Bool) : List String → List String
  | [] => []
  | s :: rest => "" :: (label color "32" "help" ++ ": consider:") ::
      (s :: rest).mapIdx (fun i text => suggestionLine (i + 1) text)

/-- What a message is about, as it is displayed. -/
def place (d : Diagnostic) : Option String :=
  d.location.map Path.display

/-- The lines of a printed message. -/
def lines (d : Diagnostic) (color : Bool) : List String :=
  headline color d.severity d.message :: (d.place.toList.map placeLine ++
    d.contexts.map contextLine ++ adviceLines color d.suggestions)

/-- A text that stays on its line, and that is shown as it is. -/
def Plain (s : String) : Prop :=
  '\n' ∉ s.toList ∧ Text.escape ∉ s.toList

instance : DecidablePred Plain :=
  fun s => inferInstanceAs (Decidable ('\n' ∉ s.toList ∧ Text.escape ∉ s.toList))

structure Clean (d : Diagnostic) : Prop where
  message : Plain d.message
  place : ∀ s, d.place = some s → Plain s
  contexts : ∀ s ∈ d.contexts, Plain s
  suggestions : ∀ s ∈ d.suggestions, Plain s

/-! ### Printing by lines -/

theorem numbered_eq (n : Nat) (suggestions : List String) :
    (numbered n suggestions).toList =
      Text.unlines
        ((suggestions.mapIdx fun i s => suggestionLine (n + i) s).map String.toList) := by
  induction suggestions generalizing n with
  | nil => rfl
  | cons s rest ih =>
      simp [numbered, ih, Text.unlines_cons, suggestionLine, Nat.add_assoc, Nat.add_comm 1]

theorem contextLines_eq (contexts : List String) :
    (contextLines contexts).toList =
      Text.unlines ((contexts.map contextLine).map String.toList) := by
  induction contexts with
  | nil => rfl
  | cons c rest ih =>
      simp only [contextLines, String.toList_append, ih, List.map_cons, Text.unlines_cons,
        contextLine]
      simp

theorem locationLine_eq (d : Diagnostic) :
    (locationLine d.location).toList =
      Text.unlines ((d.place.toList.map placeLine).map String.toList) := by
  rw [place]
  cases d.location with
  | none => rfl
  | some p => simp [locationLine, Text.unlines, placeLine]

theorem suggestionLines_eq (color : Bool) (suggestions : List String) :
    (suggestionLines color suggestions).toList =
      Text.unlines ((adviceLines color suggestions).map String.toList) := by
  cases suggestions with
  | nil => rfl
  | cons s rest =>
      have numbers := numbered_eq 1 (s :: rest)
      simp only [Nat.add_comm 1] at numbers
      simp only [suggestionLines, adviceLines, String.toList_append, numbers, List.map_cons,
        Text.unlines_cons]
      simp

theorem format_eq_unlines (d : Diagnostic) (color : Bool) :
    (d.format color).toList = Text.unlines ((d.lines color).map String.toList) := by
  simp only [format, lines, String.toList_append, locationLine_eq, contextLines_eq,
    suggestionLines_eq, List.map_cons, List.map_append, Text.unlines_cons, Text.unlines_append,
    headline]
  simp

/-! ### Lines that stay lines -/

theorem plain_append (s t : String) : Plain (s ++ t) ↔ Plain s ∧ Plain t := by
  simp only [Plain, String.toList_append, List.mem_append, not_or]
  tauto

theorem plain_toString (n : Nat) : Plain (toString n) := by
  have digits : ∀ c ∈ (toString n).toList, c.isDigit = true := by
    intro c hc
    rw [Nat.toString_eq_repr, Nat.toList_repr] at hc
    exact Nat.isDigit_of_mem_toDigits (by decide) (by decide) hc
  exact ⟨fun h => absurd (digits _ h) (by decide), fun h => absurd (digits _ h) (by decide)⟩

theorem plain_placeLine {s : String} (h : Plain s) : Plain (placeLine s) :=
  (plain_append _ _).mpr ⟨by decide, h⟩

theorem plain_contextLine {s : String} (h : Plain s) : Plain (contextLine s) :=
  (plain_append _ _).mpr ⟨by decide, h⟩

theorem plain_suggestionLine {s : String} (n : Nat) (h : Plain s) : Plain (suggestionLine n s) := by
  simp only [suggestionLine, plain_append]
  exact ⟨⟨⟨by decide, plain_toString n⟩, by decide⟩, h⟩

theorem plain_headline (severity : Severity) {message : String} (h : Plain message) :
    Plain (headline false severity message) := by
  simp only [headline, plain_append]
  refine ⟨⟨?_, by decide⟩, h⟩
  cases severity <;> decide

theorem plain_numbered {suggestions : List String} (h : ∀ s ∈ suggestions, Plain s) :
    ∀ l ∈ suggestions.mapIdx (fun i text => suggestionLine (i + 1) text), Plain l := by
  intro l hl
  obtain ⟨i, hi, rfl⟩ := List.mem_mapIdx.mp hl
  exact plain_suggestionLine _ (h _ (List.getElem_mem hi))

theorem Clean.middle {d : Diagnostic} (h : Clean d) :
    ∀ l ∈ d.place.toList.map placeLine ++ d.contexts.map contextLine, Plain l := by
  rw [List.forall_mem_append, List.forall_mem_map, List.forall_mem_map]
  constructor
  · exact fun s hs => plain_placeLine (h.place s (Option.mem_toList.mp hs))
  · exact fun s hs => plain_contextLine (h.contexts s hs)

theorem Clean.lines {d : Diagnostic} (h : Clean d) : ∀ l ∈ d.lines false, Plain l := by
  rw [Diagnostic.lines, List.forall_mem_cons, List.forall_mem_append]
  refine ⟨plain_headline _ h.message, h.middle, ?_⟩
  have numbered := plain_numbered h.suggestions
  cases hs : d.suggestions with
  | nil => simp [adviceLines]
  | cons s rest =>
      rw [hs] at numbered
      rw [adviceLines, List.forall_mem_cons, List.forall_mem_cons]
      exact ⟨by decide, by decide, numbered⟩

theorem Clean.splitOn_format {d : Diagnostic} (h : Clean d) :
    (d.format false).toList.splitOn '\n' = (d.lines false).map String.toList ++ [[]] := by
  rw [format_eq_unlines]
  refine Text.splitOn_unlines ?_
  rw [List.forall_mem_map]
  exact fun l hl => (h.lines l hl).1

/-! ### Lines without their colours -/

theorem shows_label {colour word : String}
    (hcolour : colour.toList.all Text.isParameter = true) (hword : Plain word) :
    Text.Shows (label true colour word).toList word.toList := by
  have on : Text.Shows (Text.escape :: '[' :: (("1;" ++ colour).toList ++ ['m'])) [] := by
    refine .colour ?_
    rw [String.toList_append, List.all_append, hcolour]
    rfl
  have off : Text.Shows (Text.escape :: '[' :: (['0'] ++ ['m'])) [] := .colour rfl
  have painted : (label true colour word).toList =
      (Text.escape :: '[' :: (("1;" ++ colour).toList ++ ['m'])) ++ word.toList ++
        (Text.escape :: '[' :: (['0'] ++ ['m'])) := by
    simp [label, paint, Text.escape]
  rw [painted]
  simpa only [List.nil_append, List.append_nil] using (on.append (.of_not_mem hword.2)).append off

theorem shows_headline (severity : Severity) {message : String} (h : Plain message) :
    Text.Shows (headline true severity message).toList
      (headline false severity message).toList := by
  simp only [headline, String.toList_append]
  refine .append (.append ?_ (.of_not_mem (by decide))) (.of_not_mem h.2)
  cases severity <;> exact shows_label (by decide) (by decide)

/-- Line by line a coloured message shows the plain one. -/
theorem Clean.shows {d : Diagnostic} (h : Clean d) :
    List.Forall₂ (fun a b : String => Text.Shows a.toList b.toList) (d.lines true)
      (d.lines false) := by
  have same {ls : List String} (hls : ∀ l ∈ ls, Plain l) :
      List.Forall₂ (fun a b : String => Text.Shows a.toList b.toList) ls ls :=
    List.forall₂_same.mpr fun l hl => .of_not_mem (hls l hl).2
  refine .cons (shows_headline _ h.message) (List.rel_append (same h.middle) ?_)
  have numbered := same (plain_numbered h.suggestions)
  cases hs : d.suggestions with
  | nil => exact .nil
  | cons s rest =>
      rw [hs] at numbered
      refine .cons (.of_not_mem (by decide)) (.cons ?_ numbered)
      rw [String.toList_append, String.toList_append]
      exact (shows_label (by decide) (by decide)).append (.of_not_mem (by decide))

theorem Clean.uncolour_format {d : Diagnostic} (h : Clean d) :
    Text.uncolour (d.format true).toList = (d.format false).toList := by
  rw [format_eq_unlines, format_eq_unlines]
  refine (Text.Shows.unlines ?_).uncolour_eq
  rw [List.forall₂_map_left_iff, List.forall₂_map_right_iff]
  exact h.shows

end Diagnostic
end BuildFront
