import BuildFront.Proofs.Diagnostic.Layout
import Mathlib.Data.List.Induction

/-!
What a printed message tells. It is read back line by line: the headline gives severity and message,
an arrow the place, an equals sign a context, and after an empty line come the suggestions in order.
Colour adds nothing to it and hides nothing of it.
-/

namespace BuildFront
namespace Diagnostic

/-- What a message is built up with. -/
inductive Addition where
  | context (text : String)
  | suggestion (text : String)
  | location (path : Path)

namespace Addition

def context? : Addition → Option String
  | .context text => some text
  | _ => none

def suggestion? : Addition → Option String
  | .suggestion text => some text
  | _ => none

def location? : Addition → Option Path
  | .location path => some path
  | _ => none

end Addition

def add (d : Diagnostic) : Addition → Diagnostic
  | .context text => d.withContext text
  | .suggestion text => d.withSuggestion text
  | .location path => d.withLocation path

def build (severity : Severity) (message : String) (additions : List Addition) : Diagnostic :=
  additions.foldl add (ofSeverity severity message)

/-- Two messages tell the same. -/
structure Alike (d d' : Diagnostic) : Prop where
  severity : d.severity = d'.severity
  message : d.message = d'.message
  place : d.place = d'.place
  contexts : d.contexts = d'.contexts
  suggestions : d.suggestions = d'.suggestions

/-- A message has what was added to it, in order, and of the locations the last one. -/
structure Holds (d : Diagnostic) (severity : Severity) (message : String)
    (additions : List Addition) : Prop where
  severity : d.severity = severity
  message : d.message = message
  location : d.location = additions.reverse.findSome? Addition.location?
  contexts : d.contexts = additions.filterMap Addition.context?
  suggestions : d.suggestions = additions.filterMap Addition.suggestion?

theorem Holds.add {d : Diagnostic} {severity : Severity} {message : String}
    {additions : List Addition} (h : Holds d severity message additions) (addition : Addition) :
    Holds (d.add addition) severity message (additions ++ [addition]) := by
  obtain ⟨rfl, rfl, hlocation, hcontexts, hsuggestions⟩ := h
  cases addition with
  | context text | suggestion text | location path =>
      exact ⟨rfl, rfl,
        by simp [Diagnostic.add, withContext, withSuggestion, withLocation, hlocation,
          List.findSome?_cons, Addition.location?],
        by simp [Diagnostic.add, withContext, withSuggestion, withLocation, hcontexts,
          Addition.context?],
        by simp [Diagnostic.add, withContext, withSuggestion, withLocation, hsuggestions,
          Addition.suggestion?]⟩

theorem holds_build (severity : Severity) (message : String) (additions : List Addition) :
    Holds (build severity message additions) severity message additions := by
  induction additions using List.reverseRecOn with
  | nil => exact ⟨rfl, rfl, rfl, rfl, rfl⟩
  | append_singleton additions addition ih =>
      rw [build, List.foldl_concat]
      exact ih.add addition

/-! ### Reading the lines back -/

/-- The character by which the lines below a headline are told apart. -/
def mark (l : String) : Option Char :=
  l.toList[2]?

theorem mark_placeLine (s : String) : mark (placeLine s) = some '-' := by
  simp [mark, placeLine]

theorem mark_contextLine (s : String) : mark (contextLine s) = some '=' := by
  simp [mark, contextLine]

theorem placeLine_inj {s t : String} (h : placeLine s = placeLine t) : s = t := by
  simpa [placeLine, ← String.toList_inj] using h

theorem contextLine_inj {s t : String} (h : contextLine s = contextLine t) : s = t := by
  simpa [contextLine, ← String.toList_inj] using h

theorem suggestionLine_inj {n : Nat} {s t : String} (h : suggestionLine n s = suggestionLine n t) :
    s = t := by
  simpa [suggestionLine, ← String.toList_inj] using h

theorem headline_inj {s s' : Severity} {m m' : String}
    (h : headline false s m = headline false s' m') : s = s' ∧ m = m' := by
  rw [← String.toList_inj] at h
  cases s <;> cases s' <;> simp [headline, label, Severity.label, String.toList_inj] at h ⊢
  all_goals exact h

theorem mapIdx_inj {α : Type u} {β : Type v} {f : Nat → α → β} (hf : ∀ i, Function.Injective (f i))
    {l l' : List α} (h : l.mapIdx f = l'.mapIdx f) : l = l' := by
  refine List.ext_getElem? fun i => ?_
  have same := congrArg (·[i]?) h
  simp only [List.getElem?_mapIdx] at same
  exact Option.map_injective (hf i) same

theorem adviceLines_inj {ss ts : List String} (h : adviceLines false ss = adviceLines false ts) :
    ss = ts := by
  cases ss with
  | nil =>
      cases ts with
      | nil => rfl
      | cons => cases h
  | cons s ss =>
      cases ts with
      | nil => cases h
      | cons t ts =>
          have injective (i : Nat) :
              Function.Injective fun text => suggestionLine (i + 1) text :=
            fun _ _ => suggestionLine_inj
          rw [adviceLines, adviceLines, List.cons.injEq, List.cons.injEq] at h
          exact mapIdx_inj injective h.2.2

theorem mark_of_adviceLines {color : Bool} {ss : List String} {l : String} {rest : List String}
    (h : adviceLines color ss = l :: rest) : mark l = none := by
  cases ss with
  | nil => cases h
  | cons s ss =>
      cases h
      rfl

theorem contexts_inj {cs ds ss ts : List String}
    (h : cs.map contextLine ++ adviceLines false ss = ds.map contextLine ++ adviceLines false ts) :
    cs = ds ∧ ss = ts := by
  induction cs generalizing ds with
  | nil =>
      cases ds with
      | nil => exact ⟨rfl, adviceLines_inj h⟩
      | cons d ds =>
          have unmarked := mark_of_adviceLines (l := contextLine d) h
          rw [mark_contextLine] at unmarked
          cases unmarked
  | cons c cs ih =>
      cases ds with
      | nil =>
          have unmarked := mark_of_adviceLines (l := contextLine c) h.symm
          rw [mark_contextLine] at unmarked
          cases unmarked
      | cons d ds =>
          obtain ⟨first, rest⟩ := List.cons.inj h
          obtain ⟨rfl, rfl⟩ := ih rest
          rw [contextLine_inj first]
          exact ⟨rfl, rfl⟩

/-- An arrow does not stand at the front of what follows where there is no place. -/
theorem mark_of_contexts {cs ss : List String} {l : String} {rest : List String}
    (h : cs.map contextLine ++ adviceLines false ss = l :: rest) : mark l ≠ some '-' := by
  cases cs with
  | nil =>
      rw [mark_of_adviceLines h]
      nofun
  | cons c cs =>
      cases h
      rw [mark_contextLine]
      decide

theorem alike_of_lines {d d' : Diagnostic} (h : d.lines false = d'.lines false) : Alike d d' := by
  obtain ⟨head, below⟩ := List.cons.inj h
  obtain ⟨severity, message⟩ := headline_inj head
  rw [List.append_assoc, List.append_assoc] at below
  cases hp : d.place with
  | none =>
      cases hp' : d'.place with
      | none =>
          rw [hp, hp'] at below
          obtain ⟨contexts, suggestions⟩ := contexts_inj below
          exact ⟨severity, message, hp.trans hp'.symm, contexts, suggestions⟩
      | some s' =>
          rw [hp, hp'] at below
          exact absurd (mark_placeLine s') (mark_of_contexts below)
  | some s =>
      cases hp' : d'.place with
      | none =>
          rw [hp, hp'] at below
          exact absurd (mark_placeLine s) (mark_of_contexts below.symm)
      | some s' =>
          rw [hp, hp'] at below
          obtain ⟨arrow, rest⟩ := List.cons.inj below
          obtain ⟨contexts, suggestions⟩ := contexts_inj rest
          refine ⟨severity, message, ?_, contexts, suggestions⟩
          rw [hp, hp', placeLine_inj arrow]

theorem Alike.lines {d d' : Diagnostic} (h : Alike d d') (color : Bool) :
    d.lines color = d'.lines color := by
  rw [Diagnostic.lines, Diagnostic.lines, h.severity, h.message, h.place, h.contexts, h.suggestions]

theorem Clean.format_eq_iff {d d' : Diagnostic} (h : Clean d) (h' : Clean d') (color : Bool) :
    d.format color = d'.format color ↔ Alike d d' := by
  constructor
  · intro heq
    -- Coloured texts that are the same show the same plain text.
    have plain : (d.format false).toList = (d'.format false).toList := by
      cases color with
      | false => rw [heq]
      | true => rw [← h.uncolour_format, heq, h'.uncolour_format]
    have cut := congrArg (List.splitOn '\n') plain
    rw [h.splitOn_format, h'.splitOn_format] at cut
    exact alike_of_lines (List.map_injective_iff.mpr (fun _ _ => String.toList_inj.mp)
      (List.append_cancel_right cut))
  · intro halike
    rw [← String.toList_inj, format_eq_unlines, format_eq_unlines, halike.lines]

/-- A message whose texts stay on their lines holds what was added to it, in order, and is printed
so that nothing of that is lost: without its colours it is the plain text, the plain text is cut
into the lines laid out for it, suggestions numbered from one on, and messages are printed the same,
be it with colours or without, exactly if they tell the same. -/
theorem rendering_loses_nothing {severity severity' : Severity} {message message' : String}
    {additions additions' : List Addition}
    (h : Clean (build severity message additions))
    (h' : Clean (build severity' message' additions')) :
    let d := build severity message additions
    let d' := build severity' message' additions'
    Holds d severity message additions ∧
      Text.uncolour (d.format true).toList = (d.format false).toList ∧
      (d.format false).toList.splitOn '\n' = (d.lines false).map String.toList ++ [[]] ∧
      ∀ color, d.format color = d'.format color ↔ Alike d d' :=
  ⟨holds_build severity message additions, h.uncolour_format, h.splitOn_format,
    h.format_eq_iff h'⟩

/-- Texts that look like the layout are not taken for it. -/
theorem imitated_layout_is_told_apart :
    let d := build .error "boom"
      [.context "help: consider:", .context "1. try", .suggestion "2. try"]
    let d' := build .error "boom"
      [.context "help: consider:", .suggestion "try", .suggestion "try"]
    Text.uncolour (d.format true).toList = (d.format false).toList ∧
      d.format false ≠ d'.format false ∧ d.format true ≠ d'.format true := by
  intro d d'
  have clean : Clean d := ⟨by decide, nofun, by decide, by decide⟩
  have clean' : Clean d' := ⟨by decide, nofun, by decide, by decide⟩
  obtain ⟨-, uncoloured, -, told⟩ := rendering_loses_nothing clean clean'
  have unlike : ¬Alike d d' := fun halike => absurd halike.contexts (by decide)
  exact ⟨uncoloured, unlike ∘ (told false).mp, unlike ∘ (told true).mp⟩

end Diagnostic
end BuildFront
