import BuildFront.Proofs.Text.Lines
import Mathlib.Data.List.Forall2
import Mathlib.Data.List.TakeWhile

/-!
Texts with colour sequences, and the texts that they show. A colour sequence is an escape, a
bracket, numbers with semicolons between them, and an `m`; an escape that begins none stays.
-/

namespace BuildFront
namespace Text

def escape : Char := '\x1b'

def isParameter (c : Char) : Bool :=
  c.isDigit || c == ';'

/-- What follows a colour sequence, if a text begins with one. -/
def afterColour? : List Char → Option (List Char)
  | '\x1b' :: '[' :: rest =>
    match rest.dropWhile isParameter with
    | 'm' :: after => some after
    | _ => none
  | _ => none

theorem length_afterColour? {cs after : List Char} (h : afterColour? cs = some after) :
    after.length < cs.length := by
  rw [afterColour?.eq_def] at h
  split at h
  · next rest =>
      split at h
      · next after' hdrop =>
          cases h
          have shorter := (rest.dropWhile_suffix isParameter).length_le
          rw [hdrop] at shorter
          simp only [List.length_cons] at shorter ⊢
          omega
      · cases h
  · cases h

/-- A text without its colour sequences. -/
def uncolour (cs : List Char) : List Char :=
  match _ : afterColour? cs with
  | some after => uncolour after
  | none =>
    match cs with
    | [] => []
    | c :: rest => c :: uncolour rest
termination_by cs.length
decreasing_by
  · exact length_afterColour? ‹_›
  · simp

/-- A text that shows another, whatever comes after it. -/
def Shows (cs shown : List Char) : Prop :=
  ∀ rest, uncolour (cs ++ rest) = shown ++ uncolour rest

theorem uncolour_of_colour {cs after : List Char} (h : afterColour? cs = some after) :
    uncolour cs = uncolour after := by
  rw [uncolour]
  split
  · next h' => rw [Option.some.inj (h.symm.trans h')]
  · next h' => cases h.symm.trans h'

theorem afterColour?_cons {c : Char} (hc : c ≠ escape) (rest : List Char) :
    afterColour? (c :: rest) = none := by
  rw [afterColour?.eq_def]
  split
  · next heq => exact absurd (List.cons.inj heq).1 hc
  · rfl

theorem uncolour_cons {c : Char} (hc : c ≠ escape) (rest : List Char) :
    uncolour (c :: rest) = c :: uncolour rest := by
  rw [uncolour]
  split
  · next h => cases h.symm.trans (afterColour?_cons hc rest)
  · rfl

namespace Shows

variable {cs ds shown shown' : List Char}

theorem append (h : Shows cs shown) (h' : Shows ds shown') :
    Shows (cs ++ ds) (shown ++ shown') := by
  intro rest
  rw [List.append_assoc, h, h', List.append_assoc]

theorem uncolour_eq (h : Shows cs shown) : uncolour cs = shown := by
  have whole := h []
  rw [List.append_nil] at whole
  rw [whole, uncolour]
  simp [afterColour?]

theorem of_not_mem (h : escape ∉ cs) : Shows cs cs := by
  intro rest
  induction cs with
  | nil => rfl
  | cons c cs ih =>
      rw [List.mem_cons, not_or] at h
      rw [List.cons_append, uncolour_cons (Ne.symm h.1), ih h.2, List.cons_append]

theorem colour {parameters : List Char} (h : parameters.all isParameter = true) :
    Shows (escape :: '[' :: (parameters ++ ['m'])) [] := by
  intro rest
  refine uncolour_of_colour ?_
  have dropped : (parameters ++ 'm' :: rest).dropWhile isParameter = 'm' :: rest :=
    List.dropWhile_append_of_pos (List.all_eq_true.mp h)
  simp only [List.cons_append, List.append_assoc, List.nil_append, escape, afterColour?, dropped]

theorem unlines {lines lines' : List (List Char)} (h : List.Forall₂ Shows lines lines') :
    Shows (unlines lines) (unlines lines') := by
  have feed : Shows ['\n'] ['\n'] := .of_not_mem (by decide)
  induction h with
  | nil => exact .of_not_mem List.not_mem_nil
  | cons hline _ ih =>
      rw [unlines_cons, unlines_cons]
      exact hline.append (feed.append ih)

end Shows

end Text
end BuildFront
