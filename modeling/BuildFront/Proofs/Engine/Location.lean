import BuildFront.Engine
import BuildFront.Proofs.Machine.Searching
import BuildFront.Proofs.Text.Legible

/-!
How an engine is found by its name. A name that leads on behind its first slash is taken as it is;
every other one is searched. So a slash alone does not spare a name the search, though such a search
finds nothing.
-/

namespace BuildFront
namespace Engine

/-- Behind its first slash a name has something else than slashes and lone dots. -/
def LeadsOn (name : String) : Prop :=
  ∃ piece ∈ (name.toList.splitOn '/').tail, piece ≠ [] ∧ piece ≠ ['.']

theorem pieces_ofString (name : String) :
    (Path.ofString name).pieces = (name.toList.splitOn '/').map Utf8.encode :=
  Utf8.splitOn_encode (b := Path.slash) (by decide) name.toList

theorem leadsOn_iff (name : String) : LeadsOn name ↔ 1 < (Path.ofString name).parts.length := by
  have empty (piece : List Char) : Utf8.encode piece = [] ↔ piece = [] :=
    Utf8.encode_injective.eq_iff (b := [])
  have dot (piece : List Char) : Utf8.encode piece = [Path.dot] ↔ piece = ['.'] :=
    Utf8.encode_injective.eq_iff (b := ['.'])
  rw [Path.one_lt_length_parts_iff, pieces_ofString, ← List.map_tail, LeadsOn]
  simp only [List.mem_map, exists_exists_and_eq_and, ne_eq, empty, dot]

theorem LeadsOn.slash_mem {name : String} (h : LeadsOn name) : '/' ∈ name.toList := by
  by_contra hslash
  obtain ⟨piece, hpiece, -⟩ := h
  rw [List.splitOn_eq_singleton hslash] at hpiece
  cases hpiece

theorem slash_mem_ofString {name : String} (h : '/' ∈ name.toList) :
    Path.slash ∈ (Path.ofString name).bytes :=
  List.mem_flatMap.mpr ⟨'/', h, by decide⟩

variable {search : String → Option Path} {program : Option String} {args : List String}

theorem locate_of_leadsOn (h : LeadsOn (program.getD defaultProgram)) :
    locate search program args = ([], .ok ⟨.ofString (program.getD defaultProgram), args⟩) :=
  if_pos ((leadsOn_iff _).mp h)

theorem locate_of_found {path : Path} (h : ¬LeadsOn (program.getD defaultProgram))
    (hpath : search (program.getD defaultProgram) = some path) :
    locate search program args = ([.engineFound path], .ok ⟨path, args⟩) := by
  rw [leadsOn_iff] at h
  simp only [locate, if_neg h, hpath]

theorem locate_of_not_found (h : ¬LeadsOn (program.getD defaultProgram))
    (hnone : search (program.getD defaultProgram) = none) :
    locate search program args = ([], .error (.notFound (program.getD defaultProgram))) := by
  rw [leadsOn_iff] at h
  simp only [locate, if_neg h, hnone]

/-- Names that lead on are taken as they are, whatever a search would find; the others are searched
and no more, and a name that is not found is told. A machine's search for one of these finds what
the first directory of its search path has, and nothing if the name has a slash. So a name with a
slash is taken as it is exactly if it leads on. -/
theorem names_that_lead_on_are_kept (program : Option String) (args : List String) :
    let name := program.getD defaultProgram
    (LeadsOn name → '/' ∈ name.toList ∧
      ∀ search, locate search program args = ([], .ok ⟨.ofString name, args⟩)) ∧
    (¬LeadsOn name → ∀ search,
      (∀ path, search name = some path →
        locate search program args = ([.engineFound path], .ok ⟨path, args⟩)) ∧
      (search name = none → locate search program args = ([], .error (.notFound name)))) ∧
    ∀ m : Machine, ¬LeadsOn name →
      (∀ path, m.search name = some path ↔ m.FirstHas name path) ∧
      ('/' ∈ name.toList →
        locate m.search program args = ([], .error (.notFound name))) := by
  intro name
  refine ⟨fun h => ⟨h.slash_mem, fun _ => locate_of_leadsOn h⟩, ?_, ?_⟩
  · exact fun h _ => ⟨fun _ => locate_of_found h, locate_of_not_found h⟩
  · intro m h
    have single := (leadsOn_iff name).not.mp h
    refine ⟨Machine.search_eq_some_iff single, fun hslash => ?_⟩
    exact locate_of_not_found h (Machine.search_of_slash single (slash_mem_ofString hslash))

/-- A name with a slash at its end is searched, and not found, though it has a separator. -/
theorem slash_at_the_end_is_searched :
    let m := Machine.fresh (NameMap.empty.insert "PATH" "/usr/bin")
    '/' ∈ "eng/".toList ∧ locate m.search (some "eng/") [] = ([], .error (.notFound "eng/")) ∧
      ¬∀ (search : String → Option Path) (name : String) (args : List String),
        '/' ∈ name.toList → locate search (some name) args = ([], .ok ⟨.ofString name, args⟩) := by
  intro m
  have slash : '/' ∈ "eng/".toList := by decide
  have ends : ¬LeadsOn "eng/" := by
    rw [leadsOn_iff]
    decide
  have single := (leadsOn_iff _).not.mp ends
  have refused : locate m.search (some "eng/") [] = ([], .error (.notFound "eng/")) :=
    locate_of_not_found ends (Machine.search_of_slash single (slash_mem_ofString slash))
  refine ⟨slash, refused, fun kept => ?_⟩
  cases refused.symm.trans (kept m.search "eng/" [] slash)

end Engine
end BuildFront
