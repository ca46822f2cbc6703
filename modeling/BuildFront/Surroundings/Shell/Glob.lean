import BuildFront.Surroundings.CharSet
import BuildFront.Machine.FileTree
import BuildFront.Surroundings.Octets

/-!
Patterns of a shell: `*` for any text, `?` for any character, and bracketed sets. They are matched
against whole texts, and against the names of files, one part of a path at a time.
-/

namespace BuildFront.Shell

/-- A character of a pattern, and whether it stands for itself in any case. -/
abbrev Glyph := Char × Bool

namespace Glob

inductive Mark where
  | char (c : Char)
  | any
  | many
  | oneOf (set : CharSet)

/-- A backslash that is not quoted makes the character after it stand for itself. -/
def settle : List Glyph → List Glyph
  | ('\\', false) :: (c, _) :: rest => (c, true) :: settle rest
  | g :: rest => g :: settle rest
  | [] => []

def kindAtFront? : List Glyph → Option (String × List Glyph)
  | (':', false) :: rest =>
    let name := rest.takeWhile (fun g => g.1.isAlpha)
    match rest.drop name.length with
    | (':', false) :: (']', false) :: rest => some (String.ofList (name.map (·.1)), rest)
    | _ => none
  | _ => none

/-- The members of a set up to its end. The first one may be the character that ends it. `n` bounds
their number. -/
def membersAtFront (n : Nat) (first : Bool) (gs : List Glyph) :
    Option (List CharRange × List Glyph) :=
  match n, gs with
  | 0, _ | _, [] => none
  | n + 1, g :: rest =>
    let go (m : CharRange) (rest : List Glyph) : Option (List CharRange × List Glyph) :=
      (membersAtFront n false rest).map (fun r => (m :: r.1, r.2))
    if g == (']', false) && !first then some ([], rest)
    else
      let kind := if g == ('[', false) then kindAtFront? rest else none
      match kind, rest with
      | some (name, rest), _ => go (.kind name) rest
      | none, ('-', false) :: high :: more =>
        if high == (']', false) then go (.between g.1 g.1) rest else go (.between g.1 high.1) more
      | none, rest => go (.between g.1 g.1) rest

def setAtFront? (gs : List Glyph) : Option (Mark × List Glyph) :=
  let (negated, gs) := match gs with
    | ('!', false) :: rest => (true, rest)
    | gs => (false, gs)
  (membersAtFront gs.length true gs).map (fun r => (.oneOf ⟨negated, r.1⟩, r.2))

def marks : Nat → List Glyph → List Mark
  | 0, _ | _, [] => []
  | n + 1, (c, quoted) :: rest =>
    if quoted then .char c :: marks n rest
    else match c with
      | '*' => .many :: marks n rest
      | '?' => .any :: marks n rest
      | '[' =>
        match setAtFront? rest with
        | some (m, rest) => m :: marks n rest
        | none => .char c :: marks n rest
      | c => .char c :: marks n rest

def compile (gs : List Glyph) : List Mark :=
  let gs := settle gs
  marks gs.length gs

def accepts : List Mark → List Char → Bool
  | [], cs => cs.isEmpty
  | .many :: marks, cs =>
    accepts marks cs || (match cs with
      | [] => false
      | _ :: rest => accepts (.many :: marks) rest)
  | .char m :: marks, c :: rest => m == c && accepts marks rest
  | .any :: marks, _ :: rest => accepts marks rest
  | .oneOf set :: marks, c :: rest => set.accepts c && accepts marks rest
  | _ :: _, [] => false
  termination_by marks cs => (marks.length, cs.length)

def isProper (marks : List Mark) : Bool :=
  marks.any (fun m => match m with
    | .char _ => false
    | _ => true)

def plain (gs : List Glyph) : Octets :=
  String.ofList (gs.map (·.1))

def trim (atEnd longest : Bool) (pattern : List Glyph) (s : Octets) : Octets :=
  let marks := compile pattern
  let cs := s.toList
  let lengths := List.range (cs.length + 1)
  let lengths := if longest then lengths.reverse else lengths
  let matched (n : Nat) : Bool :=
    accepts marks (if atEnd then cs.drop (cs.length - n) else cs.take n)
  match lengths.find? matched with
  | some n => String.ofList (if atEnd then cs.take (cs.length - n) else cs.drop n)
  | none => s

/-- The names in a directory that a pattern stands for. Those that begin with a dot have to be asked
for by one. -/
def namesFor (files : FileTree) (cwd : Place) (dir : Octets) (pattern : List Glyph) :
    List Octets :=
  let marks := compile pattern
  let dotted := (settle pattern).head?.any (fun g => g.1 == '.')
  match files.find cwd (Octets.toPath (if dir.isEmpty then "." else dir)) true with
  | .ok ⟨place, some .directory⟩ =>
    let names := "." :: ".." :: (files.namesIn place).map Octets.ofBytes
    names.filter (fun name =>
      (dotted || !name.startsWith ".") && accepts marks name.toList)
  | _ => []

def pathsFrom (files : FileTree) (cwd : Place) : Octets → List (List Glyph) → List Octets
  | _, [] => []
  | front, [part] =>
    if isProper (compile part) then (namesFor files cwd front part).map (front ++ ·)
    else
      let path := front ++ plain (settle part)
      let found := (files.find cwd (Octets.toPath path) false).toOption.any (·.entry.isSome)
      if found then [path] else []
  | front, part :: next :: rest =>
    if isProper (compile part) then
      (namesFor files cwd front part).flatMap (fun name =>
        pathsFrom files cwd (front ++ name ++ "/") (next :: rest))
    else pathsFrom files cwd (front ++ plain (settle part) ++ "/") (next :: rest)

/-- The paths that a pattern stands for, in the order of their bytes; none if it is no pattern. -/
def paths (files : FileTree) (cwd : Place) (pattern : List Glyph) : List Octets :=
  let parts := pattern.splitOnP (fun g => g.1 == '/')
  if parts.any (fun part => isProper (compile part)) then
    (pathsFrom files cwd "" parts).mergeSort (fun a b => a ≤ b)
  else []

end Glob
end BuildFront.Shell
