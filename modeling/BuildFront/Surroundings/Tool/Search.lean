import BuildFront.Surroundings.Pattern
import BuildFront.Surroundings.Tool.Lines

/-!
Finding the lines that have a pattern in them.
-/

namespace BuildFront.Tool

open Program

namespace Search

structure Query where
  pattern : Pattern
  inverted : Bool
  wholeLines : Bool
  wholeWords : Bool

namespace Query

def accepts (q : Query) (f : Pattern.Found) : Bool :=
  if q.wholeLines then f.before.isEmpty && f.rest.isEmpty
  else if q.wholeWords then
    !f.before.getLast?.any Pattern.isWordChar && !f.rest.head?.any Pattern.isWordChar
  else true

def selects (q : Query) (line : List Char) : Bool :=
  (q.pattern.findFrom q.accepts [] line).isSome != q.inverted

def parts (q : Query) (line : List Char) : List (List Char) :=
  ((q.pattern.findAll q.accepts (line.length + 1) [] line).map (·.text)).filter (!·.isEmpty)

end Query

structure Display where
  names : Bool
  numbers : Bool
  onlyParts : Bool
  before : Nat
  after : Nat

structure Hit where
  number : Nat
  line : List Char
  found : Bool

namespace Display

def front (d : Display) (name : Octets) (h : Hit) : Octets :=
  let mark := if h.found then ":" else "-"
  (if d.names then name ++ mark else "") ++ (if d.numbers then toString h.number ++ mark else "")

/-- The lines that are shown around those that were found. -/
def surroundings (d : Display) (hits : List Hit) : List Hit :=
  let numbers := (hits.filter (·.found)).map (·.number)
  hits.filter (fun h => numbers.any (fun n => n ≤ h.number + d.before && h.number ≤ n + d.after))

def text (d : Display) (q : Query) (name : Octets) (hits : List Hit) : Octets :=
  if d.onlyParts then
    if q.inverted then ""
    else String.join ((hits.filter (·.found)).flatMap (fun h =>
      (q.parts h.line).map (fun part => d.front name h ++ String.ofList part ++ "\n")))
  else
    let shown := d.surroundings hits
    let separated := d.before + d.after != 0
    let lines := (shown.zip (none :: shown.map some)).map (fun (e : Hit × Option Hit) =>
      let gap := separated && e.2.any (fun h => h.number + 1 != e.1.number)
      (if gap then "--\n" else "") ++ d.front name e.1 ++ String.ofList e.1.line ++ "\n")
    String.join lines

end Display

/-- The first lines with a mark at those that are selected, up to as many of these as are wanted. -/
def hitsOf (q : Query) (most : Option Nat) (lines : List (List Char)) : List Hit :=
  let marked := lines.zipIdx.map (fun e => (⟨e.2 + 1, e.1, q.selects e.1⟩ : Hit))
  match most with
  | none => marked
  | some n =>
    let found := (marked.filter (·.found)).map (·.number)
    match found[n]? with
    | some stop => marked.map (fun h => if stop ≤ h.number then { h with found := false } else h)
    | none => marked

def anyOf (extended fixed ignoresCase : Bool) (texts : List Octets) : Except String Pattern := do
  let patterns ← texts.mapM (fun t =>
    if fixed then .ok (Pattern.literal ignoresCase t.toList)
    else Pattern.ofText extended ignoresCase t.toList)
  match patterns with
  | [] => return ⟨ignoresCase, .char ⟨false, []⟩⟩
  | p :: rest => return ⟨ignoresCase, rest.foldl (fun r q => .choice r q.regex) p.regex⟩

def optionTable : OptionTable where
  plain := "qcvinloxwEFGPshHLrRaUzyb"
  valued := "efmABCD"
  long := [("quiet", 'q'), ("silent", 'q'), ("count", 'c'), ("invert-match", 'v'),
    ("ignore-case", 'i'),
    ("line-number", 'n'), ("files-with-matches", 'l'), ("files-without-match", 'L'),
    ("only-matching", 'o'), ("line-regexp", 'x'), ("word-regexp", 'w'), ("extended-regexp", 'E'),
    ("fixed-strings", 'F'), ("basic-regexp", 'G'), ("no-messages", 's'), ("no-filename", 'h'),
    ("with-filename", 'H'), ("regexp", 'e'), ("file", 'f'), ("max-count", 'm'),
    ("after-context", 'A'), ("before-context", 'B'), ("context", 'C'), ("text", 'a')]

end Search

/-- The files that a name stands for: those below it if it is a directory. -/
def filesBelow (name : Octets) : Program (List Octets) := do
  let s ← get
  match s.files.find (← read).cwd (Octets.toPath name) true with
  | .ok ⟨place, some .directory⟩ =>
    let below := (s.files.branch place).filterMap (fun e => match e.2 with
      | .file _ _ => some (Octets.ofBytes ([Path.slash].intercalate e.1))
      | _ => none)
    let front := if name.endsWith "/" then name else name ++ "/"
    return (below.mergeSort (fun a b => a ≤ b)).map (front ++ ·)
  | _ => return [name]

open Search

def grep : Program Unit := do
  let usage : Program Unit := do
    write 2 (Octets.toBytes
      "Usage: grep [OPTION]... PATTERNS [FILE]...\nTry 'grep --help' for more information.\n")
    exit 2
  match Search.optionTable.split ((← read).args.filter (fun a => !a.startsWith "--color")) with
  | .error text =>
    warn text
    usage
  | .ok g =>
    let fromFiles ← (g.values 'f').mapM (fun name => do
      match ← contents name with
      | .ok data => return (linesOf data).1.map Octets.ofBytes
      | .error words => fail 2 (nameAndWords name words))
    let given := g.has 'e' || g.has 'f'
    if !given && g.operands.isEmpty then usage
    let texts := if given then (g.values 'e').flatMap (·.splitOn "\n") ++ fromFiles.flatten
      else (g.operands.headD "").splitOn "\n"
    let operands := if given then g.operands else g.operands.drop 1
    let deep := g.has 'r' || g.has 'R'
    let names ← if !deep then pure operands
      else if operands.isEmpty then do
        pure ((← filesBelow ".").map (fun n => String.ofList (n.toList.drop 2)))
      else do pure (← operands.mapM filesBelow).flatten
    let kind := (g.options.filter (fun o => ['E', 'F', 'G', 'P'].contains o.1)).getLast?
    let extended := kind.any (fun o => o.1 == 'E' || o.1 == 'P')
    match anyOf extended (kind.any (·.1 == 'F')) (g.has 'i' || g.has 'y') texts with
    | .error text => fail 2 text
    | .ok pattern =>
      let q : Query := ⟨pattern, g.has 'v', g.has 'x', g.has 'w'⟩
      let number (c : Char) : Nat := ((g.value? c).bind String.toNat?).getD 0
      let most := (g.value? 'm').bind String.toNat?
      let isNamed := g.has 'H' || ((1 < names.length || deep) && !g.has 'h')
      let d : Search.Display := ⟨isNamed, g.has 'n', g.has 'o',
        max (number 'B') (number 'C'), max (number 'A') (number 'C')⟩
      let answers ← (if names.isEmpty then ["-"] else names).mapM (fun name => do
        let shown := if name == "-" then "(standard input)" else name
        match ← contents name with
        | .error words =>
          if !g.has 's' then warn (nameAndWords name words)
          return none
        | .ok data =>
          let lines := (linesOf data).1.map (fun l => (Octets.ofBytes l).toList)
          let hits := hitsOf q most lines
          let n := hits.countP (·.found)
          if g.has 'q' then pure ()
          else if g.has 'l' then
            if n != 0 then print (shown ++ "\n")
          else if g.has 'L' then
            if n = 0 then print (shown ++ "\n")
          else if g.has 'c' then
            print ((if d.names then shown ++ ":" else "") ++ toString n ++ "\n")
          else print (d.text q shown hits)
          return some n)
      let found := answers.any (fun a => a.any (0 < ·))
      if found && g.has 'q' then exit 0
      else if answers.any Option.isNone then exit 2
      else exit (if found then 0 else 1)

end BuildFront.Tool
