import BuildFront.Surroundings.Tool.Options

/-!
Programs that look at files, make them, move them and remove them.
-/

namespace BuildFront.Tool

open Program

def misuse {α : Type} (code : Nat) (text : Octets) : Program α := do
  warn text
  write 2 (Octets.toBytes ("Try '" ++ (← read).name ++ " --help' for more information.\n"))
  exit code

def lastName (p : Octets) : Octets :=
  Octets.ofBytes (((FileTree.stepsOf (Octets.toPath p)).filter (· != [Path.dot])).getLast?.getD [])

def below (dir name : Octets) : Octets :=
  if dir.endsWith "/" then dir ++ name else dir ++ "/" ++ name

def pwd : Program Unit := do
  print (Octets.ofPath (← read).cwd.toPath ++ "\n")

def touch : Program Unit := do
  let g ← OptionTable.read
    ⟨"acmfh", "drt", [("no-create", 'c'), ("date", 'd'), ("reference", 'r')]⟩ 1
    (← read).args
  if g.operands.isEmpty then misuse 1 "missing file operand"
  g.operands.forM (fun name => do
    if name != "-" && (← entry? name true).isNone && !g.has 'c' then
      match ← writeFile false name [] with
      | none => pure ()
      | some words => fault 1 ("cannot touch '" ++ name ++ "': " ++ words))

def waysTo (p : Octets) : List Octets :=
  let names := (FileTree.stepsOf (Octets.toPath p)).filter (· != [Path.dot])
  let front := if p.startsWith "/" then "/" else ""
  (List.range names.length).map (fun n =>
    front ++ Octets.ofBytes ([Path.slash].intercalate (names.take (n + 1))))

def makeDirectory (name : Octets) : Program (Option Octets) :=
  change (fun files cwd => do
    match ← files.find cwd (Octets.toPath name) false with
    | ⟨place, none⟩ => return files.put place .directory
    | _ => throw (.os .fileExists))

def mkdir : Program Unit := do
  let g ← OptionTable.read ⟨"pv", "m", [("parents", 'p'), ("verbose", 'v'), ("mode", 'm')]⟩ 1
    (← read).args
  if g.operands.isEmpty then misuse 1 "missing operand"
  let make (name : Octets) : Program Bool := do
    match ← makeDirectory name with
    | none =>
      if g.has 'v' then print ((← read).name ++ ": created directory '" ++ name ++ "'\n")
      return true
    | some words =>
      fault 1 ("cannot create directory '" ++ name ++ "': " ++ words)
      return false
  g.operands.forM (fun name => do
    if !g.has 'p' || (waysTo name).isEmpty then discard (make name)
    else
      discard ((waysTo name).foldlM (fun (goesOn : Bool) way => do
        if !goesOn then return false
        else
          match ← entry? way true with
          | some .directory => return true
          | some _ =>
            let words :=
              if some way == (waysTo name).getLast? then "File exists" else "Not a directory"
            fault 1 ("cannot create directory '" ++ way ++ "': " ++ words)
            return false
          | none => make way) true))

def removePath (name : Octets) : Program Unit :=
  discard (change (fun files cwd => .ok (files.remove cwd (Octets.toPath name))))

/-- What keeps a path from being found. -/
def faultOf? (name : Octets) (follow : Bool) : Program (Option Octets) := do
  match (← get).files.find (← read).cwd (Octets.toPath name) follow with
  | .ok ⟨_, some _⟩ => return none
  | .ok ⟨_, none⟩ => return some OsError.noEntry.words
  | .error e => return some (wordsFor e)

def isEmptyDirectory (name : Octets) : Program Bool := do
  let s ← get
  match s.files.find (← read).cwd (Octets.toPath name) false with
  | .ok ⟨place, _⟩ => return (s.files.namesIn place).isEmpty
  | .error _ => return false

def rm : Program Unit := do
  let g ← OptionTable.read
    ⟨"rRfdviI", "", [("recursive", 'r'), ("force", 'f'), ("dir", 'd'), ("verbose", 'v')]⟩ 1
    (← read).args
  let deep := g.has 'r' || g.has 'R'
  if g.operands.isEmpty && !g.has 'f' then misuse 1 "missing operand"
  g.operands.forM (fun name => do
    let refuse (words : Octets) : Program Unit :=
      fault 1 ("cannot remove '" ++ name ++ "': " ++ words)
    let remove : Program Unit := do
      removePath name
      if g.has 'v' then print ("removed '" ++ name ++ "'\n")
    match ← entry? name false with
    | none =>
      let words := (← faultOf? name false).getD OsError.noEntry.words
      if !g.has 'f' || (words != OsError.noEntry.words && words != OsError.notDirectory.words) then
        refuse words
    | some .directory =>
      if lastName name == "" || lastName name == ".." || name.endsWith "." then
        if deep then
          fault 1 ("refusing to remove '.' or '..' directory: skipping '" ++ name ++ "'")
        else refuse OsError.isDirectory.words
      else if deep then remove
      else if g.has 'd' then
        if ← isEmptyDirectory name then remove else refuse "Directory not empty"
      else refuse OsError.isDirectory.words
    | some _ => remove)

def rmdir : Program Unit := do
  let g ← OptionTable.read ⟨"pv", "", [("parents", 'p'), ("verbose", 'v')]⟩ 1 (← read).args
  if g.operands.isEmpty then misuse 1 "missing operand"
  g.operands.forM (fun name => do
    let ways := if g.has 'p' then (waysTo name).reverse else [name]
    discard (ways.foldlM (fun (goesOn : Bool) way => do
      if !goesOn then return false
      else
        let words ← match ← entry? way false with
          | some .directory =>
            if ← isEmptyDirectory way then pure none else pure (some "Directory not empty")
          | some _ => pure (some OsError.notDirectory.words)
          | none => faultOf? way false
        match words with
        | none =>
          removePath way
          return true
        | some words =>
          fault 1 ("failed to remove '" ++ way ++ "': " ++ words)
          return false) true))

/-- The sources that are meant and their targets, by the operands; targets lie in a directory if the
last operand is one. -/
def pairsOf (intoDirectory : Bool) (operands : List Octets) : Program (List (Octets × Octets)) := do
  match operands with
  | [] => misuse 1 "missing file operand"
  | [source] => misuse 1 ("missing destination file operand after '" ++ source ++ "'")
  | first :: rest =>
    let sources := (first :: rest).dropLast
    let target := rest.getLast?.getD ""
    if intoDirectory && (← isDirectory target) then
      return sources.map (fun s => (s, below target (lastName s)))
    else if 1 < sources.length then
      let words := (← faultOf? target true).getD OsError.notDirectory.words
      fail 1 ("target '" ++ target ++ "': " ++ words)
    else return sources.map (fun s => (s, target))

def placeFor? (name : Octets) (follow : Bool) : Program (Option Place) := do
  return ((← get).files.find (← read).cwd (Octets.toPath name) follow).toOption.map (·.place)

def copyOne (deep keepsLinks verbose : Bool) (source target : Octets) : Program Unit := do
  let found ← entry? source (!keepsLinks)
  let done : Program Unit :=
    if verbose then print ("'" ++ source ++ "' -> '" ++ target ++ "'\n") else pure ()
  match found with
  | none =>
    fault 1 ("cannot stat '" ++ source ++ "': " ++ (← faultOf? source true).getD "")
  | some .directory =>
    if !deep then fault 1 ("-r not specified; omitting directory '" ++ source ++ "'")
    else
      match ← placeFor? source true, ← placeFor? target true with
      | some a, some b =>
        let s ← get
        match s.files.entryAt? b with
        | some .directory | none =>
          set { s with files := s.files.graft b (s.files.branch a) }
          done
        | some _ =>
          fault 1 ("cannot overwrite non-directory '" ++ target ++ "' with directory '" ++
            source ++ "'")
      | _, _ =>
        fault 1 ("cannot create directory '" ++ target ++ "': " ++ OsError.noEntry.words)
  | some e =>
    let a ← placeFor? source (!keepsLinks)
    let b ← placeFor? target true
    if a == b then fault 1 ("'" ++ source ++ "' and '" ++ target ++ "' are the same file")
    else
      match e, b with
      | .link _, some place => do
        modify (fun s => { s with files := s.files.put place e })
        done
      | _, _ => do
        let data ← match ← contents source with
          | .ok data => pure data
          | .error _ => pure []
        let executable := match e with
          | .file _ x => x
          | .tool _ => true
          | _ => false
        let isNew := (← entry? target true).isNone
        match ← (if isNew then
              change (fun files cwd => files.write cwd (Octets.toPath target) data executable)
            else writeFile false target data) with
        | none => done
        | some words => fault 1 ("cannot create regular file '" ++ target ++ "': " ++ words)

def cp : Program Unit := do
  let g ← OptionTable.read
    ⟨"rRapfnvPdLTiux", "t", [("recursive", 'r'), ("archive", 'a'), ("preserve", 'p'),
      ("force", 'f'), ("no-clobber", 'n'), ("verbose", 'v'), ("no-dereference", 'P'),
      ("no-target-directory", 'T')]⟩ 1
    (← read).args
  let operands := match g.value? 't' with
    | some dir => g.operands ++ [dir]
    | none => g.operands
  let pairs ← pairsOf (!g.has 'T') operands
  let deep := g.has 'r' || g.has 'R' || g.has 'a'
  let keepsLinks := !g.has 'L' && (g.has 'P' || g.has 'd' || deep)
  pairs.forM (fun p => do
    if g.has 'n' && (← entry? p.2 true).isSome then pure ()
    else copyOne deep keepsLinks (g.has 'v') p.1 p.2)

def mv : Program Unit := do
  let g ← OptionTable.read
    ⟨"fnvTiu", "t", [("force", 'f'), ("no-clobber", 'n'), ("verbose", 'v'),
      ("no-target-directory", 'T')]⟩ 1 (← read).args
  let operands := match g.value? 't' with
    | some dir => g.operands ++ [dir]
    | none => g.operands
  (← pairsOf (!g.has 'T') operands).forM (fun p => do
    let (source, target) := p
    if g.has 'n' && (← entry? target true).isSome then pure ()
    else
      match ← entry? source false, ← placeFor? source false, ← placeFor? target false with
      | some e, some a, some b =>
        if a == b then fault 1 ("'" ++ source ++ "' and '" ++ target ++ "' are the same file")
        else if e == .directory && a.isPrefixOf b then
          fault 1 ("cannot move '" ++ source ++ "' to a subdirectory of itself, '" ++ target ++ "'")
        else
          let s ← get
          match e, s.files.entryAt? b with
          | .directory, some .directory =>
            if (s.files.namesIn b).isEmpty then
              set { s with files := (s.files.prune a).graft b (s.files.branch a) }
            else fault 1 ("cannot overwrite '" ++ target ++ "': Directory not empty")
          | .directory, some _ =>
            fault 1 ("cannot overwrite non-directory '" ++ target ++ "' with directory '" ++
              source ++ "'")
          | _, some .directory =>
            fault 1 ("cannot overwrite directory '" ++ target ++ "' with non-directory '" ++
              source ++ "'")
          | _, _ =>
            set { s with files := ((s.files.prune a).prune b).graft b (s.files.branch a) }
            if g.has 'v' then print ("renamed '" ++ source ++ "' -> '" ++ target ++ "'\n")
      | some _, _, none =>
        fault 1 ("cannot move '" ++ source ++ "' to '" ++ target ++ "': " ++
          (← faultOf? target false).getD "")
      | _, _, _ =>
        fault 1 ("cannot stat '" ++ source ++ "': " ++ (← faultOf? source false).getD ""))

def ln : Program Unit := do
  let g ← OptionTable.read
    ⟨"sfnvTr", "t", [("symbolic", 's'), ("force", 'f'), ("no-dereference", 'n'), ("verbose", 'v'),
      ("no-target-directory", 'T')]⟩ 1 (← read).args
  let operands ← match g.operands with
    | [] => misuse 1 "missing file operand"
    | [source] => pure [source, "."]
    | operands => pure operands
  let followed := !(g.has 'n') || !((operands.getLast?.map (fun t => entry? t false)).isSome)
  let lastIsLink ← match operands.getLast? with
    | some t => do
      match ← entry? t false with
      | some (.link _) => pure true
      | _ => pure false
    | none => pure false
  let into := !g.has 'T' && (followed || !lastIsLink)
  (← pairsOf into operands).forM (fun p => do
    let (source, target) := p
    let kind := if g.has 's' then "symbolic" else "hard"
    let refuse (words : Octets) : Program Unit :=
      fault 1 ("failed to create " ++ kind ++ " link '" ++ target ++ "': " ++ words)
    let e ← if g.has 's' then pure (some (.link (Octets.toPath source))) else entry? source false
    match e with
    | none => fault 1 ("failed to access '" ++ source ++ "': " ++ (← faultOf? source false).getD "")
    | some .directory => fault 1 (source ++ ": hard link not allowed for directory")
    | some e =>
      match (← get).files.find (← read).cwd (Octets.toPath target) false with
      | .error fault => refuse (wordsFor fault)
      | .ok ⟨place, before⟩ =>
        if before.isSome && !g.has 'f' then refuse OsError.fileExists.words
        else if before == some .directory then refuse OsError.fileExists.words
        else modify (fun s => { s with files := s.files.put place e }))

/-- Whether files may be run by what a mode says, given whether that was so before; nothing if it is
no mode. -/
def executableBy? (mode : Octets) (before : Bool) : Option Bool :=
  let cs := mode.toList
  if !cs.isEmpty && cs.all (fun c => '0' ≤ c && c ≤ '7') then
    some (cs.any (fun c => (c.toNat - '0'.toNat) % 2 == 1))
  else
    (mode.splitOn ",").foldl (fun (acc : Option Bool) clause => acc.bind (fun before =>
      let rest := clause.toList.dropWhile (fun c => c == 'u' || c == 'g' || c == 'o' || c == 'a')
      match rest with
      | op :: rights =>
        if !rights.all (fun c => "rwxXst".toList.contains c) then none
        else
          let runs := rights.contains 'x'
          match op with
          | '+' => some (before || runs)
          | '-' => some (before && !runs)
          | '=' => some runs
          | _ => none
      | [] => none)) (some before)

def chmod : Program Unit := do
  let args := (← read).args
  -- A mode that takes rights away looks like an option.
  let isMode (a : Octets) : Bool :=
    a.startsWith "-" && 1 < a.length && (a.toList.drop 1).all (fun c => "rwxst".toList.contains c)
  let marked := args.map (fun a => if isMode a then "a" ++ a else a)
  let g ← OptionTable.read ⟨"Rcfv", "", [("recursive", 'R'), ("changes", 'c'), ("silent", 'f'),
    ("verbose", 'v')]⟩ 1 marked
  match g.operands with
  | [] => misuse 1 "missing operand"
  | [mode] => misuse 1 ("missing operand after '" ++ mode ++ "'")
  | mode :: names =>
    if (executableBy? mode true).isNone then misuse 1 ("invalid mode: '" ++ mode ++ "'")
    names.forM (fun name => do
      match ← placeFor? name true, ← entry? name true with
      | some place, some _ =>
        modify (fun s =>
          { s with files := ⟨s.files.entries.map (fun e =>
              match e.2 with
              | .file data before =>
                if e.1 == place || (g.has 'R' && place.isPrefixOf e.1) then
                  (e.1, .file data ((executableBy? mode before).getD before))
                else e
              | _ => e)⟩ })
      | _, _ =>
        fault 1 ("cannot access '" ++ name ++ "': " ++ (← faultOf? name true).getD ""))

/-- The path of the place that a path leads to; its last name may be missing. -/
def resolved? (name : Octets) (missing : Bool) : Program (Except Octets Octets) := do
  match (← get).files.find (← read).cwd (Octets.toPath name) true with
  | .ok ⟨place, e⟩ =>
    if e.isSome || missing then return .ok (Octets.ofPath place.toPath)
    else return .error OsError.noEntry.words
  | .error fault => return .error (wordsFor fault)

def readlink : Program Unit := do
  let g ← OptionTable.read ⟨"femnqsvz", "", [("canonicalize", 'f'), ("canonicalize-existing", 'e'),
    ("canonicalize-missing", 'm'), ("no-newline", 'n')]⟩ 1 (← read).args
  if g.operands.isEmpty then misuse 1 "missing operand"
  g.operands.forM (fun name => do
    let ending := if g.has 'n' then "" else "\n"
    if g.has 'f' || g.has 'e' || g.has 'm' then
      match ← resolved? name (!g.has 'e') with
      | .ok path => print (path ++ ending)
      | .error _ => modify (fun s => { s with code := 1 })
    else
      match ← entry? name false with
      | some (.link target) => print (Octets.ofPath target ++ ending)
      | _ => modify (fun s => { s with code := 1 }))

def realpath : Program Unit := do
  let g ← OptionTable.read ⟨"emsqLPz", "", [("canonicalize-existing", 'e')]⟩ 1 (← read).args
  if g.operands.isEmpty then misuse 1 "missing operand"
  g.operands.forM (fun name => do
    match ← resolved? name (!g.has 'e') with
    | .ok path => print (path ++ "\n")
    | .error words => fault 1 (name ++ ": " ++ words))

def truncate : Program Unit := do
  let g ← OptionTable.read ⟨"co", "sr", [("size", 's'), ("no-create", 'c')]⟩ 1 (← read).args
  let text := (g.value? 's').getD ""
  match text.toNat? with
  | none => misuse 1 "you must specify either '--size' or '--reference'"
  | some n =>
    if g.operands.isEmpty then misuse 1 "missing file operand"
    g.operands.forM (fun name => do
      let data ← match ← contents name with
        | .ok data => pure data
        | .error _ => pure []
      match ← writeFile false name (data.take n ++ List.replicate (n - data.length) 0) with
      | none => pure ()
      | some words => fault 1 ("cannot open '" ++ name ++ "' for writing: " ++ words))

structure Listing where
  hidden : Bool
  dots : Bool
  reversed : Bool
  marks : Bool
  slashes : Bool

namespace Listing

def shown (l : Listing) (name : Octets) (e : Option Entry) : Octets :=
  name ++ (match e with
    | some .directory => if l.marks || l.slashes then "/" else ""
    | some (.link _) => if l.marks then "@" else ""
    | some (.file _ true) | some (.tool _) => if l.marks then "*" else ""
    | _ => "")

def ordered (l : Listing) (names : List Octets) : List Octets :=
  let sorted := names.mergeSort (fun a b => a ≤ b)
  if l.reversed then sorted.reverse else sorted

def namesIn (l : Listing) (dir : Octets) : Program (List Octets) := do
  match ← placeFor? dir true with
  | some place =>
    let names := ((← get).files.namesIn place).map Octets.ofBytes
    let dots := if l.dots then [".", ".."] else []
    return l.ordered (dots ++ names.filter (fun n => l.hidden || !n.startsWith "."))
  | none => return []

def directory (l : Listing) (dir : Octets) : Program Unit := do
  (← l.namesIn dir).forM (fun name => do
    print (l.shown name (← entry? (below dir name) false) ++ "\n"))

/-- List a directory and those below it, each under its name. `n` bounds their depth. -/
def tree (l : Listing) : Nat → Bool → Octets → Program Unit
  | 0, _, _ => pure ()
  | n + 1, first, dir => do
    print ((if first then "" else "\n") ++ dir ++ ":\n")
    l.directory dir
    (← l.namesIn dir).forM (fun name => do
      if name != "." && name != ".." && (← entry? (below dir name) false) == some .directory then
        tree l n false (below dir name))

end Listing

def ls : Program Unit := do
  let g ← OptionTable.read
    ⟨"1aAdrRFpltShikqnogcuUxCmLHfbBNQsvXZ", "IwT", [("all", 'a'), ("almost-all", 'A'),
      ("directory", 'd'), ("reverse", 'r'), ("recursive", 'R'), ("classify", 'F')]⟩ 2 (← read).args
  let l : Listing := ⟨g.has 'a' || g.has 'A', g.has 'a', g.has 'r', g.has 'F', g.has 'p'⟩
  let names := l.ordered (if g.operands.isEmpty then ["."] else g.operands)
  let known ← names.filterM (fun name => do
    match ← faultOf? name true with
    | none => return true
    | some words =>
      if (← entry? name false).isSome then return true
      else
        fault 2 ("cannot access '" ++ name ++ "': " ++ words)
        return false)
  let directories ← known.filterM (fun name => do return !g.has 'd' && (← isDirectory name))
  let others := known.filter (fun name => !directories.contains name)
  others.forM (fun name => do print (l.shown name (← entry? name false) ++ "\n"))
  directories.zipIdx.forM (fun e => do
    let first := e.2 = 0 && others.isEmpty
    if g.has 'R' then l.tree 64 first e.1
    else
      if 1 < names.length then print ((if first then "" else "\n") ++ e.1 ++ ":\n")
      l.directory e.1)

end BuildFront.Tool
