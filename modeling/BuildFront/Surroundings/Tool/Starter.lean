import BuildFront.Surroundings.Execution
import BuildFront.Surroundings.Tool.Values
import BuildFront.Surroundings.Tool.Wording

/-!
Programs that start other programs: with other variables, with arguments from the input, or for a
limited time.
-/

namespace BuildFront.Tool

open Program

def imageOf (env : NameMap Octets) (name : Octets) (args : List Octets) :
    Program (Except OsError Image) := do
  let files := (← get).files
  let cwd := (← read).cwd
  if name.toList.contains '/' then
    match Image.ofFile files cwd name args Image.maxScripts (Octets.toPath name) with
    | .error .notExecutable => return .ok ⟨shellName, "/bin/sh", name :: args⟩
    | other => return other
  else
    let dirs := (SearchPath.ofVariables env).inOrder
    return SearchPath.findImage files cwd true name args false dirs

def start (runner : Runner) (env : NameMap Octets) (cwd : Place) (image : Image)
    (input : Option Bytes) :
    Program ExitStatus := do
  let s ← get
  let call : Call := {
    name := image.name, args := image.args, env, cwd, files := s.files, input
    rewinds := (← read).rewinds, ignored := (← read).ignored }
  match runner image.tool call with
  | none => return .code 126
  | some r =>
    set { s with files := r.files, written := r.written.reverse ++ s.written, unread := r.unread }
    return r.status

def remaining : Program (Option Bytes) := do
  let unread := (← get).unread
  return (← read).input.map (fun _ => unread)

def refusalCode : OsError → Nat
  | .noEntry => 127
  | _ => 126

def become (runner : Runner) (env : NameMap Octets) (cwd : Place)
    (complaint : Octets → Octets → Octets)
    (name : Octets) (args : List Octets) : Program Unit := do
  match ← imageOf env name args with
  | .error e => fail (refusalCode e) (complaint name e.words)
  | .ok image =>
    throw (← start runner env cwd image (← remaining))

def quotedName (name words : Octets) : Octets :=
  "'" ++ name ++ "': " ++ words

/-- The options at the front, those of a program to be run not among them. -/
def splitFront (valued : String) : List Octets → List Octets × List Octets
  | [] => ([], [])
  | arg :: rest =>
    match arg.toList with
    | ['-', '-'] => ([], rest)
    | '-' :: c :: cs =>
      if cs.isEmpty && valued.toList.contains c then
        match rest with
        | value :: rest =>
          let (options, args) := splitFront valued rest
          (arg :: value :: options, args)
        | [] => ([arg], [])
      else
        let (options, args) := splitFront valued rest
        (arg :: options, args)
    | _ => ([], arg :: rest)

def env (runner : Runner) : Program Unit := do
  let c ← read
  let (front, rest) := splitFront "uCS" c.args
  let g ← OptionTable.read
    ⟨"i0v", "uCS", [("ignore-environment", 'i'), ("unset", 'u'), ("chdir", 'C'),
      ("split-string", 'S')]⟩
    125 front
  let (dash, rest) := match rest with
    | "-" :: rest => (true, rest)
    | rest => (false, rest)
  let split := (g.values 'S').flatMap (fun s => (s.splitOn " ").filter (!·.isEmpty))
  let rest := split ++ rest
  let given := rest.takeWhile (fun a => a.toList.contains '=')
  let words := rest.drop given.length
  let start := if g.has 'i' || dash then NameMap.empty else c.env
  let vars := (g.values 'u').foldl NameMap.erase start
  let vars := given.foldl (fun vars a =>
    let name := String.ofList (a.toList.takeWhile (· != '='))
    vars.insert name (String.ofList (a.toList.drop (name.length + 1)))) vars
  let cwd ← match g.value? 'C' with
    | none => pure c.cwd
    | some dir => do
      match ← placeFor? dir true, ← isDirectory dir with
      | some place, true => pure place
      | _, _ => fail 125 ("cannot change directory to '" ++ dir ++ "': " ++
          (← faultOf? dir true).getD OsError.notDirectory.words)
  match words with
  | [] => vars.entries.forM (fun e => print (e.1 ++ "=" ++ e.2 ++ "\n"))
  | name :: args => become runner vars cwd quotedName name args

def printenv : Program Unit := do
  let c ← read
  match c.args.filter (fun a => a != "--") with
  | [] => c.env.entries.forM (fun e => print (e.1 ++ "=" ++ e.2 ++ "\n"))
  | names =>
    names.forM (fun name => do
      match c.env.get? name with
      | some value => print (value ++ "\n")
      | none => modify (fun s => { s with code := 1 }))

/-- Pass on to a program that is named behind some options and arguments of one's own. -/
def passOn (runner : Runner) (valued : String) (own missing : Nat)
    (complaint : Octets → Octets → Octets) : Program Unit := do
  let c ← read
  match ((splitFront valued c.args).2).drop own with
  | [] => misuse missing "missing operand"
  | name :: args => become runner c.env c.cwd complaint name args

def duration? (s : Octets) : Option Nat :=
  let cs := s.toList
  let (body, unit) := match cs.getLast? with
    | some 's' => (cs.dropLast, 1)
    | some 'm' => (cs.dropLast, 60)
    | some 'h' => (cs.dropLast, 3600)
    | some 'd' => (cs.dropLast, 86400)
    | _ => (cs, 1)
  let whole := body.takeWhile Char.isDigit
  let rest := body.drop whole.length
  let number (ds : List Char) : Nat := (String.ofList ds).toNat?.getD 0
  match rest with
  | [] => if whole.isEmpty then none else some (100 * unit * number whole)
  | '.' :: ds =>
    if ds.all Char.isDigit && !(whole.isEmpty && ds.isEmpty) then
      some (unit * (100 * number whole + number ((ds ++ ['0', '0']).take 2)))
    else none
  | _ => none

def sleep : Program Unit := do
  let args := (← read).args.filter (fun a => a != "--")
  if args.isEmpty then misuse 1 "missing operand"
  let bad := args.filter (fun a => (duration? a).isNone)
  if !bad.isEmpty then
    bad.forM (fun a => warn ("invalid time interval '" ++ a ++ "'"))
    write 2 (Octets.toBytes ("Try '" ++ (← read).name ++ " --help' for more information.\n"))
    exit 1

/-- Run a program that may only take so long. Of all programs only `sleep` takes its time. -/
def timeout (runner : Runner) : Program Unit := do
  let c ← read
  let (_, rest) := splitFront "ks" c.args
  match rest with
  | [] | [_] => misuse 125 "missing operand"
  | limit :: name :: args =>
    match duration? limit with
    | none => misuse 125 ("invalid time interval '" ++ limit ++ "'")
    | some most =>
      match ← imageOf c.env name args with
      | .error e => fail (refusalCode e) ("failed to run command " ++ quotedName name e.words)
      | .ok image =>
        let asked := (args.filterMap duration?).foldl (· + ·) 0
        if image.tool == "sleep" && most != 0 && most < asked then exit 124
        else
          throw (← start runner c.env c.cwd image (← remaining))

/-- The items of an input: between blanks, quotes and backslashes taking their meaning away. `open?`
is the item that has begun, its last character first. -/
def itemsOf (open? : Option (List Char)) (quote : Option Char) : List Char → List Octets
  | [] => (open?.map (fun cs => String.ofList cs.reverse)).toList
  | c :: rest =>
    let more (d : Char) : Option (List Char) := some (d :: open?.getD [])
    match quote with
    | some '\\' => itemsOf (more c) none rest
    | some q =>
      if c == q then itemsOf (some (open?.getD [])) none rest else itemsOf (more c) quote rest
    | none =>
      if c == '\'' || c == '"' || c == '\\' then itemsOf (some (open?.getD [])) (some c) rest
      else if c == ' ' || c == '\t' || c == '\n' then
        match open? with
        | some cs => String.ofList cs.reverse :: itemsOf none none rest
        | none => itemsOf none none rest
      else itemsOf (more c) none rest

def filledIn (mark item text : Octets) : Octets :=
  item.intercalate (text.splitOn mark)

def xargs (runner : Runner) : Program Unit := do
  let c ← read
  let (front, words) := splitFront "nLIPdasE" c.args
  let g ← OptionTable.read
    ⟨"0rtxp", "nLIPdasE", [("null", '0'), ("no-run-if-empty", 'r'), ("max-args", 'n'),
      ("replace", 'I'), ("delimiter", 'd'), ("arg-file", 'a')]⟩ 1 front
  let data ← match g.value? 'a' with
    | some name => gather 1 nameAndWords [name]
    | none => takeInput
  let text := Octets.ofBytes data
  let between (mark : Octets) : List Octets :=
    let parts := text.splitOn mark
    if parts.getLast? == some "" then parts.dropLast else parts
  let items :=
    if g.has '0' then between "\x00"
    else match g.value? 'd' with
      | some d => between (unescaped ⟨false, true, false⟩ d).1
      | none =>
        if g.has 'I' then
          (between "\n").map (fun l =>
            String.ofList (l.toList.dropWhile (fun c => c == ' ' || c == '\t')))
        else if g.has 'L' then between "\n"
        else itemsOf none none text.toList
  let words := if words.isEmpty then ["echo"] else words
  let number (c : Char) : Option Nat := (g.value? c).bind String.toNat?
  let calls : List (List Octets) :=
    match g.value? 'I' with
    | some mark => (items.filter (!·.isEmpty)).map (fun item => words.map (filledIn mark item))
    | none =>
      let groups := match (number 'n').or (number 'L') with
        | some n => chunks (max 1 n) items.length items
        | none => [items]
      if items.isEmpty then (if g.has 'r' then [] else [words])
      else groups.map (words ++ ·)
  calls.forM (fun call => do
    match call with
    | [] => pure ()
    | name :: args =>
      match ← imageOf c.env name args with
      | .error e => fail (refusalCode e) (nameAndWords name e.words)
      | .ok image =>
        match ← start runner c.env c.cwd image (some []) with
        | .code 0 => pure ()
        | .code 255 => fail 124 (name ++ ": exited with status 255; aborting")
        | .code _ => modify (fun s => { s with code := 123 })
        | .signal n => fail 125 (name ++ ": terminated by signal " ++ toString n))
where
  chunks (size : Nat) : Nat → List Octets → List (List Octets)
    | 0, _ | _, [] => []
    | n + 1, items => items.take size :: chunks size n (items.drop size)

def which : Program Unit := do
  let c ← read
  let names := c.args.filter (fun a => !a.startsWith "-")
  if names.isEmpty then exit 1
  names.forM (fun name => do
    let files := (← get).files
    let candidates := if name.toList.contains '/' then [Octets.toPath name]
      else (SearchPath.ofVariables c.env).map (fun dir => dir.join (Octets.toPath name))
    match candidates.find? (files.isProgram c.cwd) with
    | some p => print (Octets.ofPath p ++ "\n")
    | none => modify (fun s => { s with code := 1 }))

end BuildFront.Tool
